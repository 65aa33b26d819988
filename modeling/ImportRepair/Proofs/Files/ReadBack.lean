import ImportRepair.Proofs.Files.Replacing

/-!
# Reading what was written

A path is followed in two ways: name by name when it is opened, and to its real path when the file
is replaced. For a path that can be written, both ways lead to the same file. So what is written by
one path is read by all paths that had the same real path.

Results:
* `Files.not_losesLink`: no link is lost by a path that can be opened.
* `Files.readText_of_bytesAt?`: what is read where the bytes of a text are.
* `Files.read_after_replace`: a text that was written is read again.
-/

namespace ImportRepair

namespace Files

variable {w v : World} {path : Text} {p : Place} {text : Text}

/-- A path that can be opened has a real path that is no link. -/
theorem not_losesLink (hs : w.tree.Sound) (h : w.tree.opened? path = some p) (data : List UInt8) :
    ¬LosesLink w path data := by
  rintro ⟨-, -, -, real, q, target, -, -, hreal, hlocate, -, -⟩
  rw [FileTree.realPath_of_opened? hs h] at hreal
  cases hreal
  obtain ⟨hp, c, hn, _⟩ := FileTree.settled_of_opened? hs h
  by_cases hlen : Path.byteLength (PlainPath.ofPlace p).display < Path.maxPath
  · rw [FileTree.locate_settled false hp hn hlen] at hlocate
    cases hlocate
  · rw [FileTree.locate_long false (PlainPath.display_ofPlace_ne_nil p) (by omega)] at hlocate
    cases hlocate

/-- Where the bytes of a text are, the text is read. -/
theorem readText_of_bytesAt? (hs : w.tree.Sound) (h : w.tree.opened? path = some p)
    (hread : w.mishaps.unreadable.lookup path = none) (htext : text.isScalar = true)
    (hbytes : w.tree.bytesAt? p = some (Utf8.encodeAll text)) :
    (readText path).run w = .ok text w := by
  have hrun := run_readText hs h
  have htextAt : w.mishaps.textAt? w.tree path p = some text := by
    rw [Mishaps.textAt?, hread, FileTree.textAt?, hbytes, Option.bind_some,
      Utf8.decode_encodeAll htext]
    rfl
  rw [htextAt] at hrun
  exact hrun

/-- The world in which a file that can be opened was replaced. -/
theorem of_replace (hs : w.tree.Sound) (hp : w.tree.opened? path = some p) {data : List UInt8}
    (h : (replace path data).run w = .ok () v) :
    FileTree.SameShape w.tree v.tree ∧ v.tree.Sound ∧ v.mishaps = w.mishaps ∧
      v.tree.bytesAt? p = some data := by
  have hreal := FileTree.isRealFile_of_opened? hs hp
  obtain ⟨q, u, hv, hk, _, hq⟩ | ⟨e, u, hu, _⟩ :=
    (run_replace_cases hs (fun _ => ⟨p, hreal⟩) data).resolve_right (not_losesLink hs hp data)
  · obtain rfl := hq.unique hreal
    rw [h] at hv
    cases hv
    have hsound := hk.tree.sound hs
    obtain ⟨c, hn⟩ := hreal.node?
    have hnode : u.tree.node? q = some (.file c) := (hk.tree.node? q).trans hn
    refine ⟨hk.tree.sameShape.trans (FileTree.sameShape_rewritten _ data hnode),
      FileTree.sound_rewritten hsound data hnode, hk.mishaps, ?_⟩
    show (u.tree.rewritten _ q data).bytesAt? q = some data
    rw [FileTree.bytesAt?_rewritten hsound _ data hnode, FileTree.sharesFile_self, if_pos rfl]
  · rw [h] at hu
    cases hu

/-- A text that was written to a path that can be written is read again, by this path and by all
others that had the same real path and could be read. The path can still be written. -/
theorem read_after_replace (hs : w.tree.Sound) (hw : (isWritable path).run w = .ok true w)
    (htext : text.isScalar = true) (h : (replace path (Utf8.encodeAll text)).run w = .ok () v) :
    (isWritable path).run v = .ok true v ∧
      (w.mishaps.unreadable.lookup path = none → (readText path).run v = .ok text v) ∧
      ∀ q, w.tree.realPath q = w.tree.realPath path → (isReadable q).run w = .ok true w →
        w.mishaps.unreadable.lookup q = none → (readText q).run v = .ok text v := by
  obtain ⟨hallowed, p, hp⟩ := isWritable_iff.1 hw
  obtain ⟨hshape, hsound, hmishaps, hbytes⟩ := of_replace hs hp h
  -- whoever opens this file reads the text
  have hreads : ∀ q, w.tree.opened? q = some p → w.mishaps.unreadable.lookup q = none →
      (readText q).run v = .ok text v := by
    intro q hq hread
    refine readText_of_bytesAt? hsound ?_ ?_ htext hbytes
    · rw [← hshape.opened?, hq]
    · rw [hmishaps, hread]
  refine ⟨isWritable_iff.2 ⟨?_, p, ?_⟩, hreads path hp, ?_⟩
  · rw [hmishaps, hallowed]
  · rw [← hshape.opened?, hp]
  · intro q hreal hreadable
    obtain ⟨q', hq⟩ := isReadable_iff.1 hreadable
    rw [FileTree.realPath_of_opened? hs hq, FileTree.realPath_of_opened? hs hp,
      Except.ok.injEq] at hreal
    obtain rfl := FileTree.ofPlace_injective hreal
    exact hreads q hq

theorem replaces_linked (data : List UInt8) :
    ∃ v, (replace "/dl/A.swift" data).run .linked = .ok () v := by
  obtain ⟨p, hopen, hfree⟩ : ∃ p, World.linked.tree.opened? "/dl/A.swift" = some p ∧
      World.linked.tree.obstacle? World.linked.mishaps "/dl/A.swift" p = none :=
    ⟨["A.swift", "d"], by decide +kernel⟩
  have hrun := run_replace World.sound_linked hopen data
  rw [hfree] at hrun
  obtain ⟨v, hv, -⟩ := hrun
  exact ⟨v, hv⟩

/-- What is written through a link to the directory is read by another path. -/
theorem read_after_replace_linked :
    ∃ v, (replace "/dl/A.swift" (Utf8.encodeAll "// é\r\nimport Y")).run .linked = .ok () v ∧
      (readText "/d/../dl/./A.swift").run v = .ok "// é\r\nimport Y" v := by
  obtain ⟨v, hv⟩ := replaces_linked (Utf8.encodeAll "// é\r\nimport Y")
  have hwritable : (isWritable "/dl/A.swift").run .linked = .ok true .linked :=
    isWritable_iff.2 ⟨rfl, ["A.swift", "d"], by decide +kernel⟩
  obtain ⟨-, -, hread⟩ := read_after_replace World.sound_linked hwritable (by decide +kernel) hv
  exact ⟨v, hv, hread "/d/../dl/./A.swift" (by decide +kernel)
    (isReadable_iff.2 ⟨["A.swift", "d"], by decide +kernel⟩) rfl⟩

end Files

end ImportRepair
