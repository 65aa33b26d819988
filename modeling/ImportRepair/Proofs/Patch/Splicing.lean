import ImportRepair.Proofs.Patch.Trail
import ImportRepair.Proofs.Text.Encoded

/-!
# Patching a file, by its bytes

The line goes into the text of a file, but the file changes as if it went into the bytes: before the
first occurrence of the anchor among them, with every other byte as it was. Whether the line goes in
can be told by the bytes too.

Results:
* `outcome_eq_patched_iff`: which bytes take a line.
* `file_spliced`: a file that can be written gets its line between its bytes, or no file changes.
-/

namespace ImportRepair

/-! ## Lines and anchors as bytes -/

namespace Insertion

/-- The bytes of the word before which an import line is put. -/
def anchorBytes : List UInt8 := [0x69, 0x6D, 0x70, 0x6F, 0x72, 0x74]

/-- The bytes of the line that imports a module. -/
def lineBytes (module : Text) : List UInt8 :=
  anchorBytes ++ 0x20 :: (Utf8.encodeAll module ++ [0x0A])

/-- What it takes for the line of a module to go into the bytes of a file. -/
structure Takes (module : Text) (bytes : List UInt8) : Prop where
  /-- The bytes are a text. -/
  text : ∃ t, Utf8.decode bytes = .ok t
  /-- The line can be written. -/
  scalar : module.isScalar = true
  /-- The line is not there yet. -/
  absent : ¬ lineBytes module <:+: bytes
  /-- There is a place for it. -/
  anchor : anchorBytes <:+: bytes

/-- The bytes with the line of a module before their first anchor. -/
def spliced (module : Text) (bytes : List UInt8) : List UInt8 :=
  match firstIndex? anchorBytes bytes with
  | none => bytes
  | some k => splice k (lineBytes module) bytes

theorem encodeAll_anchor : Utf8.encodeAll anchor = anchorBytes := by decide

theorem encodeAll_line (module : Text) : Utf8.encodeAll (line module) = lineBytes module := by
  have hline : line module = anchor ++ 32 :: (module ++ [10]) := by
    simp [anchor, line, Text.ofString]
    rfl
  rw [hline, Utf8.encodeAll_append, Utf8.encodeAll_cons, Utf8.encodeAll_append, encodeAll_anchor]
  rfl

theorem isScalar_anchor : anchor.isScalar = true := by decide

theorem isScalar_line (module : Text) : (line module).isScalar = module.isScalar := by
  rw [line, Text.isScalar, List.all_append, List.all_append]
  exact Bool.and_true _

/-- The line goes into a text exactly if its bytes go into the bytes. -/
theorem takes_iff {module t : Text} {bytes : List UInt8} (h : Utf8.decode bytes = .ok t) :
    Takes module bytes ↔ (line module).isScalar = true ∧ occursIn (line module) t = false ∧
      occursIn anchor t = true := by
  obtain ⟨ht, rfl⟩ := Utf8.decode_eq_ok_iff_encodeAll.1 h
  have hanchor : anchorBytes <:+: Utf8.encodeAll t ↔ occursIn anchor t = true := by
    rw [← encodeAll_anchor, ← occursIn_iff, Utf8.occursIn_encodeAll (by decide) isScalar_anchor ht]
  have habsent : (line module).isScalar = true →
      (¬ lineBytes module <:+: Utf8.encodeAll t ↔ occursIn (line module) t = false) := by
    intro hl
    rw [← encodeAll_line, ← occursIn_iff, Utf8.occursIn_encodeAll (by simp [line]) hl ht,
      Bool.not_eq_true]
  constructor
  · rintro ⟨-, hm, ha, hw⟩
    rw [← isScalar_line] at hm
    exact ⟨hm, (habsent hm).1 ha, hanchor.1 hw⟩
  · rintro ⟨hm, ha, hw⟩
    exact ⟨⟨t, h⟩, isScalar_line module ▸ hm, (habsent hm).2 ha, hanchor.2 hw⟩

/-- The bytes of the text with the line in it. -/
theorem encodeAll_splice_line {module t : Text} {bytes : List UInt8} {k : Nat}
    (h : Utf8.decode bytes = .ok t) (hk : firstIndex? anchor t = some k) :
    Utf8.encodeAll (splice k (line module) t) = spliced module bytes := by
  obtain ⟨ht, rfl⟩ := Utf8.decode_eq_ok_iff_encodeAll.1 h
  have hfirst := Utf8.firstIndex?_encodeAll (by decide) isScalar_anchor ht
  rw [encodeAll_anchor, hk] at hfirst
  rw [Utf8.encodeAll_splice, encodeAll_line, spliced, hfirst]
  rfl

end Insertion

namespace Patch

variable {trial : Bool} {mishaps : Mishaps} {tree : FileTree} {module path : Text} {p : Place}
  {bytes : List UInt8} {w : World}

/-! ## The outcome by the bytes -/

theorem statusOf_eq_patched_iff {blocked : Bool} {line : Text} {t? : Option Text} :
    statusOf trial blocked line t? = .patched ↔ trial = false ∧ blocked = false ∧
      ∃ t, t? = some t ∧ line.isScalar = true ∧ occursIn line t = false ∧
        occursIn Insertion.anchor t = true := by
  constructor
  · intro h
    obtain ⟨htrial, hblocked, hline, t, ht, habsent, hanchor⟩ := statusOf_eq_patched h
    exact ⟨htrial, hblocked, t, ht, hline, habsent, hanchor⟩
  · rintro ⟨rfl, rfl, t, rfl, hline, habsent, hanchor⟩
    rw [statusOf_of_anchor hanchor, habsent, hline]
    rfl

/-- The text read at a place is that of its bytes, unless reading fails. -/
theorem textAt?_eq_some_iff (hb : tree.bytesAt? p = some bytes) {t : Text} :
    mishaps.textAt? tree path p = some t ↔
      mishaps.unreadable.lookup path = none ∧ Utf8.decode bytes = .ok t := by
  rw [Mishaps.textAt?, FileTree.textAt?, hb, Option.bind_some]
  cases mishaps.unreadable.lookup path with
  | some reason => simp
  | none => cases Utf8.decode bytes <;> simp [Except.toOption]

/-- Which bytes take a line. -/
theorem outcome_eq_patched_iff (h : target? mishaps tree path = some p)
    (hb : tree.bytesAt? p = some bytes) :
    outcome false mishaps tree module path = .patched ↔
      mishaps.unreadable.lookup path = none ∧ Insertion.Takes module bytes ∧
        tree.obstacle? mishaps path p = none := by
  rw [outcome_of_target? h, statusOf_eq_patched_iff, Option.isSome_eq_false_iff,
    Option.isNone_iff_eq_none]
  constructor
  · rintro ⟨-, hfree, t, ht, hline⟩
    obtain ⟨hread, hdecode⟩ := (textAt?_eq_some_iff hb).1 ht
    exact ⟨hread, (Insertion.takes_iff hdecode).2 hline, hfree⟩
  · rintro ⟨hread, htakes, hfree⟩
    obtain ⟨t, hdecode⟩ := htakes.text
    exact ⟨rfl, hfree, t, (textAt?_eq_some_iff hb).2 ⟨hread, hdecode⟩,
      (Insertion.takes_iff hdecode).1 htakes⟩

/-- A file that is patched gets the line between its bytes. -/
theorem after_eq_of_patched (h : target? mishaps tree path = some p)
    (hb : tree.bytesAt? p = some bytes) (ho : outcome trial mishaps tree module path = .patched) :
    after trial mishaps tree module path =
      tree.rewritten mishaps.noTemporary p (Insertion.spliced module bytes) := by
  obtain ⟨-, -, q, t, k, hq, -, htext, -, hk, hafter⟩ := of_patched ho
  obtain rfl : p = q := Option.some.inj (h.symm.trans hq)
  have hdecode : Utf8.decode bytes = .ok t := by
    rw [FileTree.textAt?, hb, Option.bind_some] at htext
    cases hd : Utf8.decode bytes with
    | error e => rw [hd] at htext; cases htext
    | ok u => rw [hd] at htext; cases htext; rfl
  rw [hafter, Insertion.encodeAll_splice_line hdecode hk]

/-! ## Patching by the bytes -/

/-- A path that counts as writable gives a file. -/
theorem target?_of_isWritable (h : (Files.isWritable path).run w = .ok true w) :
    ∃ p, target? w.mishaps w.tree path = some p := by
  obtain ⟨hc, p, hp⟩ := Files.isWritable_iff.1 h
  exact ⟨p, by rw [target?, hc, if_neg (by simp), hp]⟩

/-- A file is replaced exactly if nothing is in the way. -/
theorem replace_returns_iff (hs : w.tree.Sound) (h : w.tree.opened? path = some p)
    (data : List UInt8) :
    (∃ v, (Files.replace path data).run w = .ok () v) ↔
      w.tree.obstacle? w.mishaps path p = none := by
  have hrun := Files.run_replace hs h data
  cases ho : w.tree.obstacle? w.mishaps path p with
  | none =>
    rw [ho] at hrun
    obtain ⟨v, hv, -⟩ := hrun
    exact ⟨fun _ => rfl, fun _ => ⟨v, hv⟩⟩
  | some e =>
    rw [ho] at hrun
    obtain ⟨v, hv, -⟩ := hrun
    rw [hv]
    simp

/-- A file that can be written is patched exactly if it is read, its bytes take the line and it
is replaced. The line then goes between its bytes, before the first anchor, and the other
places show it that show the file; else no file changes. The contents to which records are
appended are left out. -/
theorem file_spliced (hs : w.tree.Sound) (h : (Files.isWritable path).run w = .ok true w)
    (module : Text) :
    ∃ p bytes r v, w.tree.opened? path = some p ∧ w.tree.bytesAt? p = some bytes ∧
      (file false module path).run w = .ok r v ∧
      (r.status = .patched ↔ w.mishaps.unreadable.lookup path = none ∧
        Insertion.Takes module bytes ∧
        ∃ u, (Files.replace path (Insertion.spliced module bytes)).run w = .ok () u) ∧
      (r.status = .patched → ∃ k tree,
        firstIndex? Insertion.anchorBytes bytes = some k ∧
        FileTree.SameShape w.tree tree ∧
        (∀ q, tree.bytesAt? q = if w.tree.sharesFile w.mishaps.noTemporary p q then
          some (bytes.take k ++ Insertion.lineBytes module ++ bytes.drop k)
            else w.tree.bytesAt? q) ∧
        FileTree.Logged w.journal.sinks tree v.tree) ∧
      (r.status ≠ .patched → FileTree.Logged w.journal.sinks w.tree v.tree) := by
  obtain ⟨p, hp⟩ := target?_of_isWritable h
  obtain ⟨_, hopen⟩ := target?_eq_some hp
  obtain ⟨_, c, hn, _⟩ := FileTree.settled_of_opened? hs hopen
  obtain ⟨bytes, hb⟩ := hs.bytesAt? hn
  obtain ⟨message, v, hv, hk⟩ := run_file_opened hs hp false module
  refine ⟨p, bytes, _, v, hopen, hb, hv, ?_, ?_, ?_⟩
  · rw [replace_returns_iff hs hopen]
    exact outcome_eq_patched_iff hp hb
  · intro ho
    have htree := hk.tree
    rw [after_eq_of_patched hp hb ho] at htree
    obtain ⟨_, htakes, _⟩ := (outcome_eq_patched_iff hp hb).1 ho
    obtain ⟨k, hfirst⟩ := Option.isSome_iff_exists.1 (occursIn_iff.2 htakes.anchor)
    refine ⟨k, _, hfirst, FileTree.sameShape_rewritten _ _ hn, ?_, htree⟩
    intro q
    rw [FileTree.bytesAt?_rewritten hs _ _ hn, Insertion.spliced, hfirst]
    rfl
  · intro ho
    have htree := hk.tree
    rwa [after_of_ne_patched ho] at htree

/-- A file with a character of two bytes and line ends of two characters gets one line. -/
theorem file_spliced_sample :
    ∃ r v, (file false "M" "log").run (World.sample "// é\r\nimport X\r\n") = .ok r v ∧
      r.status = .patched ∧
      v.tree.bytesAt? ["log"] = some (Utf8.encodeAll "// é\r\nimport M\nimport X\r\n") := by
  have hwritable : (Files.isWritable "log").run (World.sample "// é\r\nimport X\r\n") =
      .ok true (World.sample "// é\r\nimport X\r\n") := by rfl
  obtain ⟨p, bytes, r, v, hopen, hb, hv, hiff, hpatched, -⟩ :=
    file_spliced (FileTree.sound_sample "// é\r\nimport X\r\n") hwritable "M"
  obtain rfl : (["log"] : Place) = p := Option.some.inj hopen
  obtain rfl : Utf8.encodeAll "// é\r\nimport X\r\n" = bytes := Option.some.inj hb
  have htakes : Insertion.Takes "M" (Utf8.encodeAll "// é\r\nimport X\r\n") :=
    ⟨⟨_, Utf8.decode_encodeAll (by decide +kernel)⟩, rfl, by decide +kernel, by decide +kernel⟩
  have hreplaced := (replace_returns_iff (FileTree.sound_sample _) hopen
    (Insertion.spliced "M" (Utf8.encodeAll "// é\r\nimport X\r\n"))).2 (by decide +kernel)
  have hstatus : r.status = .patched := hiff.2 ⟨rfl, htakes, hreplaced⟩
  obtain ⟨k, tree, hk, -, hbytes, hlogged⟩ := hpatched hstatus
  obtain rfl : 7 = k := by
    rw [show firstIndex? Insertion.anchorBytes _ = some 7 by decide +kernel] at hk
    exact Option.some.inj hk
  obtain rfl : v.tree = tree := hlogged.eq
  exact ⟨r, v, hv, hstatus, (hbytes ["log"]).trans (by decide +kernel)⟩

end Patch

end ImportRepair
