import ImportRepair.Proofs.Files.Alphabet
import ImportRepair.Proofs.Files.Jobs

/-!
# Replacing a file, or not

A file is replaced as a whole or not at all: either the file at the real path has the new bytes,
with its permission bits, and nothing else changed; or the system refuses, and the files are what
they were, without a temporary file. This holds of every path but two kinds. One with code points
that no file name can hold fails on its own account, before the system is asked. And the names after
a circle of links are left as they are, so a real path may itself be a link. Then the file that the
link leads to keeps its bytes, and the link is lost: the new file takes its place.

Results:
* `FileTree.replaces_rewritten`: what new bytes for a file change.
* `Files.run_replace_cases`: how replacing a file may end.
* `Files.run_replace_of_losesLink`: how a link is lost.
* `Files.replace_all_or_nothing_iff`: when a file is replaced as a whole or not at all.
-/

namespace ImportRepair

namespace FileTree

variable {tree : FileTree} {path : Text} {p : Place}

/-! ## Files at real paths -/

/-- The real path of a path leads to the file at a place. -/
def IsRealFile (tree : FileTree) (path : Text) (p : Place) : Prop :=
  ∃ real k c, tree.realPath path = .ok real ∧
    Follows tree k (tree.start real.display) (Path.names real.display) p (.file c)

theorem isRealFile_of_lookUp {real : PlainPath} {c : Nat} (hreal : tree.realPath path = .ok real)
    (h : tree.lookUp real.display = .ok (p, .file c)) : tree.IsRealFile path p := by
  obtain ⟨_, _, k, _, hf⟩ := follows_of_lookUp h
  exact ⟨real, k, c, hreal, hf⟩

theorem IsRealFile.unique {q : Place} (h : tree.IsRealFile path p) (h' : tree.IsRealFile path q) :
    p = q := by
  obtain ⟨real, _, _, hreal, hf⟩ := h
  obtain ⟨real', _, _, hreal', hf'⟩ := h'
  rw [hreal] at hreal'
  cases hreal'
  exact (hf.unique hf').2.1

theorem IsRealFile.node? (h : tree.IsRealFile path p) : ∃ c, tree.node? p = some (.file c) := by
  obtain ⟨_, _, c, _, hf⟩ := h
  exact ⟨c, hf.node?_file⟩

theorem locate_of_lookUp {n : Node} (h : tree.lookUp path = .ok (p, n)) :
    tree.locate true path = .ok (.node p n) := by
  unfold lookUp at h
  split at h
  · next hlocate =>
    cases h
    exact hlocate
  · cases h
  · cases h

/-- The file that a path opens is the one at its real path. -/
theorem isRealFile_of_opened? (hs : tree.Sound) (h : tree.opened? path = some p) :
    tree.IsRealFile path p := by
  obtain ⟨hp, c, hn, _⟩ := settled_of_opened? hs h
  exact ⟨.ofPlace p, 0, c, realPath_of_opened? hs h,
    follows_display (fun name hname => (hp.isName name hname).noSlash) (hp.follows hn)⟩

/-- The system finds the file at a real path, or refuses to follow it. -/
theorem locate_of_follows {k c : Nat}
    (h : Follows tree k (tree.start path) (Path.names path) p (.file c)) :
    tree.locate true path = .ok (.node p (.file c)) ∨
      ∃ code, tree.locate true path = .error code := by
  unfold locate
  split
  · exact Or.inr ⟨_, rfl⟩
  split
  · exact Or.inr ⟨_, rfl⟩
  · exact (h.walk_or_loop maxLinks).imp id fun hloop => ⟨_, hloop⟩

/-! ## What a replacement changes -/

/-- In the second tree the file at a place has new bytes, which its other names show if it was
overwritten in place. Nothing else is different: the same directories, links and files stand at the
same places, and the permission bits are the same. -/
structure Replaces (inPlace : Bool) (p : Place) (data : List UInt8) (a b : FileTree) : Prop where
  working : b.working = a.working
  nodes : ∀ q, inPlace = true ∨ q ≠ p → b.node? q = a.node? q
  file : ∃ c, b.node? p = some (.file c)
  bytes : ∀ q, b.bytesAt? q = if a.sharesFile inPlace p q then some data else a.bytesAt? q
  modes : ∀ q, b.modeAt? q = a.modeAt? q

/-- What new bytes for a file change. -/
theorem replaces_rewritten (hs : tree.Sound) (inPlace : Bool) {c : Nat} (data : List UInt8)
    (h : tree.node? p = some (.file c)) :
    Replaces inPlace p data tree (tree.rewritten inPlace p data) where
  working := (sameShape_rewritten inPlace data h).working.symm
  nodes q hq := by
    rw [node?_rewritten data h, if_neg]
    rintro ⟨hin, rfl⟩
    obtain hq | hq := hq
    · rw [hin] at hq
      cases hq
    · exact hq rfl
  file := (sameShape_rewritten inPlace data h).file h
  bytes := bytesAt?_rewritten hs inPlace data h
  modes := modeAt?_rewritten hs inPlace data h

/-- In the second tree a file stands where a link stood in the first one. Everything else stands
where it stood, and what the link led to has the bytes that it had. -/
structure Displaces (p : Place) (data : List UInt8) (a b : FileTree) : Prop where
  link : ∃ target, a.node? p = some (.link target)
  working : b.working = a.working
  nodes : ∀ q, q ≠ p → b.node? q = a.node? q
  file : ∃ c, b.node? p = some (.file c)
  bytes : ∀ q, b.bytesAt? q = if q = p then some data else a.bytesAt? q

/-- What is put in the place of a link. -/
theorem displaces_put (hs : tree.Sound) {target : Text} (h : tree.node? p = some (.link target))
    (content : Content) :
    Displaces p content.bytes tree
      ((tree.addContent content).2.put p (.file tree.contents.length)) := by
  have hp : p ≠ [] := by
    rintro rfl
    cases h
  have hnode : ∀ q, ((tree.addContent content).2.put p (.file tree.contents.length)).node? q =
      if q = p then some (.file tree.contents.length) else tree.node? q := fun q => node?_put hp
  refine ⟨⟨target, h⟩, rfl, ?_, ⟨tree.contents.length, ?_⟩, ?_⟩
  · intro q hq
    rw [hnode, if_neg hq]
  · rw [hnode, if_pos rfl]
  · intro q
    have hcontents : ((tree.addContent content).2.put p (.file tree.contents.length)).contents =
        tree.contents ++ [content] := rfl
    by_cases hq : q = p
    · have hfile := hnode q
      rw [if_pos hq] at hfile
      rw [bytesAt?_of_node? hfile, content?, hcontents, List.getElem?_concat_length, if_pos hq]
      rfl
    · rw [bytesAt?, hnode, if_neg hq, if_neg hq, bytesAt?]
      split
      · next c hc =>
          rw [content?, content?, hcontents, List.getElem?_append_left (hs.contents q c hc)]
      · rfl

/-! ## Refusals -/

/-- The system refuses to do something, or a text with certain code points is no path. -/
def Refused (P : CodePoint → Prop) (e : FileError) : Prop :=
  (∃ cause, e = .system cause) ∨ ∃ t, (∀ c ∈ t, P c) ∧ checkPath t = .error e

/-- A text that is no path has a null character, or a code point that no file name can hold. -/
theorem of_checkPath {t : Text} {e : FileError} (h : checkPath t = .error e) :
    0 ∈ t ∨ (∃ c ∈ t, Path.isForbidden c = true) ∧ ∃ cause, e = .unencodable cause := by
  unfold checkPath at h
  split at h
  · next cause hcause =>
    cases h
    refine Or.inr ⟨?_, _, rfl⟩
    by_contra hnone
    rw [encodingFault?_eq_none_iff.2] at hcause
    · cases hcause
    · intro c hc
      exact Bool.eq_false_of_not_eq_true fun hforbidden => hnone ⟨c, hc, hforbidden⟩
  · split at h
    · next hnull => exact Or.inl (List.contains_iff_mem.1 hnull)
    · cases h

/-- A text with the code points of a path, and such as can be in any path, is a path if that one
is. -/
theorem Refused.of_letters {e : FileError} (hnull : 0 ∉ path)
    (h : Refused (fun c => c ∈ path ∨ c ≠ 0 ∧ Path.isForbidden c = false) e) :
    (∃ cause, e = .system cause) ∨ ¬Path.IsClean path ∧ ∃ cause, e = .unencodable cause := by
  refine h.imp id ?_
  rintro ⟨t, ht, hcheck⟩
  obtain hzero | ⟨⟨c, hc, hforbidden⟩, hcause⟩ := of_checkPath hcheck
  · obtain hmem | hne := ht 0 hzero
    · exact absurd hmem hnull
    · exact absurd rfl hne.1
  · refine ⟨fun hclean => ?_, hcause⟩
    have hallowed : Path.isForbidden c = false :=
      (ht c hc).elim (fun hmem => (hclean c hmem).2) (·.2)
    rw [hforbidden] at hallowed
    cases hallowed

variable {P : CodePoint → Prop}

theorem spelt_shownTemporary (hP : ∀ t, Path.IsClean t → ∀ c ∈ t, P c) {target : PlainPath}
    (h : target.SpeltBy P) : ∀ c ∈ shownTemporary target, P c := by
  have hname : ∀ c ∈ target.name, P c := by
    unfold PlainPath.name
    cases hl : target.names.getLast? with
    | none => simp
    | some name => exact h.2 name (List.mem_of_getLast? hl)
  refine (h.parent.child ?_).display hP
  rw [Temporary.shownName, Temporary.name]
  simp only [List.forall_mem_append]
  exact ⟨⟨⟨⟨hP _ (by decide), hname⟩, hP _ (by decide)⟩, hP _ (by decide)⟩, hP _ (by decide)⟩

theorem error_of_createTemporary {target : PlainPath} {data : List UInt8} {e : FileError}
    (h : tree.createTemporary target data = .error e) :
    (∃ cause, e = .system cause) ∨ checkPath (shownTemporary target) = .error e := by
  unfold createTemporary at h
  cases hcheck : checkPath (shownTemporary target) with
  | error e' =>
    simp only [hcheck] at h
    cases h
    exact Or.inr rfl
  | ok u =>
    left
    simp only [hcheck, bind, Except.bind] at h
    split at h
    · cases h
      exact ⟨_, rfl⟩
    split at h
    · cases h
      exact ⟨_, rfl⟩
    · cases h
      exact ⟨_, rfl⟩
    · split at h
      · cases h
        exact ⟨_, rfl⟩
      · split at h
        · cases h
          exact ⟨_, rfl⟩
        · cases h
    · cases h
      exact ⟨_, rfl⟩

/-- Where a temporary file is renamed to, the path leads somewhere. What stands there is a file, or
else a link stands at the path itself. -/
theorem of_commit {mishaps : Mishaps} {temporary : Place} {content : Nat} {target : PlainPath}
    {tree' : FileTree} (h : tree.commit mishaps temporary content target = .ok tree') :
    mishaps.renameFault = none ∧ ∃ p n, (tree.remove temporary).lookUp target.display = .ok (p, n) ∧
      ((∃ q link,
        (tree.remove temporary).locate false target.display = .ok (.node q (.link link))) ∨
        ∃ c, n = .file c ∧
          (tree.remove temporary).locate false target.display = .ok (.node p (.file c))) := by
  unfold commit at h
  simp only at h
  cases hlook : (tree.remove temporary).lookUp target.display with
  | error code =>
    rw [hlook] at h
    cases h
  | ok found =>
    obtain ⟨p, n⟩ := found
    rw [hlook] at h
    cases hfault : mishaps.renameFault with
    | some reason =>
      rw [hfault] at h
      cases h
    | none =>
      refine ⟨rfl, p, n, rfl, ?_⟩
      obtain hsame | hlink := (tree.remove temporary).locate_noFollow target.display
      · rw [locate_of_lookUp hlook] at hsame
        rw [hfault, hsame] at h
        cases n with
        | directory => cases h
        | file c => exact Or.inr ⟨c, rfl, hsame⟩
        | link target' => exact Or.inl ⟨p, target', hsame⟩
      · exact Or.inl hlink

/-- Renaming a temporary file to a link that leads somewhere puts it in the place of the link. -/
theorem commit_addTemporary_link {mishaps : Mishaps} {temporary : Place} {target : PlainPath}
    {link : Text} {found : Place × Node} (hfree : tree.nodes.lookup temporary = none)
    (hfault : mishaps.renameFault = none) (hlook : tree.lookUp target.display = .ok found)
    (hlocate : tree.locate false target.display = .ok (.node p (.link link))) (data : List UInt8) :
    ∃ mode, (tree.addTemporary temporary data).2.commit mishaps temporary
      tree.contents.length target =
      .ok ((tree.addContent ⟨data, mode⟩).2.put p (.file tree.contents.length)) := by
  have hsame := @sameNodes_addContent tree ⟨data, 0o600⟩
  refine ⟨(tree.addContent ⟨data, 0o600⟩).2.modeOf found.2, ?_⟩
  rw [commit]
  simp only [remove_addTemporary hfree, hsame.lookUp, hsame.locate, hlook, hlocate, hfault]
  congr 1
  simp only [addContent, put, modifyContent, modify_concat]

end FileTree

/-! ## Replacing -/

namespace Files

variable {w : World} {path : Text} {p : Place} {P : CodePoint → Prop}

/-- A file is overwritten, or the path is refused. -/
theorem run_overwrite_cases {c : Nat} (hp : ∀ c ∈ path, P c)
    (h : w.tree.locate true path = .ok (.node p (.file c)) ∨
      ∃ code, w.tree.locate true path = .error code)
    (hn : w.tree.node? p = some (.file c)) (data : List UInt8) :
    (overwrite path data).run w = .ok () (withTree w (w.tree.rewritten true p data)) ∨
      ∃ e v, (overwrite path data).run w = .error (.file e) v ∧ World.Kept w v ∧
        FileTree.Refused P e := by
  cases hcheck : FileTree.checkPath path with
  | error e =>
    have hopen : w.tree.openForWriting path = .error e := by
      rw [FileTree.openForWriting, hcheck]
      rfl
    obtain ⟨v, hv, hk⟩ := run_overwrite_of_error hopen data
    exact Or.inr ⟨e, v, hv, hk, Or.inr ⟨path, hp, hcheck⟩⟩
  | ok u =>
    obtain hfile | ⟨code, herror⟩ := h
    · have hopen : w.tree.openForWriting path = .ok (c, w.tree) := by
        rw [FileTree.openForWriting, hcheck, hfile]
        rfl
      exact Or.inl (run_overwrite_of_opened hopen hn data)
    · have hopen : w.tree.openForWriting path = .error (.system (.onPath code path)) := by
        rw [FileTree.openForWriting, hcheck, herror]
        rfl
      obtain ⟨v, hv, hk⟩ := run_overwrite_of_error hopen data
      exact Or.inr ⟨_, v, hv, hk, Or.inl ⟨_, rfl⟩⟩

/-- A temporary file takes the name of the file or the place of a link, or nothing of it is left. -/
theorem run_rename_cases (hs : w.tree.Sound) {temporary : Place} (target : PlainPath)
    (hfree : w.tree.nodes.lookup temporary = none) (data : List UInt8) :
    (∃ p c, w.tree.lookUp target.display = .ok (p, .file c) ∧
      (rename path temporary w.tree.contents.length target).run
          (withTree w (w.tree.addTemporary temporary data).2) =
        .ok () (withTree w (w.tree.rewritten false p data))) ∨
      (∃ e v, (rename path temporary w.tree.contents.length target).run
          (withTree w (w.tree.addTemporary temporary data).2) = .error (.file (.system e)) v ∧
        World.Kept w v) ∨
      w.mishaps.renameFault = none ∧ (∃ found, w.tree.lookUp target.display = .ok found) ∧
        ∃ p link, w.tree.locate false target.display = .ok (.node p (.link link)) := by
  have hsame :
      FileTree.SameNodes w.tree ((w.tree.addTemporary temporary data).2.remove temporary) := by
    rw [FileTree.remove_addTemporary hfree]
    exact FileTree.sameNodes_addContent _
  cases hc : (w.tree.addTemporary temporary data).2.commit w.mishaps temporary
    w.tree.contents.length target with
  | error e =>
    obtain ⟨v, hv, hk⟩ := run_cleanUp path hfree w.mishaps.vanishing data e
    exact Or.inr (Or.inl ⟨e, v, (run_rename_of_error hc).trans hv, hk⟩)
  | ok tree =>
    obtain ⟨hfault, p, n, hlook, hends⟩ := FileTree.of_commit hc
    rw [hsame.lookUp] at hlook
    rw [hsame.locate] at hends
    obtain ⟨q, link, hq⟩ | ⟨c, rfl, hq⟩ := hends
    · exact Or.inr (Or.inr ⟨hfault, ⟨_, hlook⟩, q, link, hq⟩)
    · have hcommit := FileTree.commit_addTemporary w.mishaps hs hfree hlook hq data
      rw [hc, hfault] at hcommit
      cases hcommit
      exact Or.inl ⟨p, c, hlook, run_rename_of_ok hc⟩

/-! ## Two kinds of paths -/

/-- A file takes the place of a link: its path is not one that fails, and its real path is a link
that leads somewhere, beside which there is room for the temporary file that is renamed to it. -/
structure LosesLink (w : World) (path : Text) (data : List UInt8) : Prop where
  replaceable : w.mishaps.irreplaceable.lookup path = none
  temporary : w.mishaps.noTemporary = false
  renamed : w.mishaps.renameFault = none
  link : ∃ real p target found created, w.tree.realPath path = .ok real ∧
    w.tree.locate false real.display = .ok (.node p (.link target)) ∧
    w.tree.lookUp real.display = .ok found ∧ w.tree.createTemporary real data = .ok created

/-- The path that is written to first: the one of a temporary file, or of the target where there can
be no temporary file. -/
def writtenFirst (w : World) (target : PlainPath) : Text :=
  if w.mishaps.noTemporary then target.display else FileTree.shownTemporary target

/-- A path is not one that fails, but it is none for the system either: it has no real path, or
nothing can be written for it, because of a code point that no file name can hold. -/
def IsUnencodable (w : World) (path : Text) : Prop :=
  w.mishaps.irreplaceable.lookup path = none ∧ ∃ cause,
    (w.tree.realPath path >>= fun target => FileTree.checkPath (writtenFirst w target)) =
      .error (.unencodable cause)

/-- How replacing a file may end: the file at the real path has new bytes, in the world
as it is after a record or two, or there is a refusal that comes from the system or from
code points of some kind. -/
def EndsCleanly (P : CodePoint → Prop) (w : World) (path : Text) (data : List UInt8) : Prop :=
  (∃ p u, (replace path data).run w =
      .ok () (withTree u (u.tree.rewritten w.mishaps.noTemporary p data)) ∧
      World.Kept w u ∧ (w.mishaps.noTemporary = false → u = w) ∧ w.tree.IsRealFile path p) ∨
    ∃ e v, (replace path data).run w = .error (.file e) v ∧ World.Kept w v ∧ FileTree.Refused P e

section Ways

variable {target : PlainPath}

theorem endsCleanly_inPlace (hP : ∀ t, Path.IsClean t → ∀ c ∈ t, P c)
    (hi : w.mishaps.irreplaceable.lookup path = none) (ht : w.mishaps.noTemporary = true)
    (hreal : w.tree.realPath path = .ok target) (hspelt : target.SpeltBy P)
    (hp : w.tree.IsRealFile path p) (data : List UInt8) : EndsCleanly P w path data := by
  obtain ⟨c, hn⟩ := hp.node?
  have hlocate : w.tree.locate true target.display = .ok (.node p (.file c)) ∨
      ∃ code, w.tree.locate true target.display = .error code := by
    obtain ⟨real, k, d, hreal', hf⟩ := hp
    rw [hreal] at hreal'
    cases hreal'
    rw [hf.node?_file] at hn
    cases hn
    exact FileTree.locate_of_follows hf
  obtain ⟨u, hk, hrun⟩ := run_replace_of_noTemporary hi ht hreal data
  have hsame : FileTree.SameNodes w.tree u.tree := ⟨hk.tree.working, hk.tree.node?⟩
  rw [← hsame.locate] at hlocate
  rw [EndsCleanly, hrun, ht]
  obtain hv | ⟨e, v, hv, hkv, he⟩ := run_overwrite_cases (hspelt.display hP) hlocate
    ((hsame.node? p).trans hn) data
  · exact Or.inl ⟨p, u, hv, hk, fun hnot => (by cases hnot), hp⟩
  · exact Or.inr ⟨e, v, hv, hk.trans hkv, he⟩

theorem endsCleanly_temporary (hs : w.tree.Sound) (hP : ∀ t, Path.IsClean t → ∀ c ∈ t, P c)
    (hi : w.mishaps.irreplaceable.lookup path = none) (ht : w.mishaps.noTemporary = false)
    (hreal : w.tree.realPath path = .ok target) (hspelt : target.SpeltBy P) (data : List UInt8) :
    EndsCleanly P w path data ∨ LosesLink w path data := by
  cases hc : w.tree.createTemporary target data with
  | error e =>
    refine Or.inl (Or.inr ⟨e, w, run_replace_of_uncreated hi ht hreal hc, .refl w, ?_⟩)
    exact (FileTree.error_of_createTemporary hc).imp id fun hcheck =>
      ⟨_, FileTree.spelt_shownTemporary hP hspelt, hcheck⟩
  | ok created =>
    have hcreated := hc
    obtain ⟨temporary, content, tree⟩ := created
    obtain ⟨hfree, rfl, rfl⟩ := FileTree.eq_addTemporary_of_createTemporary hc
    rw [EndsCleanly, run_replace_of_created hi ht hreal hc, ht]
    obtain ⟨p, c, hlook, hv⟩ | ⟨e, v, hv, hk⟩ | ⟨hfault, ⟨found, hlook⟩, p, link, hlink⟩ :=
      run_rename_cases hs target hfree data
    · exact Or.inl
        (Or.inl ⟨p, w, hv, .refl w, fun _ => rfl, FileTree.isRealFile_of_lookUp hreal hlook⟩)
    · exact Or.inl (Or.inr ⟨_, v, hv, hk, Or.inl ⟨e, rfl⟩⟩)
    · exact Or.inr ⟨hi, ht, hfault, target, p, link, found, _, hreal, hlink, hlook, hcreated⟩

end Ways

/-- Replacing a file ends in one of these ways, with the code points of the path, and such as can be
in any path, unless a link is lost. -/
theorem run_replace_cases (hs : w.tree.Sound)
    (hfile : w.mishaps.noTemporary = true → ∃ p, w.tree.IsRealFile path p) (data : List UInt8) :
    EndsCleanly (fun c => c ∈ path ∨ c ≠ 0 ∧ Path.isForbidden c = false) w path data ∨
      LosesLink w path data := by
  have hP : ∀ t : Text, Path.IsClean t → ∀ c ∈ t, c ∈ path ∨ c ≠ 0 ∧ Path.isForbidden c = false :=
    fun _ ht c hc => Or.inr (ht c hc)
  have hspelt := FileTree.realPath_spelt hP hs.links hs.working fun _ hc => Or.inl hc
  cases hi : w.mishaps.irreplaceable.lookup path with
  | some reason =>
    exact Or.inl (Or.inr ⟨_, w, run_replace_of_irreplaceable hi data, .refl w, Or.inl ⟨_, rfl⟩⟩)
  | none =>
    cases hreal : w.tree.realPath path with
    | error e =>
      rw [hreal] at hspelt
      exact Or.inl (Or.inr ⟨e, w, run_replace_of_no_realPath hi hreal data, .refl w, Or.inr hspelt⟩)
    | ok target =>
      rw [hreal] at hspelt
      cases ht : w.mishaps.noTemporary with
      | true =>
        obtain ⟨p, hp⟩ := hfile ht
        exact Or.inl (endsCleanly_inPlace hP hi ht hreal hspelt hp data)
      | false => exact endsCleanly_temporary hs hP hi ht hreal hspelt data

/-- Where a link is lost, nothing is refused. -/
theorem run_replace_of_losesLink (hs : w.tree.Sound) {data : List UInt8}
    (h : LosesLink w path data) :
    ∃ p v, (replace path data).run w = .ok () v ∧ FileTree.Displaces p data w.tree v.tree := by
  obtain ⟨hi, ht, hfault, real, p, link, found, ⟨temporary, content, tree⟩, hreal, hlink, hlook,
    hc⟩ := h
  obtain ⟨hfree, rfl, rfl⟩ := FileTree.eq_addTemporary_of_createTemporary hc
  have hnode : w.tree.node? p = some (.link link) := FileTree.isThere_of_locate hlink
  obtain ⟨mode, hcommit⟩ := FileTree.commit_addTemporary_link hfree hfault hlook hlink data
  refine ⟨p, withTree w ((w.tree.addContent ⟨data, mode⟩).2.put p (.file w.tree.contents.length)),
    ?_, FileTree.displaces_put hs hnode ⟨data, mode⟩⟩
  exact (run_replace_of_created hi ht hreal hc).trans (run_rename_of_ok hcommit)

/-- If a check fails, so does the replacement, and for the same reason. If not, then it is the
system that refuses, if anything does. -/
def IsJudgedBy (check : Except FileError Unit) (w : World) (path : Text) (data : List UInt8) :
    Prop :=
  match check with
  | .error e => ∃ v, (replace path data).run w = .error (.file e) v
  | .ok () => (∃ v, (replace path data).run w = .ok () v) ∨
      ∃ cause v, (replace path data).run w = .error (.file (.system cause)) v

section Judgements

variable {target : PlainPath} (hi : w.mishaps.irreplaceable.lookup path = none)
  (hreal : w.tree.realPath path = .ok target) (data : List UInt8)

include hi hreal

theorem judged_inPlace (ht : w.mishaps.noTemporary = true) :
    IsJudgedBy (FileTree.checkPath target.display) w path data := by
  obtain ⟨u, -, hrun⟩ := run_replace_of_noTemporary hi ht hreal data
  unfold IsJudgedBy
  rw [hrun]
  cases hcheck : FileTree.checkPath target.display with
  | error e =>
    have hopen : u.tree.openForWriting target.display = .error e := by
      rw [FileTree.openForWriting, hcheck]
      rfl
    obtain ⟨v, hv, -⟩ := run_overwrite_of_error hopen data
    exact ⟨v, hv⟩
  | ok _ =>
    cases hopen : u.tree.openForWriting target.display with
    | ok opened => exact Or.inl ⟨_, run_overwrite_of_ok hopen data⟩
    | error e =>
      obtain ⟨v, hv, -⟩ := run_overwrite_of_error hopen data
      obtain ⟨cause, rfl⟩ | herror := FileTree.error_of_openForWriting hopen
      · exact Or.inr ⟨cause, v, hv⟩
      · rw [hcheck] at herror
        cases herror

theorem judged_temporary (ht : w.mishaps.noTemporary = false) :
    IsJudgedBy (FileTree.checkPath (FileTree.shownTemporary target)) w path data := by
  unfold IsJudgedBy
  cases hcheck : FileTree.checkPath (FileTree.shownTemporary target) with
  | error e =>
    have hcreate : w.tree.createTemporary target data = .error e := by
      rw [FileTree.createTemporary, hcheck]
      rfl
    exact ⟨w, run_replace_of_uncreated hi ht hreal hcreate⟩
  | ok _ =>
    cases hc : w.tree.createTemporary target data with
    | error e =>
      obtain ⟨cause, rfl⟩ | herror := FileTree.error_of_createTemporary hc
      · exact Or.inr ⟨cause, w, run_replace_of_uncreated hi ht hreal hc⟩
      · rw [hcheck] at herror
        cases herror
    | ok created =>
      obtain ⟨temporary, content, tree⟩ := created
      obtain ⟨hfree, rfl, rfl⟩ := FileTree.eq_addTemporary_of_createTemporary hc
      rw [run_replace_of_created hi ht hreal hc]
      cases hcommit : (w.tree.addTemporary temporary data).2.commit w.mishaps temporary
          w.tree.contents.length target with
      | ok tree => exact Or.inl ⟨_, run_rename_of_ok hcommit⟩
      | error e =>
        obtain ⟨v, hv, -⟩ := run_cleanUp path hfree w.mishaps.vanishing data e
        exact Or.inr ⟨e, v, (run_rename_of_error hcommit).trans hv⟩

end Judgements

/-- A replacement is judged by whether what is written to first has a path. -/
theorem judged_by_check (hi : w.mishaps.irreplaceable.lookup path = none) (data : List UInt8) :
    IsJudgedBy (w.tree.realPath path >>= fun target => FileTree.checkPath (writtenFirst w target))
      w path data := by
  cases hreal : w.tree.realPath path with
  | error e => exact ⟨w, run_replace_of_no_realPath hi hreal data⟩
  | ok target =>
    show IsJudgedBy (FileTree.checkPath (writtenFirst w target)) w path data
    rw [writtenFirst]
    cases ht : w.mishaps.noTemporary with
    | true => exact judged_inPlace hi hreal data ht
    | false => exact judged_temporary hi hreal data ht

/-- A path fails on account of a code point exactly if it is none for the system. -/
theorem run_replace_unencodable_iff (data : List UInt8) :
    (∃ cause v, (replace path data).run w = .error (.file (.unencodable cause)) v) ↔
      IsUnencodable w path := by
  rw [IsUnencodable]
  cases hi : w.mishaps.irreplaceable.lookup path with
  | some reason =>
    rw [run_replace_of_irreplaceable hi]
    simp
  | none =>
    have hrun := judged_by_check hi data
    cases hcheck : w.tree.realPath path >>= fun target =>
      FileTree.checkPath (writtenFirst w target) with
    | error e =>
      rw [hcheck] at hrun
      obtain ⟨v, hv⟩ := hrun
      simp [hv]
    | ok _ =>
      rw [hcheck] at hrun
      obtain ⟨v, hv⟩ | ⟨cause, v, hv⟩ := hrun <;> simp [hv]

/-! ## All or nothing -/

/-- Either the file at the real path has the data, and nothing else changed, or the system refuses
and the files are what they were. Logs go on being written meanwhile. -/
def AllOrNothing (w : World) (path : Text) (data : List UInt8) : Prop :=
  (∃ p tree v, (replace path data).run w = .ok () v ∧ w.tree.IsRealFile path p ∧
      FileTree.Replaces w.mishaps.noTemporary p data w.tree tree ∧
      FileTree.Logged w.journal.sinks tree v.tree ∧ v.tree.bytesAt? p = some data) ∨
    ∃ cause v, (replace path data).run w = .error (.file (.system cause)) v ∧
      FileTree.Logged w.journal.sinks w.tree v.tree

/-- Whatever the tree and whatever goes wrong with temporary files, a file is replaced as a whole or
not at all, unless a link is lost to it or its path is none for the system. Where it is overwritten
in place, its real path has to lead to a file. -/
theorem replace_all_or_nothing_iff (hs : w.tree.Sound) (hnull : 0 ∉ path)
    (hfile : w.mishaps.noTemporary = true → ∃ p, w.tree.IsRealFile path p) (data : List UInt8) :
    AllOrNothing w path data ↔ ¬LosesLink w path data ∧ ¬IsUnencodable w path := by
  constructor
  · intro hall
    constructor
    · intro hlost
      obtain ⟨p, v, hv, hdisplaces⟩ := run_replace_of_losesLink hs hlost
      obtain ⟨q, tree, u, hu, hq, hreplaces, hlogged, -⟩ | ⟨cause, u, hu, -⟩ := hall
      · rw [hv] at hu
        cases hu
        obtain ⟨link, hlink⟩ := hdisplaces.link
        obtain ⟨c, hc⟩ := hdisplaces.file
        -- the file that was to be replaced is not the link
        have hne : p ≠ q := by
          rintro rfl
          obtain ⟨d, hd⟩ := hq.node?
          rw [hlink] at hd
          cases hd
        have hsame := (hlogged.node? p).trans (hreplaces.nodes p (Or.inr hne))
        rw [hc, hlink] at hsame
        cases hsame
      · rw [hv] at hu
        cases hu
    · intro hcode
      obtain ⟨cause, v, hv⟩ := (run_replace_unencodable_iff data).2 hcode
      obtain ⟨_, _, u, hu, -⟩ | ⟨_, u, hu, -⟩ := hall
      · rw [hv] at hu
        cases hu
      · rw [hv] at hu
        cases hu
  · rintro ⟨hlink, hcode⟩
    obtain hends | hlost := run_replace_cases hs hfile data
    swap
    · exact absurd hlost hlink
    obtain ⟨p, u, hv, hk, hkeep, hp⟩ | ⟨e, v, hv, hk, he⟩ := hends
    · obtain ⟨c, hn⟩ := hp.node?
      have hnu : u.tree.node? p = some (.file c) := (hk.tree.node? p).trans hn
      have hbytes : (u.tree.rewritten w.mishaps.noTemporary p data).bytesAt? p = some data := by
        rw [FileTree.bytesAt?_rewritten (hk.tree.sound hs) _ data hnu,
          FileTree.sharesFile_self, if_pos rfl]
      refine Or.inl ⟨p, _, _, hv, hp, FileTree.replaces_rewritten hs _ data hn, ?_, hbytes⟩
      cases ht : w.mishaps.noTemporary with
      | true => exact hk.tree.rewritten p data
      | false =>
        rw [hkeep ht]
        exact .refl ..
    · obtain ⟨cause, rfl⟩ | ⟨-, cause, rfl⟩ := he.of_letters hnull
      · exact Or.inr ⟨cause, v, hv, hk.tree⟩
      · exact absurd ((run_replace_unencodable_iff data).1 ⟨cause, v, hv⟩) hcode

/-- The sample file is overwritten in place where no temporary file can be created. And a link to a
directory is lost to a file where the path runs into a circle of links before. -/
theorem replace_all_or_nothing_iff_linked :
    AllOrNothing (.new (.sample []) Journal.defaultThreshold [] { noTemporary := true })
      "/A.swift" [33] ∧
      ¬AllOrNothing .linked "/loop/../dl" [33] := by
  constructor
  · let w : World := .new (.sample []) Journal.defaultThreshold [] { noTemporary := true }
    have hreal : w.tree.realPath "/A.swift" = .ok (.ofPlace ["A.swift"]) := by decide +kernel
    have hfile : w.tree.IsRealFile "/A.swift" ["A.swift"] :=
      FileTree.isRealFile_of_lookUp hreal (c := 0) (by decide +kernel)
    have hcheck : (w.tree.realPath "/A.swift" >>= fun target =>
        FileTree.checkPath (writtenFirst w target)) = .ok () := by decide +kernel
    refine (replace_all_or_nothing_iff (FileTree.sound_sample []) (by decide)
      (fun _ => ⟨_, hfile⟩) [33]).2 ⟨fun hlost => ?_, ?_⟩
    · cases hlost.temporary
    · rintro ⟨-, cause, herror⟩
      rw [hcheck] at herror
      cases herror
  · intro hall
    have hreal : World.linked.tree.realPath "/loop/../dl" = .ok ⟨"/", (["dl"] : List Text)⟩ := by
      decide +kernel
    have hroom :
        (World.linked.tree.createTemporary ⟨"/", (["dl"] : List Text)⟩ [33]).isOk = true := by
      decide +kernel
    obtain ⟨hlink, -⟩ :=
      (replace_all_or_nothing_iff World.sound_linked (by decide) (fun h => by cases h) [33]).1 hall
    cases hc : World.linked.tree.createTemporary ⟨"/", (["dl"] : List Text)⟩ [33] with
    | error e =>
      rw [hc] at hroom
      cases hroom
    | ok created =>
      exact hlink ⟨rfl, rfl, rfl, _, ["dl"], "d", (["d"], .directory), created,
        hreal, by decide +kernel, by decide +kernel, hc⟩

end Files

end ImportRepair
