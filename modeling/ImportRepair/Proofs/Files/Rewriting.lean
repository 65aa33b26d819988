import ImportRepair.Files.Replace
import ImportRepair.Proofs.Files.Opened

/-!
# Files that are given new bytes

A file is given new bytes in place, where all its names show them, or as a new content for one of
its places. Either way the shape of the tree stays, and every other file keeps its bytes. What keeps
a file from being replaced depends on the shape of the tree alone.

Results:
* `sameShape_rewritten`: the shape of the tree stays.
* `bytesAt?_rewritten`, `modeAt?_rewritten`: which places show the new bytes, and that
  no permission bits change.
* `createTemporary_ofPlace`, `commit_ofPlace`: what the steps of a replacement do.
-/

namespace ImportRepair

namespace FileTree

variable {tree : FileTree}

/-! ## New bytes -/

/-- The tree with new bytes for the file at a place: in its content, or as a new content that takes
over the permission bits. -/
def rewritten (inPlace : Bool) (p : Place) (data : List UInt8) (tree : FileTree) : FileTree :=
  match tree.node? p with
  | some (.file c) =>
    if inPlace then tree.modifyContent c fun content => { content with bytes := data }
    else
      let mode := ((tree.content? c).map (·.mode)).getD defaultMode
      (tree.addContent ⟨data, mode⟩).2.put p (.file tree.contents.length)
  | _ => tree

/-- Whether new bytes for the file at a place show at another place too. -/
def sharesFile (tree : FileTree) (inPlace : Bool) (p q : Place) : Bool :=
  if inPlace then tree.node? q = tree.node? p else q = p

theorem node?_congr {a b : FileTree} (h : a.nodes = b.nodes) (q : Place) :
    a.node? q = b.node? q := by
  rw [node?, node?, h]

theorem ne_nil_of_node?_file {p : Place} {c : Nat} (h : tree.node? p = some (.file c)) :
    p ≠ [] := by
  rintro rfl
  rw [node?, if_pos rfl] at h
  cases h

theorem node?_rewritten {inPlace : Bool} {p : Place} {c : Nat} (data : List UInt8)
    (h : tree.node? p = some (.file c)) (q : Place) :
    (tree.rewritten inPlace p data).node? q =
      if inPlace = false ∧ q = p then some (.file tree.contents.length) else tree.node? q := by
  rw [rewritten, h]
  cases inPlace with
  | true =>
    rw [if_neg (by simp)]
    rfl
  | false =>
    simp only [Bool.false_eq_true, if_false, true_and]
    rw [node?_put (ne_nil_of_node?_file h)]
    rfl

theorem sameShape_rewritten (inPlace : Bool) {p : Place} {c : Nat} (data : List UInt8)
    (h : tree.node? p = some (.file c)) : SameShape tree (tree.rewritten inPlace p data) where
  working := by
    rw [rewritten, h]
    cases inPlace <;> rfl
  node? q := by
    rw [node?_rewritten data h]
    split
    · next hq =>
      rw [hq.2, h]
      rfl
    · rfl

theorem length_contents_le_rewritten (inPlace : Bool) (p : Place) (data : List UInt8) :
    tree.contents.length ≤ (tree.rewritten inPlace p data).contents.length := by
  unfold rewritten
  split
  · split
    · simp [modifyContent]
    · simp [put, addContent]
  · exact Nat.le_refl _

theorem sound_rewritten (hs : tree.Sound) {inPlace : Bool} {p : Place} {c : Nat} (data : List UInt8)
    (h : tree.node? p = some (.file c)) : (tree.rewritten inPlace p data).Sound := by
  have hshape := sameShape_rewritten inPlace data h
  refine ⟨?_, hshape.hasCleanLinks hs.links, ?_⟩
  · rw [← hshape.working]
    exact hshape.solid hs.working
  · intro q d hq
    rw [node?_rewritten data h] at hq
    split at hq
    · next hc =>
      cases hq
      rw [rewritten, h]
      simp only [hc.1, Bool.false_eq_true, if_false]
      simp [put, addContent]
    · exact Nat.lt_of_lt_of_le (hs.contents q d hq) (length_contents_le_rewritten ..)

/-- Which places show the new bytes. -/
theorem bytesAt?_rewritten (hs : tree.Sound) (inPlace : Bool) {p : Place} {c : Nat}
    (data : List UInt8) (h : tree.node? p = some (.file c)) (q : Place) :
    (tree.rewritten inPlace p data).bytesAt? q =
      if tree.sharesFile inPlace p q then some data else tree.bytesAt? q := by
  have hlt := hs.contents p c h
  rw [bytesAt?, node?_rewritten data h, sharesFile]
  cases inPlace with
  | true =>
    simp only [Bool.true_eq_false, false_and, if_false, if_true, decide_eq_true_eq]
    have hcontents : (tree.rewritten true p data).contents =
        tree.contents.modify c fun content => { content with bytes := data } := by
      rw [rewritten, h]
      rfl
    rw [bytesAt?]
    cases hq : tree.node? q with
    | none => rw [h, if_neg (by simp)]
    | some n =>
      cases n with
      | directory => rw [h, if_neg (by simp)]
      | link target => rw [h, if_neg (by simp)]
      | file d =>
        rw [h]
        simp only [Option.some.injEq, Node.file.injEq]
        rw [content?, hcontents, List.getElem?_modify]
        by_cases hd : d = c
        · subst hd
          rw [if_pos rfl, List.getElem?_eq_getElem hlt]
          simp
        · rw [if_neg hd, content?]
          simp [Ne.symm hd]
  | false =>
    have hcontents : (tree.rewritten false p data).contents =
        tree.contents ++ [⟨data, ((tree.content? c).map (·.mode)).getD defaultMode⟩] := by
      rw [rewritten, h]
      rfl
    simp only [true_and, Bool.false_eq_true, if_false, decide_eq_true_eq]
    by_cases hq : q = p
    · rw [if_pos hq, if_pos hq]
      simp [content?, hcontents]
    · rw [if_neg hq, if_neg hq, bytesAt?]
      cases hn : tree.node? q with
      | none => rfl
      | some n =>
        cases n with
        | directory => rfl
        | link target => rfl
        | file d =>
          simp only
          rw [content?, content?, hcontents, List.getElem?_append_left (hs.contents q d hn)]

/-- The permission bits of the file at a place. -/
def modeAt? (tree : FileTree) (p : Place) : Option Nat :=
  match tree.node? p with
  | some (.file c) => (tree.content? c).map (·.mode)
  | _ => none

theorem modeAt?_of_node? {p : Place} {c : Nat} (h : tree.node? p = some (.file c)) :
    tree.modeAt? p = (tree.content? c).map (·.mode) := by
  rw [modeAt?, h]

/-- New bytes come with the old permission bits. -/
theorem modeAt?_rewritten (hs : tree.Sound) (inPlace : Bool) {p : Place} {c : Nat}
    (data : List UInt8) (h : tree.node? p = some (.file c)) (q : Place) :
    (tree.rewritten inPlace p data).modeAt? q = tree.modeAt? q := by
  have hnode : (tree.rewritten inPlace p data).node? q =
      if inPlace = false ∧ q = p then some (.file tree.contents.length) else tree.node? q :=
    node?_rewritten data h q
  cases inPlace with
  | true =>
    rw [if_neg (by simp)] at hnode
    have hcontents : (tree.rewritten true p data).contents =
        tree.contents.modify c fun content => { content with bytes := data } := by
      rw [rewritten, h]
      rfl
    rw [modeAt?, modeAt?, hnode]
    cases tree.node? q with
    | none => rfl
    | some n =>
      cases n with
      | directory => rfl
      | link target => rfl
      | file d =>
        simp only [content?, hcontents, List.getElem?_modify]
        cases tree.contents[d]? with
        | none => rfl
        | some content =>
          show some _ = some content.mode
          split <;> rfl
  | false =>
    have hcontents : (tree.rewritten false p data).contents =
        tree.contents ++ [⟨data, ((tree.content? c).map (·.mode)).getD defaultMode⟩] := by
      rw [rewritten, h]
      rfl
    by_cases hq : q = p
    · subst hq
      rw [if_pos ⟨rfl, rfl⟩] at hnode
      obtain ⟨content, hc⟩ : ∃ content, tree.content? c = some content :=
        ⟨_, List.getElem?_eq_getElem (hs.contents q c h)⟩
      rw [modeAt?_of_node? hnode, modeAt?_of_node? h, content?, hcontents,
        List.getElem?_concat_length, hc]
      rfl
    · rw [if_neg fun hc => hq hc.2] at hnode
      rw [modeAt?, modeAt?, hnode]
      cases hn : tree.node? q with
      | none => rfl
      | some n =>
        cases n with
        | directory => rfl
        | link target => rfl
        | file d =>
          simp only
          rw [content?, content?, hcontents, List.getElem?_append_left (hs.contents q d hn)]

/-- Places go on sharing files as they did. -/
theorem sharesFile_rewritten {inPlace : Bool} {p : Place} {c : Nat} (data : List UInt8)
    (h : tree.node? p = some (.file c)) (x y : Place) :
    (tree.rewritten inPlace p data).sharesFile inPlace x y = tree.sharesFile inPlace x y := by
  cases inPlace with
  | true =>
    rw [sharesFile, sharesFile, node?_rewritten data h, node?_rewritten data h]
    simp
  | false => rfl

theorem sharesFile_self (inPlace : Bool) (p : Place) : tree.sharesFile inPlace p p = true := by
  rw [sharesFile]
  split <;> simp

/-! ## What keeps a file from being replaced -/

/-- What keeps the file at a place, given by a path, from being replaced. -/
def obstacle? (tree : FileTree) (mishaps : Mishaps) (path : Text) (p : Place) : Option OsError :=
  let target := PlainPath.ofPlace p
  match mishaps.irreplaceable.lookup path with
  | some reason => some (.device reason)
  | none =>
    if mishaps.noTemporary then
      if Path.maxPath ≤ Path.byteLength target.display then
        some (.onPath .nameTooLong target.display)
      else none
    else if Path.maxName < Path.byteLength (Temporary.shownName target.name) ∨
        Path.maxPath ≤ Path.byteLength (shownTemporary target) then
      some (.onPath .nameTooLong (shownTemporary target))
    else if (Temporary.freeName? tree p.tail target.name).isNone then some .noFreeName
    else mishaps.renameFault.map .device

theorem SameShape.freeName? {a b : FileTree} (h : SameShape a b) (d : Place) (name : Text) :
    Temporary.freeName? a d name = Temporary.freeName? b d name := by
  rw [Temporary.freeName?, Temporary.freeName?]
  congr 1
  funext candidate
  exact h.isNone _

theorem SameShape.obstacle? {a b : FileTree} (h : SameShape a b) (mishaps : Mishaps) (path : Text)
    (p : Place) : a.obstacle? mishaps path p = b.obstacle? mishaps path p := by
  rw [FileTree.obstacle?, FileTree.obstacle?, h.freeName?]

/-! ## The steps of a replacement -/

/-- A free name is free. -/
theorem lookup_of_freeName? {d : Place} {name free : Text}
    (h : Temporary.freeName? tree d name = some free) : tree.nodes.lookup (free :: d) = none := by
  have hfree := List.find?_some h
  rw [node?, if_neg (List.cons_ne_nil _ _), Option.isNone_iff_eq_none] at hfree
  exact hfree

/-- Discarding what is not there changes nothing. -/
theorem discard_absent {p : Place} (h : tree.nodes.lookup p = none) :
    tree.discard p tree.contents.length = tree := by
  rw [discard, remove, filter_of_lookup_eq_none h, List.take_length]

theorem isClean_shownName {name : Text} (h : Path.IsClean name) :
    Path.IsClean (Temporary.shownName name) := by
  intro c hc
  rw [Temporary.shownName, Temporary.name] at hc
  simp only [List.mem_append] at hc
  obtain (((hc | hc) | hc) | hc) | hc := hc
  · exact (by decide : Path.IsClean ".") c hc
  · exact h c hc
  · exact (by decide : Path.IsClean ".") c hc
  · exact (by decide : Path.IsClean (Temporary.tag 0)) c hc
  · exact (by decide : Path.IsClean ".tmp") c hc

theorem byteLength_le_shownName (name : Text) :
    Path.byteLength name ≤ Path.byteLength (Temporary.shownName name) := by
  rw [Temporary.shownName, Temporary.name]
  simp only [Path.byteLength_append]
  omega

theorem shownTemporary_ofPlace (name : Text) (d : Place) :
    shownTemporary (.ofPlace (name :: d)) =
      (PlainPath.ofPlace (Temporary.shownName name :: d)).display := by
  rw [shownTemporary, PlainPath.parent_ofPlace, PlainPath.name_ofPlace, PlainPath.child_ofPlace]

theorem Solid.mono {other : FileTree} {d : Place} (h : tree.Solid d)
    (ho : ∀ q, tree.node? q = some .directory → other.node? q = some .directory) :
    other.Solid d := by
  induction d with
  | nil => trivial
  | cons name d ih => exact ⟨h.1, ho _ h.2.1, ih h.2.2⟩

/-- The path of a place leads from the root to the place. -/
theorem follows_display {p : Place} {n : Node} (hslash : ∀ name ∈ p, Path.slash ∉ name)
    (h : Follows tree 0 [] p.reverse p n) :
    Follows tree 0 (tree.start (PlainPath.ofPlace p).display)
      (Path.names (PlainPath.ofPlace p).display) p n := by
  rw [start, Place.startOf, PlainPath.isAbsolute_display_ofPlace, if_pos rfl]
  by_cases hp : p = []
  · subst hp
    have hnames : Path.names (PlainPath.ofPlace []).display = [[], []] := by decide
    rw [hnames]
    exact .idle Path.isIdle_nil (.idle Path.isIdle_nil h)
  · rw [PlainPath.names_display_ofPlace hp hslash]
    exact .idle Path.isIdle_nil h

theorem locate_display {p : Place} {n : Node} (followLast : Bool)
    (hslash : ∀ name ∈ p, Path.slash ∉ name)
    (hlen : Path.byteLength (PlainPath.ofPlace p).display < Path.maxPath)
    (h : Follows tree 0 [] p.reverse p n) :
    tree.locate followLast (PlainPath.ofPlace p).display = .ok (.node p n) := by
  rw [locate, if_neg (PlainPath.display_ofPlace_ne_nil p), if_neg (by omega)]
  exact (follows_display hslash h).walk followLast maxLinks

theorem locate_long {path : Text} (followLast : Bool) (hne : path ≠ [])
    (h : Path.maxPath ≤ Path.byteLength path) :
    tree.locate followLast path = .error .nameTooLong := by
  rw [locate, if_neg hne, if_pos h]

theorem Settled.follows {p : Place} {c : Nat} (hp : tree.Settled p)
    (hn : tree.node? p = some (.file c)) : Follows tree 0 [] p.reverse p (.file c) := by
  obtain ⟨name, d, rfl, hname, hd⟩ := hp
  rw [List.reverse_cons]
  have hs : IsStep name := ⟨hname.notIdle, hname.notAbove, hname.short⟩
  exact hd.follows.append (.file hs hn)

theorem Settled.isName {p : Place} (hp : tree.Settled p) : ∀ name ∈ p, Path.IsName name := by
  obtain ⟨name, d, rfl, hname, hd⟩ := hp
  rw [List.forall_mem_cons]
  exact ⟨hname, hd.isName⟩

theorem locate_settled {p : Place} {c : Nat} (followLast : Bool) (hp : tree.Settled p)
    (hn : tree.node? p = some (.file c))
    (hlen : Path.byteLength (PlainPath.ofPlace p).display < Path.maxPath) :
    tree.locate followLast (PlainPath.ofPlace p).display = .ok (.node p (.file c)) :=
  locate_display followLast (fun name hname => (hp.isName name hname).noSlash) hlen (hp.follows hn)

/-- Opening a file by the path of its place, for writing. -/
theorem openForWriting_ofPlace {p : Place} {c : Nat} (hp : tree.Settled p)
    (hn : tree.node? p = some (.file c)) :
    tree.openForWriting (PlainPath.ofPlace p).display =
      if Path.maxPath ≤ Path.byteLength (PlainPath.ofPlace p).display then
        .error (.system (.onPath .nameTooLong (PlainPath.ofPlace p).display))
      else .ok (c, tree) := by
  have hclean : checkPath (PlainPath.ofPlace p).display = .ok () :=
    checkPath_eq_ok_iff.2
      (PlainPath.isClean_display_ofPlace fun name hname => (hp.isName name hname).clean)
  rw [openForWriting, hclean]
  by_cases hlen : Path.maxPath ≤ Path.byteLength (PlainPath.ofPlace p).display
  · rw [locate_long true (PlainPath.display_ofPlace_ne_nil p) hlen, if_pos hlen]
    rfl
  · rw [locate_settled true hp hn (by omega), if_neg hlen]
    rfl

/-- A path is opened for writing, unless it is none or the system refuses. -/
theorem error_of_openForWriting {path : Text} {e : FileError}
    (h : tree.openForWriting path = .error e) :
    (∃ cause, e = .system cause) ∨ checkPath path = .error e := by
  unfold openForWriting at h
  cases hcheck : checkPath path with
  | error e' =>
    simp only [hcheck] at h
    cases h
    exact Or.inr rfl
  | ok u =>
    left
    simp only [hcheck, bind, Except.bind] at h
    split at h <;> cases h
    · exact ⟨_, rfl⟩
    · exact ⟨_, rfl⟩

/-- Creating a temporary file beside a file. -/
theorem createTemporary_ofPlace {name : Text} (hname : Path.IsClean name) {d : Place}
    (hd : tree.Solid d) (data : List UInt8) :
    tree.createTemporary (.ofPlace (name :: d)) data =
      if Path.maxName < Path.byteLength (Temporary.shownName name) ∨
          Path.maxPath ≤ Path.byteLength (shownTemporary (.ofPlace (name :: d))) then
        .error (.system (.onPath .nameTooLong (shownTemporary (.ofPlace (name :: d)))))
      else
        match Temporary.freeName? tree d name with
        | none => .error (.system .noFreeName)
        | some free =>
          .ok (free :: d, tree.contents.length, (tree.addTemporary (free :: d) data).2) := by
  have hclean : checkPath (shownTemporary (.ofPlace (name :: d))) = .ok () := by
    rw [checkPath_eq_ok_iff, shownTemporary_ofPlace]
    refine PlainPath.isClean_display_ofPlace ?_
    rw [List.forall_mem_cons]
    exact ⟨isClean_shownName hname, fun other hother => (hd.isName other hother).clean⟩
  rw [createTemporary]
  simp only [hclean, PlainPath.parent_ofPlace, PlainPath.name_ofPlace]
  by_cases hlong : Path.maxPath ≤ Path.byteLength (shownTemporary (.ofPlace (name :: d)))
  · rw [if_pos (Or.inr hlong), if_pos hlong]
    rfl
  · have hle := PlainPath.byteLength_display_le (Temporary.shownName name) d
    rw [← shownTemporary_ofPlace] at hle
    rw [locate_display true (fun other hother => (hd.isName other hother).noSlash)
      (by omega) hd.follows]
    simp only [hlong, or_false, if_false, bind, Except.bind]
    cases Temporary.freeName? tree d name <;> simp only [addTemporary, addContent]

/-- A temporary file that is created has a free name. -/
theorem eq_addTemporary_of_createTemporary {target : PlainPath} {data : List UInt8}
    {temporary : Place} {content : Nat} {tree' : FileTree}
    (h : tree.createTemporary target data = .ok (temporary, content, tree')) :
    tree.nodes.lookup temporary = none ∧ content = tree.contents.length ∧
      tree' = (tree.addTemporary temporary data).2 := by
  unfold createTemporary at h
  cases hcheck : checkPath (shownTemporary target) with
  | error e =>
    simp only [hcheck] at h
    cases h
  | ok u =>
    simp only [hcheck, bind, Except.bind] at h
    split at h
    · cases h
    split at h
    · cases h
    · cases h
    · split at h
      · cases h
      · split at h
        · cases h
        · next hfree =>
          cases h
          exact ⟨lookup_of_freeName? hfree, rfl, rfl⟩
    · cases h

/-- The tree with a temporary file and without it again has one content more. -/
theorem remove_addTemporary {p : Place} (h : tree.nodes.lookup p = none) (data : List UInt8) :
    (tree.addTemporary p data).2.remove p = (tree.addContent ⟨data, 0o600⟩).2 := by
  have hnodes := filter_of_lookup_eq_none h
  simp only [addTemporary, addContent, put, remove]
  rw [List.filter_cons_of_neg (by simp), hnodes, hnodes]

theorem sameNodes_addContent (content : Content) : SameNodes tree (tree.addContent content).2 :=
  ⟨rfl, fun _ => rfl⟩

theorem modify_concat {α : Type _} (f : α → α) (l : List α) (a : α) :
    (l ++ [a]).modify l.length f = l ++ [f a] := by
  induction l with
  | nil => rfl
  | cons b l ih => exact congrArg (b :: ·) ih

/-- Renaming a temporary file to what leads to a file and is no link gives the file new bytes. -/
theorem commit_addTemporary (mishaps : Mishaps) (hs : tree.Sound) {temporary p : Place} {c : Nat}
    {target : PlainPath} (hfree : tree.nodes.lookup temporary = none)
    (hlook : tree.lookUp target.display = .ok (p, .file c))
    (hlocate : tree.locate false target.display = .ok (.node p (.file c))) (data : List UInt8) :
    (tree.addTemporary temporary data).2.commit mishaps temporary tree.contents.length target =
      match mishaps.renameFault with
      | some reason => .error (.device reason)
      | none => .ok (tree.rewritten false p data) := by
  have hn : tree.node? p = some (.file c) := by
    obtain ⟨_, _, _, _, hf⟩ := follows_of_lookUp hlook
    exact hf.node?_file
  have hsame := @sameNodes_addContent tree ⟨data, 0o600⟩
  have hmode : (tree.addContent ⟨data, 0o600⟩).2.modeOf (.file c) =
      ((tree.content? c).map (·.mode)).getD defaultMode := by
    rw [modeOf, content?, content?, addContent, List.getElem?_append_left (hs.contents p c hn)]
  rw [commit]
  simp only [remove_addTemporary hfree, hsame.lookUp, hsame.locate, hlook, hlocate, hmode]
  cases mishaps.renameFault with
  | some reason => rfl
  | none =>
    simp only
    rw [rewritten, hn]
    simp only [Bool.false_eq_true, if_false]
    congr 1
    simp only [addContent, put, modifyContent, modify_concat]

/-- Renaming a temporary file to a file gives the file new bytes. -/
theorem commit_ofPlace (mishaps : Mishaps) (hs : tree.Sound) {name free : Text} {d : Place}
    {c : Nat} (hp : tree.Settled (name :: d)) (hn : tree.node? (name :: d) = some (.file c))
    (hfree : tree.nodes.lookup (free :: d) = none)
    (hlen : Path.byteLength (shownTemporary (.ofPlace (name :: d))) < Path.maxPath)
    (data : List UInt8) :
    (tree.addTemporary (free :: d) data).2.commit mishaps (free :: d) tree.contents.length
        (.ofPlace (name :: d)) =
      match mishaps.renameFault with
      | some reason => .error (.device reason)
      | none => .ok (tree.rewritten false (name :: d) data) := by
  have hshort : Path.byteLength (PlainPath.ofPlace (name :: d)).display < Path.maxPath := by
    rw [shownTemporary_ofPlace] at hlen
    exact Nat.lt_of_le_of_lt
      (PlainPath.byteLength_display_mono d (byteLength_le_shownName name)) hlen
  have hlocate (followLast : Bool) := locate_settled followLast hp hn hshort
  refine commit_addTemporary mishaps hs hfree ?_ (hlocate false) data
  rw [lookUp, hlocate true]

end FileTree

end ImportRepair
