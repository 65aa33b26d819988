import ImportRepair.Proofs.Files.Following

/-!
# The shape of a tree

Two trees have the same shape if the same directories, files and links stand at the same
places, whatever the files hold. Where paths lead, and whether they can be opened,
depends on the shape alone.

Results:
* `SameShape.lookUp`: paths lead to the same places.
* `SameNodes.lookUp`: they lead to the same files, if the same ones stand there.
* `SameShape.isOpenableFile`: the same paths can be opened.
-/

namespace ImportRepair

/-- A node without the number of its content. -/
def Node.bare : Node → Node
  | .file _ => .file 0
  | node => node

namespace FileTree

/-- The same kinds of nodes stand at the same places. -/
structure SameShape (a b : FileTree) : Prop where
  working : a.working = b.working
  node? : ∀ p, (a.node? p).map Node.bare = (b.node? p).map Node.bare

theorem SameShape.refl (a : FileTree) : SameShape a a := ⟨rfl, fun _ => rfl⟩

theorem SameShape.symm {a b : FileTree} (h : SameShape a b) : SameShape b a :=
  ⟨h.working.symm, fun p => (h.node? p).symm⟩

theorem SameShape.trans {a b c : FileTree} (h : SameShape a b) (h' : SameShape b c) :
    SameShape a c :=
  ⟨h.working.trans h'.working, fun p => (h.node? p).trans (h'.node? p)⟩

/-- What stands at one place of two trees of the same shape. -/
inductive SameNode : Option Node → Option Node → Prop
  | none : SameNode none none
  | directory : SameNode (some .directory) (some .directory)
  | file (c c' : Nat) : SameNode (some (.file c)) (some (.file c'))
  | link (target : Text) : SameNode (some (.link target)) (some (.link target))

theorem sameNode_of_bare {x y : Option Node} (h : x.map Node.bare = y.map Node.bare) :
    SameNode x y := by
  rcases x with _ | (_ | _ | _) <;> rcases y with _ | (_ | _ | _) <;>
    simp only [Option.map_some, Option.map_none, Node.bare, reduceCtorEq, Option.some.injEq,
      Node.link.injEq] at h
  · exact .none
  · exact .directory
  · exact .file ..
  · subst h
    exact .link _

theorem SameShape.sameNode {a b : FileTree} (h : SameShape a b) (p : Place) :
    SameNode (a.node? p) (b.node? p) :=
  sameNode_of_bare (h.node? p)

theorem SameShape.directory {a b : FileTree} (h : SameShape a b) {p : Place}
    (hp : a.node? p = some .directory) : b.node? p = some .directory := by
  have hs := h.sameNode p
  rw [hp] at hs
  generalize b.node? p = y at hs
  cases hs
  rfl

theorem SameShape.link {a b : FileTree} (h : SameShape a b) {p : Place} {target : Text}
    (hp : a.node? p = some (.link target)) : b.node? p = some (.link target) := by
  have hs := h.sameNode p
  rw [hp] at hs
  generalize b.node? p = y at hs
  cases hs
  rfl

theorem SameShape.file {a b : FileTree} (h : SameShape a b) {p : Place} {c : Nat}
    (hp : a.node? p = some (.file c)) : ∃ c', b.node? p = some (.file c') := by
  have hs := h.sameNode p
  rw [hp] at hs
  generalize b.node? p = y at hs
  cases hs
  exact ⟨_, rfl⟩

theorem SameShape.isNone {a b : FileTree} (h : SameShape a b) (p : Place) :
    (a.node? p).isNone = (b.node? p).isNone := by
  have hs := h.sameNode p
  generalize a.node? p = x at hs
  generalize b.node? p = y at hs
  cases hs <;> rfl

/-! ## Where paths lead -/

/-- What was found, without the number of its content. -/
def Found.bare : Found → Found
  | .node p n => .node p n.bare
  | .free d name => .free d name

/-- A stretch without the number of a content. -/
def Stretch.bare : Stretch → Stretch
  | .finished result => .finished (result.map Found.bare)
  | .link base target rest => .link base target rest

theorem SameShape.stretch {a b : FileTree} (h : SameShape a b) (followLast : Bool) (d : Place)
    (names : List Text) :
    (a.stretch followLast d names).bare = (b.stretch followLast d names).bare := by
  induction names generalizing d with
  | nil => rfl
  | cons name rest ih =>
    rw [FileTree.stretch, FileTree.stretch]
    split
    · exact ih d
    split
    · exact ih d.tail
    split
    · rfl
    have hs := h.sameNode (name :: d)
    generalize a.node? (name :: d) = x at hs
    generalize b.node? (name :: d) = y at hs
    cases hs with
    | none => rfl
    | directory => exact ih (name :: d)
    | file c c' =>
      simp only
      split <;> rfl
    | link target => rfl

theorem SameShape.walk {a b : FileTree} (h : SameShape a b) (followLast : Bool) (links : Nat)
    (d : Place) (names : List Text) :
    (a.walk followLast links d names).map Found.bare =
      (b.walk followLast links d names).map Found.bare := by
  induction links generalizing d names with
  | zero =>
    have hs := h.stretch followLast d names
    rw [FileTree.walk, FileTree.walk]
    cases ha : a.stretch followLast d names <;> cases hb : b.stretch followLast d names <;>
      rw [ha, hb] at hs <;> simp only [Stretch.bare, Stretch.finished.injEq, reduceCtorEq] at hs
    · exact hs
  | succ links ih =>
    have hs := h.stretch followLast d names
    rw [FileTree.walk, FileTree.walk]
    cases ha : a.stretch followLast d names <;> cases hb : b.stretch followLast d names <;>
      rw [ha, hb] at hs <;>
      simp only [Stretch.bare, Stretch.finished.injEq, Stretch.link.injEq, reduceCtorEq] at hs
    · exact hs
    · obtain ⟨rfl, rfl, rfl⟩ := hs
      exact ih _ _

theorem SameShape.start {a b : FileTree} (h : SameShape a b) (path : Text) :
    a.start path = b.start path := by
  rw [FileTree.start, FileTree.start, h.working]

theorem SameShape.locate {a b : FileTree} (h : SameShape a b) (followLast : Bool) (path : Text) :
    (a.locate followLast path).map Found.bare = (b.locate followLast path).map Found.bare := by
  unfold FileTree.locate
  split
  · rfl
  split
  · rfl
  rw [h.start]
  exact h.walk ..

theorem SameShape.lookUp {a b : FileTree} (h : SameShape a b) (path : Text) :
    (a.lookUp path).map (fun found => (found.1, found.2.bare)) =
      (b.lookUp path).map fun found => (found.1, found.2.bare) := by
  have hl := h.locate true path
  unfold FileTree.lookUp
  rcases ha : a.locate true path with _ | (_ | _) <;>
    rcases hb : b.locate true path with _ | (_ | _) <;>
    rw [ha, hb] at hl <;>
    simp only [Except.map, Found.bare, Except.ok.injEq, Except.error.injEq, Found.node.injEq,
      reduceCtorEq] at hl ⊢
  · exact hl
  · rw [hl.1, hl.2]

theorem SameShape.lookUp_file {a b : FileTree} (h : SameShape a b) {path : Text} {p : Place}
    {c : Nat} (ha : a.lookUp path = .ok (p, .file c)) :
    ∃ c', b.lookUp path = .ok (p, .file c') := by
  have hl := h.lookUp path
  rw [ha] at hl
  rcases hb : b.lookUp path with _ | ⟨q, n⟩ <;> rw [hb] at hl <;>
    simp only [Except.map, Except.ok.injEq, Prod.mk.injEq, reduceCtorEq] at hl
  obtain ⟨rfl, hn⟩ := hl
  cases n with
  | file c' => exact ⟨c', rfl⟩
  | directory => cases hn
  | link _ => cases hn

/-! ## The same nodes -/

/-- The same nodes stand at the same places, contents included. -/
structure SameNodes (a b : FileTree) : Prop where
  working : b.working = a.working
  node? : ∀ p, b.node? p = a.node? p

theorem SameNodes.stretch {a b : FileTree} (h : SameNodes a b) (followLast : Bool) (d : Place)
    (names : List Text) : b.stretch followLast d names = a.stretch followLast d names := by
  induction names generalizing d with
  | nil => rfl
  | cons name names ih => simp only [FileTree.stretch, h.node?, ih]

theorem SameNodes.walk {a b : FileTree} (h : SameNodes a b) (followLast : Bool) (links : Nat)
    (d : Place) (names : List Text) :
    b.walk followLast links d names = a.walk followLast links d names := by
  induction links generalizing d names with
  | zero => rw [FileTree.walk, FileTree.walk, h.stretch]
  | succ links ih =>
    rw [FileTree.walk, FileTree.walk, h.stretch]
    simp only [ih]

theorem SameNodes.locate {a b : FileTree} (h : SameNodes a b) (followLast : Bool) (path : Text) :
    b.locate followLast path = a.locate followLast path := by
  simp only [FileTree.locate, FileTree.start, h.working, h.walk]

theorem SameNodes.lookUp {a b : FileTree} (h : SameNodes a b) (path : Text) :
    b.lookUp path = a.lookUp path := by
  simp only [FileTree.lookUp, h.locate]

/-! ## Which paths can be opened -/

theorem SameShape.isFile {a b : FileTree} (h : SameShape a b) (path : Text) :
    a.isFile path = b.isFile path := by
  have hl := h.lookUp (Path.plain path)
  unfold FileTree.isFile
  simp only
  cases checkPath (Path.plain path) with
  | error e => rfl
  | ok u =>
    simp only
    rcases ha : a.lookUp (Path.plain path) with e | ⟨p, n⟩ <;>
      rcases hb : b.lookUp (Path.plain path) with e' | ⟨q, m⟩ <;> rw [ha, hb] at hl <;>
      simp only [Except.map, Except.ok.injEq, Except.error.injEq, Prod.mk.injEq, reduceCtorEq] at hl
    · rw [hl]
    · cases n <;> cases m <;> simp only [Node.bare, reduceCtorEq, and_false] at hl <;> rfl

theorem SameShape.isAccessible {a b : FileTree} (h : SameShape a b) (path : Text) :
    a.isAccessible path = b.isAccessible path := by
  have hl := h.lookUp path
  unfold FileTree.isAccessible
  cases checkPath path with
  | error e => rfl
  | ok u =>
    cases ha : a.lookUp path <;> cases hb : b.lookUp path <;>
      rw [ha, hb] at hl <;> simp only [Except.map, reduceCtorEq] at hl

theorem SameShape.isOpenableFile {a b : FileTree} (h : SameShape a b) (path : Text) :
    a.isOpenableFile path = b.isOpenableFile path := by
  unfold FileTree.isOpenableFile
  rw [h.isFile, h.isAccessible]

/-! ## Chains of directories -/

theorem SameShape.solid {a b : FileTree} (h : SameShape a b) {d : Place} (hd : a.Solid d) :
    b.Solid d := by
  induction d with
  | nil => trivial
  | cons name d ih => exact ⟨hd.1, h.directory hd.2.1, ih hd.2.2⟩

theorem SameShape.settled {a b : FileTree} (h : SameShape a b) {p : Place} (hp : a.Settled p) :
    b.Settled p := by
  obtain ⟨name, d, hd, hname, hsolid⟩ := hp
  exact ⟨name, d, hd, hname, h.solid hsolid⟩

theorem SameShape.hasCleanLinks {a b : FileTree} (h : SameShape a b) (ha : a.HasCleanLinks) :
    b.HasCleanLinks :=
  fun p target hp => ha p target (h.symm.link hp)

end FileTree

end ImportRepair
