import ImportRepair.Proofs.Files.Spelling

/-!
# Following names to what they lead to

A walk through a tree is bounded by a number of links. `Follows` says without a bound where names
lead and how many links are on the way, so that a walk can be taken apart at any name.

Results:
* `walk_eq_ok_iff`: a walk finds what its names lead to, if there are not too many links on the way.
* `Follows.unique`: names lead to one thing only, by one number of links.
* `locate_noFollow`: whether a link at the end is followed matters only if there is one.
* `isThere_of_locate`: what a path is found to lead to is there.
* `Follows.split`: following names one list after the other.
* `Follows.solid`: what names lead to stands in a chain of directories.
-/

namespace ImportRepair.FileTree

variable {tree : FileTree}

/-- A name that has to be looked up. -/
def IsStep (name : Text) : Prop :=
  Path.isIdle name = false ∧ name ≠ Path.above ∧ Path.byteLength name ≤ Path.maxName

/-- Names followed from a directory lead to a node at a place, by the given number of links. -/
inductive Follows (tree : FileTree) : Nat → Place → List Text → Place → Node → Prop
  /-- Without names one stays in the directory. -/
  | here {d} : Follows tree 0 d [] d .directory
  | idle {k d name rest p n} : Path.isIdle name = true → Follows tree k d rest p n →
      Follows tree k d (name :: rest) p n
  | above {k d rest p n} : Follows tree k d.tail rest p n →
      Follows tree k d (Path.above :: rest) p n
  | into {k d name rest p n} : IsStep name → tree.node? (name :: d) = some .directory →
      Follows tree k (name :: d) rest p n → Follows tree k d (name :: rest) p n
  /-- A file is met only at the end. -/
  | file {d name content} : IsStep name → tree.node? (name :: d) = some (.file content) →
      Follows tree 0 d [name] (name :: d) (.file content)
  /-- The target of a link is followed before the rest. -/
  | link {k d name target rest p n} : IsStep name → tree.node? (name :: d) = some (.link target) →
      Follows tree k (Place.startOf target d) (Path.names target ++ rest) p n →
      Follows tree (k + 1) d (name :: rest) p n

/-! ## Walks -/

theorem stretch_idle {d : Place} {name : Text} {rest : List Text} (h : Path.isIdle name = true) :
    tree.stretch true d (name :: rest) = tree.stretch true d rest := by
  rw [stretch, if_pos h]

theorem stretch_above {d : Place} {rest : List Text} :
    tree.stretch true d (Path.above :: rest) = tree.stretch true d.tail rest := by
  rw [stretch, Path.isIdle_above, if_neg (by simp), if_pos rfl]

/-- The effect of a name that has to be looked up on a stretch. -/
theorem stretch_step {d : Place} {name : Text} {rest : List Text} (h : IsStep name) :
    tree.stretch true d (name :: rest) =
      match tree.node? (name :: d) with
      | none => if rest = [] then .finished (.ok (.free d name)) else .finished (.error .missing)
      | some .directory => tree.stretch true (name :: d) rest
      | some (.file content) =>
        if rest = [] then .finished (.ok (.node (name :: d) (.file content)))
        else .finished (.error .notDirectory)
      | some (.link target) => .link d target rest := by
  obtain ⟨hi, ha, hl⟩ := h
  rw [stretch, hi, if_neg (by simp), if_neg ha, if_neg (by omega)]
  cases tree.node? (name :: d) with
  | none => rfl
  | some node => cases node <;> simp

/-- The ways in which a name can be met. -/
theorem name_cases (name : Text) : Path.isIdle name = true ∨ name = Path.above ∨
    (Path.isIdle name = false ∧ name ≠ Path.above ∧ Path.maxName < Path.byteLength name) ∨
    IsStep name := by
  unfold IsStep
  by_cases hi : Path.isIdle name = true
  · exact Or.inl hi
  · by_cases ha : name = Path.above
    · exact Or.inr (Or.inl ha)
    · rw [Bool.not_eq_true] at hi
      by_cases hl : Path.maxName < Path.byteLength name
      · exact Or.inr (Or.inr (Or.inl ⟨hi, ha, hl⟩))
      · exact Or.inr (Or.inr (Or.inr ⟨hi, ha, by omega⟩))

theorem stretch_long {d : Place} {name : Text} {rest : List Text}
    (h : Path.isIdle name = false ∧ name ≠ Path.above ∧ Path.maxName < Path.byteLength name) :
    tree.stretch true d (name :: rest) = .finished (.error .nameTooLong) := by
  rw [stretch, h.1, if_neg (by simp), if_neg h.2.1, if_pos h.2.2]

/-- A stretch that ends with a node follows its names without a link; one that ends with a link
leaves the target and the rest to be followed. -/
theorem follows_of_stretch (d : Place) (names : List Text) :
    (∀ p n, tree.stretch true d names = .finished (.ok (.node p n)) → Follows tree 0 d names p n) ∧
    ∀ base target rest, tree.stretch true d names = .link base target rest →
      ∀ k p n, Follows tree k (Place.startOf target base) (Path.names target ++ rest) p n →
        Follows tree (k + 1) d names p n := by
  induction names generalizing d with
  | nil =>
    refine ⟨fun p n h => ?_, fun base target rest h => ?_⟩
    · cases h
      exact .here
    · cases h
  | cons name rest ih =>
    obtain hi | rfl | hl | hs := name_cases name
    · rw [stretch_idle hi]
      exact ⟨fun p n h => .idle hi ((ih d).1 p n h),
        fun b t r h k p n hf => .idle hi ((ih d).2 b t r h k p n hf)⟩
    · rw [stretch_above]
      exact ⟨fun p n h => .above ((ih d.tail).1 p n h),
        fun b t r h k p n hf => .above ((ih d.tail).2 b t r h k p n hf)⟩
    · rw [stretch_long hl]
      exact ⟨fun p n h => by simp at h, fun b t r h => by simp at h⟩
    · rw [stretch_step hs]
      cases hn : tree.node? (name :: d) with
      | none =>
        simp only
        split
        · exact ⟨fun p n h => by simp at h, fun b t r h => by simp at h⟩
        · exact ⟨fun p n h => by simp at h, fun b t r h => by simp at h⟩
      | some node =>
        cases node with
        | directory =>
          exact ⟨fun p n h => .into hs hn ((ih _).1 p n h),
            fun b t r h k p n hf => .into hs hn ((ih _).2 b t r h k p n hf)⟩
        | file content =>
          simp only
          split
          · next hr =>
            refine ⟨fun p n h => ?_, fun b t r h => by simp at h⟩
            cases h
            subst hr
            exact .file hs hn
          · exact ⟨fun p n h => by simp at h, fun b t r h => by simp at h⟩
        | link target =>
          refine ⟨fun p n h => by simp at h, fun b t r h k p n hf => ?_⟩
          cases h
          exact .link hs hn hf

/-- Names that lead to a node without a link make up one stretch; otherwise a stretch ends with the
first link, and its target and the rest lead to the node by one link less. -/
theorem Follows.stretch {k : Nat} {d p : Place} {names : List Text} {n : Node}
    (h : Follows tree k d names p n) :
    (k = 0 ∧ tree.stretch true d names = .finished (.ok (.node p n))) ∨
    ∃ j base target rest, k = j + 1 ∧ tree.stretch true d names = .link base target rest ∧
      Follows tree j (Place.startOf target base) (Path.names target ++ rest) p n := by
  induction h with
  | here => exact Or.inl ⟨rfl, rfl⟩
  | idle hi _ ih => rwa [stretch_idle hi]
  | above _ ih => rwa [stretch_above]
  | into hs hn _ ih =>
    rw [stretch_step hs, hn]
    exact ih
  | file hs hn =>
    rw [stretch_step hs, hn]
    exact Or.inl ⟨rfl, rfl⟩
  | link hs hn hf _ =>
    rw [stretch_step hs, hn]
    exact Or.inr ⟨_, _, _, _, rfl, rfl, hf⟩

theorem walk_eq_ok_iff {links : Nat} {d p : Place} {names : List Text} {n : Node} :
    tree.walk true links d names = .ok (.node p n) ↔ ∃ k ≤ links, Follows tree k d names p n := by
  induction links generalizing d names with
  | zero =>
    rw [walk]
    constructor
    · intro h
      cases hs : tree.stretch true d names with
      | finished result =>
        rw [hs] at h
        simp only at h
        subst h
        exact ⟨0, le_rfl, (follows_of_stretch d names).1 p n hs⟩
      | link base target rest =>
        rw [hs] at h
        simp at h
    · rintro ⟨k, hk, hf⟩
      obtain ⟨_, hs⟩ | ⟨j, _, _, _, rfl, _, _⟩ := hf.stretch
      · rw [hs]
      · omega
  | succ links ih =>
    rw [walk]
    constructor
    · intro h
      cases hs : tree.stretch true d names with
      | finished result =>
        rw [hs] at h
        simp only at h
        subst h
        exact ⟨0, Nat.zero_le _, (follows_of_stretch d names).1 p n hs⟩
      | link base target rest =>
        rw [hs] at h
        obtain ⟨k, hk, hf⟩ := ih.1 h
        exact ⟨k + 1, by omega, (follows_of_stretch d names).2 _ _ _ hs k p n hf⟩
    · rintro ⟨k, hk, hf⟩
      obtain ⟨_, hs⟩ | ⟨j, base, target, rest, rfl, hs, hj⟩ := hf.stretch
      · rw [hs]
      · rw [hs]
        exact ih.2 ⟨j, by omega, hj⟩

/-- A walk finds what its names lead to, or meets too many links. -/
theorem Follows.walk_or_loop {k : Nat} {d p : Place} {names : List Text} {n : Node}
    (h : Follows tree k d names p n) (links : Nat) :
    tree.walk true links d names = .ok (.node p n) ∨
      tree.walk true links d names = .error .linkLoop := by
  induction links generalizing k d names with
  | zero =>
    rw [walk]
    obtain ⟨_, hs⟩ | ⟨_, _, _, _, _, hs, _⟩ := h.stretch
    · exact Or.inl (by rw [hs])
    · exact Or.inr (by rw [hs])
  | succ links ih =>
    rw [walk]
    obtain ⟨_, hs⟩ | ⟨_, _, _, _, _, hs, hj⟩ := h.stretch
    · exact Or.inl (by rw [hs])
    · rw [hs]
      exact ih hj

theorem Follows.unique {k k' : Nat} {d p p' : Place} {names : List Text} {n n' : Node}
    (h : Follows tree k d names p n) (h' : Follows tree k' d names p' n') :
    k = k' ∧ p = p' ∧ n = n' := by
  induction k generalizing k' d names with
  | zero =>
    obtain ⟨_, hs⟩ | ⟨j, _, _, _, hj, _⟩ := h.stretch
    · obtain ⟨rfl, hs'⟩ | ⟨_, _, _, _, _, hs', _⟩ := h'.stretch
      · rw [hs] at hs'
        cases hs'
        exact ⟨rfl, rfl, rfl⟩
      · rw [hs] at hs'
        cases hs'
    · omega
  | succ k ih =>
    obtain ⟨hk, _⟩ | ⟨j, b, t, r, hj, hs, hf⟩ := h.stretch
    · omega
    · obtain ⟨_, hs'⟩ | ⟨j', b', t', r', rfl, hs', hf'⟩ := h'.stretch
      · rw [hs] at hs'
        cases hs'
      · rw [hs] at hs'
        cases hs'
        cases hj
        obtain ⟨rfl, rfl, rfl⟩ := ih hf hf'
        exact ⟨rfl, rfl, rfl⟩

/-! ## Links at the end -/

/-- A stretch that does not follow a link at its end is the same, unless it ends with that link. -/
theorem stretch_noFollow (d : Place) (names : List Text) :
    tree.stretch false d names = tree.stretch true d names ∨
      ∃ p base target, tree.stretch false d names = .finished (.ok (.node p (.link target))) ∧
        tree.stretch true d names = .link base target [] := by
  induction names generalizing d with
  | nil => exact Or.inl rfl
  | cons name rest ih =>
    rw [FileTree.stretch, FileTree.stretch]
    split
    · exact ih d
    split
    · exact ih d.tail
    split
    · exact Or.inl rfl
    cases tree.node? (name :: d) with
    | none => exact Or.inl rfl
    | some node =>
      cases node with
      | directory => exact ih (name :: d)
      | file content => exact Or.inl rfl
      | link target =>
        by_cases hr : rest = []
        · exact Or.inr ⟨name :: d, d, target, by simp [hr], by simp [hr]⟩
        · exact Or.inl (by simp [hr])

/-- A walk that does not follow a link at its end is the same, unless it ends with that link. -/
theorem walk_noFollow (links : Nat) (d : Place) (names : List Text) :
    tree.walk false links d names = tree.walk true links d names ∨
      ∃ p target, tree.walk false links d names = .ok (.node p (.link target)) := by
  induction links generalizing d names with
  | zero =>
    rw [walk, walk]
    obtain heq | ⟨p, _, target, hlink, _⟩ := tree.stretch_noFollow d names
    · exact Or.inl (by rw [heq])
    · exact Or.inr ⟨p, target, by rw [hlink]⟩
  | succ links ih =>
    rw [walk, walk]
    obtain heq | ⟨p, _, target, hlink, _⟩ := tree.stretch_noFollow d names
    · rw [heq]
      cases tree.stretch true d names with
      | finished result => exact Or.inl rfl
      | link base target rest => exact ih ..
    · exact Or.inr ⟨p, target, by rw [hlink]⟩

theorem locate_noFollow (path : Text) :
    tree.locate false path = tree.locate true path ∨
      ∃ p target, tree.locate false path = .ok (.node p (.link target)) := by
  unfold locate
  split
  · exact Or.inl rfl
  split
  · exact Or.inl rfl
  · exact tree.walk_noFollow ..

/-- Without links on the way, it does not matter whether one at the end is followed. -/
theorem Follows.walk {d p : Place} {names : List Text} {n : Node} (h : Follows tree 0 d names p n)
    (followLast : Bool) (links : Nat) : tree.walk followLast links d names = .ok (.node p n) := by
  obtain ⟨_, hs⟩ | ⟨_, _, _, _, hj, _⟩ := h.stretch
  · have hsame : tree.stretch followLast d names = .finished (.ok (.node p n)) := by
      cases followLast with
      | true => exact hs
      | false =>
        obtain heq | ⟨_, _, _, _, hlink⟩ := tree.stretch_noFollow d names
        · rw [heq, hs]
        · rw [hs] at hlink
          cases hlink
    rw [FileTree.walk, hsame]
  · omega

/-! ## What is found -/

/-- What was found is there. A directory may be the one that the search started from. -/
def IsThere (tree : FileTree) : Found → Prop
  | .free d name => tree.node? (name :: d) = none
  | .node _ .directory => True
  | .node p n => tree.node? p = some n

theorem isThere_of_stretch {followLast : Bool} {d : Place} {names : List Text} {found : Found}
    (h : tree.stretch followLast d names = .finished (.ok found)) : tree.IsThere found := by
  induction names generalizing d with
  | nil =>
    cases h
    trivial
  | cons name rest ih =>
    rw [FileTree.stretch] at h
    split at h
    · exact ih h
    split at h
    · exact ih h
    split at h
    · cases h
    split at h
    · next hnone =>
      split at h <;> cases h
      exact hnone
    · exact ih h
    · next hfile =>
      split at h <;> cases h
      exact hfile
    · next hlink =>
      split at h <;> cases h
      exact hlink

theorem isThere_of_walk {followLast : Bool} {links : Nat} {d : Place} {names : List Text}
    {found : Found} (h : tree.walk followLast links d names = .ok found) : tree.IsThere found := by
  induction links generalizing d names with
  | zero =>
    rw [FileTree.walk] at h
    split at h
    · next hstretch =>
      rw [h] at hstretch
      exact isThere_of_stretch hstretch
    · cases h
  | succ links ih =>
    rw [FileTree.walk] at h
    split at h
    · next hstretch =>
      rw [h] at hstretch
      exact isThere_of_stretch hstretch
    · exact ih h

theorem isThere_of_locate {followLast : Bool} {path : Text} {found : Found}
    (h : tree.locate followLast path = .ok found) : tree.IsThere found := by
  rw [locate] at h
  split at h
  · cases h
  split at h
  · cases h
  exact isThere_of_walk h

/-! ## One list of names after the other -/

theorem Follows.append {j k : Nat} {d q p : Place} {xs ys : List Text} {n : Node}
    (h : Follows tree j d xs q .directory) (hy : Follows tree k q ys p n) :
    Follows tree (j + k) d (xs ++ ys) p n := by
  generalize hm : Node.directory = m at h
  induction h with
  | here => rwa [Nat.zero_add]
  | idle hi _ ih => exact .idle hi (ih hy hm)
  | above _ ih => exact .above (ih hy hm)
  | into hs hn _ ih => exact .into hs hn (ih hy hm)
  | file => cases hm
  | link hs hn _ ih =>
    have hf := ih hy hm
    rw [List.append_assoc] at hf
    rw [Nat.add_right_comm]
    exact .link hs hn hf

/-- What follows some names is followed from the directory that these lead to. -/
theorem Follows.split {k : Nat} {d p : Place} {xs ys : List Text} {n : Node}
    (h : Follows tree k d (xs ++ ys) p n) (hys : ys ≠ []) :
    ∃ i j q, k = i + j ∧ Follows tree i d xs q .directory ∧ Follows tree j q ys p n := by
  generalize hzs : xs ++ ys = zs at h
  induction h generalizing xs with
  | here => exact absurd (List.append_eq_nil_iff.1 hzs).2 hys
  | @idle k d name rest p n hi hf ih =>
    cases xs with
    | nil =>
      exact ⟨0, k, d, by omega, .here, by rw [List.nil_append] at hzs; exact hzs ▸ .idle hi hf⟩
    | cons x xs =>
      cases hzs
      obtain ⟨i, j, q, hk, h1, h2⟩ := ih rfl
      exact ⟨i, j, q, hk, .idle hi h1, h2⟩
  | @above k d rest p n hf ih =>
    cases xs with
    | nil => exact ⟨0, k, d, by omega, .here, by rw [List.nil_append] at hzs; exact hzs ▸ .above hf⟩
    | cons x xs =>
      cases hzs
      obtain ⟨i, j, q, hk, h1, h2⟩ := ih rfl
      exact ⟨i, j, q, hk, .above h1, h2⟩
  | @into k d name rest p n hs hn hf ih =>
    cases xs with
    | nil =>
      exact ⟨0, k, d, by omega, .here, by rw [List.nil_append] at hzs; exact hzs ▸ .into hs hn hf⟩
    | cons x xs =>
      cases hzs
      obtain ⟨i, j, q, hk, h1, h2⟩ := ih rfl
      exact ⟨i, j, q, hk, .into hs hn h1, h2⟩
  | @file d name content hs hn =>
    cases xs with
    | nil => exact ⟨0, 0, d, rfl, .here, by rw [List.nil_append] at hzs; exact hzs ▸ .file hs hn⟩
    | cons x xs =>
      cases xs with
      | nil => exact absurd (List.cons.inj hzs).2 hys
      | cons y xs => simp at hzs
  | @link k d name target rest p n hs hn hf ih =>
    cases xs with
    | nil =>
      exact ⟨0, k + 1, d, by omega,
        .here, by rw [List.nil_append] at hzs; exact hzs ▸ .link hs hn hf⟩
    | cons x xs =>
      cases hzs
      obtain ⟨i, j, q, hk, h1, h2⟩ := ih (List.append_assoc ..)
      exact ⟨i + 1, j, q, by omega, .link hs hn h1, h2⟩

/-! ## Names that stand for nothing -/

/-- A list of names with some names that stand for nothing left out. -/
inductive Pruned : List Text → List Text → Prop
  | nil : Pruned [] []
  | keep {name xs ys} : Pruned xs ys → Pruned (name :: xs) (name :: ys)
  | drop {name xs ys} : Path.isIdle name = true → Pruned xs ys → Pruned xs (name :: ys)

theorem Pruned.append_left (zs : List Text) {xs ys : List Text} (h : Pruned xs ys) :
    Pruned (zs ++ xs) (zs ++ ys) := by
  induction zs with
  | nil => exact h
  | cons z zs ih => exact .keep ih

theorem Pruned.filter (ys : List Text) : Pruned (ys.filter fun name => !Path.isIdle name) ys := by
  induction ys with
  | nil => exact .nil
  | cons y ys ih =>
    by_cases h : Path.isIdle y = true
    · rw [List.filter_cons_of_neg (by simp [h])]
      exact .drop h ih
    · rw [List.filter_cons_of_pos (by simp [h])]
      exact .keep ih

theorem Follows.prune {k : Nat} {d p : Place} {xs ys : List Text} {n : Node}
    (h : Follows tree k d ys p n) (hx : Pruned xs ys) : Follows tree k d xs p n := by
  induction h generalizing xs with
  | here =>
    cases hx
    exact .here
  | idle hi _ ih =>
    cases hx with
    | keep hx => exact .idle hi (ih hx)
    | drop _ hx => exact ih hx
  | above _ ih =>
    cases hx with
    | keep hx => exact .above (ih hx)
    | drop hi _ => exact absurd hi (by decide)
  | into hs hn _ ih =>
    cases hx with
    | keep hx => exact .into hs hn (ih hx)
    | drop hi _ => exact absurd hi (by simp [hs.1])
  | file hs hn =>
    cases hx with
    | keep hx =>
      cases hx
      exact .file hs hn
    | drop hi _ => exact absurd hi (by simp [hs.1])
  | link hs hn _ ih =>
    cases hx with
    | keep hx => exact .link hs hn (ih (hx.append_left _))
    | drop hi _ => exact absurd hi (by simp [hs.1])

/-! ## Places in chains of directories -/

/-- All directories on the way from the root to a place are there, with names that can be
spelled. -/
def Solid (tree : FileTree) : Place → Prop
  | [] => True
  | name :: d => Path.IsName name ∧ tree.node? (name :: d) = some .directory ∧ Solid tree d

theorem Solid.tail {d : Place} (h : tree.Solid d) : tree.Solid d.tail := by
  cases d with
  | nil => trivial
  | cons name d => exact h.2.2

theorem Solid.isName {d : Place} (h : tree.Solid d) : ∀ name ∈ d, Path.IsName name := by
  induction d with
  | nil => simp
  | cons name d ih =>
    rw [List.forall_mem_cons]
    exact ⟨h.1, ih h.2.2⟩

/-- The names of a chain of directories lead to it from the root. -/
theorem Solid.follows {d : Place} (h : tree.Solid d) :
    Follows tree 0 [] d.reverse d .directory := by
  induction d with
  | nil => exact .here
  | cons name d ih =>
    rw [List.reverse_cons]
    have hs : IsStep name := ⟨h.1.notIdle, h.1.notAbove, h.1.short⟩
    exact (ih h.2.2).append (.into hs h.2.1 .here)

/-- A place whose directory is in a chain, and which has a name that can be spelled. -/
def Settled (tree : FileTree) (p : Place) : Prop :=
  ∃ name d, p = name :: d ∧ Path.IsName name ∧ tree.Solid d

/-- The targets of all links can be paths. -/
def HasCleanLinks (tree : FileTree) : Prop :=
  ∀ p target, tree.node? p = some (.link target) → Path.IsClean target

theorem solid_startOf {d : Place} (h : tree.Solid d) (target : Text) :
    tree.Solid (Place.startOf target d) := by
  rw [Place.startOf]
  split
  · trivial
  · exact h

/-- A file that names lead to stands at its place. -/
theorem Follows.node?_file {k : Nat} {d p : Place} {names : List Text} {c : Nat}
    (h : Follows tree k d names p (.file c)) : tree.node? p = some (.file c) := by
  generalize hm : Node.file c = m at h
  induction h with
  | here => cases hm
  | idle _ _ ih => exact ih hm
  | above _ ih => exact ih hm
  | into _ _ _ ih => exact ih hm
  | file _ hn => exact hn
  | link _ _ _ ih => exact ih hm

theorem Follows.solid {k : Nat} {d p : Place} {names : List Text} {n : Node}
    (h : Follows tree k d names p n) (hl : tree.HasCleanLinks) (hd : tree.Solid d)
    (hnames : ∀ name ∈ names, Path.slash ∉ name ∧ Path.IsClean name) :
    (n = .directory ∧ tree.Solid p) ∨
      (∃ content, n = .file content) ∧ tree.node? p = some n ∧ tree.Settled p := by
  induction h with
  | here => exact Or.inl ⟨rfl, hd⟩
  | idle _ _ ih => exact ih hd (List.forall_mem_cons.1 hnames).2
  | above _ ih => exact ih hd.tail (List.forall_mem_cons.1 hnames).2
  | into hs hn _ ih =>
    obtain ⟨hname, hrest⟩ := List.forall_mem_cons.1 hnames
    exact ih ⟨⟨hs.1, hs.2.1, hname.1, hs.2.2, hname.2⟩, hn, hd⟩ hrest
  | file hs hn =>
    obtain ⟨hname, _⟩ := List.forall_mem_cons.1 hnames
    exact Or.inr ⟨⟨_, rfl⟩, hn, _, _, rfl, ⟨hs.1, hs.2.1, hname.1, hs.2.2, hname.2⟩, hd⟩
  | link hs hn _ ih =>
    obtain ⟨_, hrest⟩ := List.forall_mem_cons.1 hnames
    apply ih (solid_startOf hd _)
    intro name hname
    obtain hname | hname := List.mem_append.1 hname
    · exact ⟨Path.noSlash_of_mem_names hname, Path.isClean_of_mem_names (hl _ _ hn) hname⟩
    · exact hrest name hname

end ImportRepair.FileTree
