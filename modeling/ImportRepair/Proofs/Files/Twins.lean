import ImportRepair.Proofs.Keeping

/-!
# Trees that differ in hidden contents

Two trees are twins if they differ at most in what some hidden contents hold, and none of the paths
that matter leads to such a content. What is read from these paths is the same in both, and trees
stay twins if the file at one of the paths is given the same new bytes in both.

Results:
* `Twin.readBytes`: the same is read from both trees.
* `Twin.rewritten`, `Twin.of_logged`: trees stay twins.
* `Descends.rewritten`: hidden contents stay where they are.
-/

namespace ImportRepair

namespace FileTree

section Contents

variable {tree : FileTree}

theorem contentAt_of_opened? (hs : tree.Sound) {path : Text} {p : Place} {c : Nat}
    (h : tree.opened? path = some p) (hn : tree.node? p = some (.file c)) :
    tree.contentAt path = .ok c := by
  obtain ⟨_, d, hd, hl⟩ := settled_of_opened? hs h
  obtain ⟨_, hclean, _⟩ := opened?_eq_some h
  rw [hn] at hd
  cases hd
  rw [contentAt, checkPath_eq_ok_iff.2 hclean, hl]
  rfl

/-- The content of a file that can be opened is one of the tree. -/
theorem contentAt_lt (hs : tree.Sound) {path : Text} {c : Nat}
    (h : tree.isOpenableFile path = .ok true) (hc : tree.contentAt path = .ok c) :
    c < tree.contents.length := by
  obtain ⟨p, hp⟩ := opened?_of_isOpenableFile h
  obtain ⟨_, d, hd, _⟩ := settled_of_opened? hs hp
  rw [contentAt_of_opened? hs hp hd] at hc
  cases hc
  exact hs.contents p _ hd

end Contents

/-- Two trees that differ at most in hidden contents, to which none of the given paths leads. -/
structure Twin (hidden : List Nat) (paths : List Text) (a b : FileTree) : Prop where
  logged : Logged hidden a b
  sound : a.Sound
  old : ∀ c ∈ hidden, c < a.contents.length
  apart : ∀ path ∈ paths, ∀ p c, a.opened? path = some p → a.node? p = some (.file c) → c ∉ hidden

variable {hidden : List Nat} {paths : List Text} {a b : FileTree} {path : Text} {p : Place}

/-- A file that no log is written to keeps its bytes while logs are written. -/
theorem Logged.bytesAt? (h : Logged hidden a b) (hp : ∀ c ∈ hidden, a.node? p ≠ some (.file c)) :
    b.bytesAt? p = a.bytesAt? p := by
  rw [FileTree.bytesAt?, FileTree.bytesAt?, h.node?]
  split
  · next c hc => rw [h.contents c fun hm => hp c hm hc]
  · rfl

/-- New bytes for a file that is not hidden, in both trees. -/
theorem Logged.rewritten_apart (h : Logged hidden a b) (inPlace : Bool) {c : Nat}
    (hn : a.node? p = some (.file c)) (hc : c ∉ hidden) (data : List UInt8) :
    Logged hidden (a.rewritten inPlace p data) (b.rewritten inPlace p data) := by
  cases inPlace with
  | true => exact h.rewritten p data
  | false =>
    have hn' : b.node? p = some (.file c) := (h.node? p).trans hn
    rw [FileTree.rewritten, FileTree.rewritten, hn, hn']
    simp only [Bool.false_eq_true, if_false]
    rw [h.contents c hc, h.length]
    generalize (⟨data, ((a.content? c).map (·.mode)).getD defaultMode⟩ : Content) = content
    refine ⟨h.working, ?_, ?_, ?_⟩
    · show _ :: b.nodes.filter _ = _ :: a.nodes.filter _
      rw [h.nodes]
    · show (b.contents ++ [content]).length = (a.contents ++ [content]).length
      rw [List.length_append, List.length_append, h.length]
    · intro m hm
      have hold : b.contents[m]? = a.contents[m]? := h.contents m hm
      show (b.contents ++ [content])[m]? = (a.contents ++ [content])[m]?
      rw [List.getElem?_append, List.getElem?_append, hold, h.length]

namespace Twin

theorem opened? (h : Twin hidden paths a b) (path : Text) : b.opened? path = a.opened? path :=
  (h.logged.sameShape.opened? path).symm

/-- A path that matters names no hidden content. -/
theorem contentAt_ne (h : Twin hidden paths a b) (hm : path ∈ paths)
    (ho : a.opened? path = some p) : ∀ c ∈ hidden, b.contentAt path ≠ .ok c := by
  intro c hc hpath
  obtain ⟨_, d, hn, _⟩ := settled_of_opened? h.sound ho
  have hn' : b.node? p = some (.file d) := (h.logged.node? p).trans hn
  rw [contentAt_of_opened? (h.logged.sound h.sound) ((h.opened? path).trans ho) hn'] at hpath
  cases hpath
  exact h.apart path hm p _ ho hn hc

/-- Trees stay twins while hidden contents change in either. -/
theorem of_logged {a' b' : FileTree} (h : Twin hidden paths a b) (ha : Logged hidden a a')
    (hb : Logged hidden b b') : Twin hidden paths a' b' := by
  refine ⟨ha.symm.trans (h.logged.trans hb), ha.sound h.sound, fun c hc => ?_, ?_⟩
  · rw [ha.length]
    exact h.old c hc
  · intro path hm p c ho hn
    rw [← ha.sameShape.opened?] at ho
    rw [ha.node?] at hn
    exact h.apart path hm p c ho hn

/-- The files that paths of both trees open hold the same. -/
theorem bytesAt? (h : Twin hidden paths a b) (hm : path ∈ paths) (ho : a.opened? path = some p) :
    b.bytesAt? p = a.bytesAt? p := by
  obtain ⟨_, c, hn, _⟩ := settled_of_opened? h.sound ho
  have hc := h.apart path hm p c ho hn
  rw [bytesAt?_of_node? ((h.logged.node? p).trans hn), bytesAt?_of_node? hn, h.logged.contents c hc]

/-- The same is read from both trees. -/
theorem readBytes (h : Twin hidden paths a b) (hm : path ∈ paths) (ho : a.opened? path = some p) :
    b.readBytes path = a.readBytes path := by
  obtain ⟨bytes, hb, hread⟩ := readBytes_of_opened? h.sound ho
  obtain ⟨bytes', hb', hread'⟩ :=
    readBytes_of_opened? (h.logged.sound h.sound) ((h.opened? path).trans ho)
  rw [h.bytesAt? hm ho, hb] at hb'
  cases hb'
  rw [hread, hread']

/-- Trees stay twins if a file that is not hidden is given the same new bytes in both. -/
theorem rewritten (h : Twin hidden paths a b) (hm : path ∈ paths) (ho : a.opened? path = some p)
    (inPlace : Bool) (data : List UInt8) :
    Twin hidden paths (a.rewritten inPlace p data) (b.rewritten inPlace p data) := by
  obtain ⟨_, c, hn, _⟩ := settled_of_opened? h.sound ho
  have hshape := sameShape_rewritten inPlace data hn
  have hle : a.contents.length ≤ (a.rewritten inPlace p data).contents.length :=
    length_contents_le_rewritten inPlace p data
  refine ⟨h.logged.rewritten_apart inPlace hn (h.apart path hm p c ho hn) data,
    sound_rewritten h.sound data hn, fun d hd => (h.old d hd).trans_le hle, ?_⟩
  intro other hother q d hq hd hhidden
  rw [← hshape.opened?] at hq
  rw [node?_rewritten data hn] at hd
  split at hd
  · -- the number of the new content is not among those that were there before
    cases hd
    exact Nat.lt_irrefl _ (h.old _ hhidden)
  · exact h.apart other hother q d hq hd hhidden

end Twin

/-- A tree of the same shape in which hidden contents stand where they stood. -/
structure Descends (hidden : List Nat) (a b : FileTree) : Prop where
  shape : SameShape a b
  places : ∀ q, ∀ c ∈ hidden, b.node? q = some (.file c) → a.node? q = some (.file c)

theorem Descends.refl (hidden : List Nat) (a : FileTree) : Descends hidden a a :=
  ⟨.refl a, fun _ _ _ h => h⟩

theorem Descends.trans {c : FileTree} (h : Descends hidden a b) (h' : Descends hidden b c) :
    Descends hidden a c :=
  ⟨h.shape.trans h'.shape, fun q m hm hq => h.places q m hm (h'.places q m hm hq)⟩

/-- Hidden contents stay where they are while they change. -/
theorem Descends.of_logged {c : FileTree} (h : Descends hidden a b) (hl : Logged hidden b c) :
    Descends hidden a c :=
  h.trans ⟨hl.sameShape, fun q m _ hq => by rwa [hl.node?] at hq⟩

theorem Descends.opened? (h : Descends hidden a b) (path : Text) :
    b.opened? path = a.opened? path :=
  (h.shape.opened? path).symm

/-- A file that was not hidden at first keeps its bytes while hidden contents change. -/
theorem Descends.bytesAt? (h : Descends hidden a b) {c : FileTree} (hl : Logged hidden b c)
    (hp : ∀ m ∈ hidden, a.node? p ≠ some (.file m)) : c.bytesAt? p = b.bytesAt? p :=
  hl.bytesAt? fun m hm hn => hp m hm (h.places p m hm hn)

/-- Hidden contents stay where they are if a file is given new bytes. -/
theorem Descends.rewritten (h : Descends hidden a b) (hold : ∀ c ∈ hidden, c < b.contents.length)
    {inPlace : Bool} {c : Nat} (hn : b.node? p = some (.file c)) (data : List UInt8) :
    Descends hidden a (b.rewritten inPlace p data) := by
  refine ⟨h.shape.trans (sameShape_rewritten inPlace data hn), ?_⟩
  intro q m hm hq
  rw [node?_rewritten data hn] at hq
  split at hq
  · cases hq
    exact absurd (hold _ hm) (Nat.lt_irrefl _)
  · exact h.places q m hm hq

end FileTree

end ImportRepair
