import ImportRepair.Proofs.Patch.Trail

/-!
# What a trail writes

All lines that a trail puts into a file go before the first anchor that the file had at first, the
later ones before the earlier ones. Files that no result has written keep their bytes. So every text
after a trail is a function of the text before it and of the results.

Results:
* `Trail.grown`: how the text of each file grows along a trail.
* `FileTree.Grown.textAt?`: what a text has become.
* `Trail.line_of_patched`: lines that were put in stay.
-/

namespace ImportRepair

namespace FileTree

variable {a b c tree : FileTree} {q : Place} {xs ys : List Text}

theorem textAt?_congr {p : Place} (h : b.bytesAt? q = a.bytesAt? p) :
    b.textAt? q = a.textAt? p := by
  rw [FileTree.textAt?, FileTree.textAt?, h]

theorem textAt?_of_bytesAt? {t : Text} (ht : t.isScalar = true)
    (h : tree.bytesAt? q = some (Utf8.encodeAll t)) : tree.textAt? q = some t := by
  rw [FileTree.textAt?, h, Option.bind_some, Utf8.decode_encodeAll ht]
  rfl

theorem bytesAt?_of_sharesFile {inPlace : Bool} {p : Place}
    (h : tree.sharesFile inPlace p q = true) :
    tree.bytesAt? q = tree.bytesAt? p := by
  rw [sharesFile] at h
  split at h
  · rw [FileTree.bytesAt?, FileTree.bytesAt?, of_decide_eq_true h]
  · rw [of_decide_eq_true h]

/-- The file at a place has the same bytes, or lines were put in before its first anchor. -/
structure Grown (lines : List Text) (a b : FileTree) (q : Place) : Prop where
  anchored : ∀ l ∈ lines, Insertion.anchor <+: l
  bytes : lines = [] → b.bytesAt? q = a.bytesAt? q
  text : lines ≠ [] → ∃ t k, a.textAt? q = some t ∧ firstIndex? Insertion.anchor t = some k ∧
    b.textAt? q = some (splice k lines.flatten t)

theorem Grown.refl (a : FileTree) (q : Place) : Grown [] a a q :=
  ⟨by simp, fun _ => rfl, fun h => absurd rfl h⟩

theorem Grown.trans (h : Grown xs a b q) (h' : Grown ys b c q) : Grown (ys ++ xs) a c q := by
  refine ⟨?_, ?_, ?_⟩
  · intro l hl
    exact (List.mem_append.1 hl).elim (h'.anchored l) (h.anchored l)
  · intro hnil
    obtain ⟨hy, hx⟩ := List.append_eq_nil_iff.1 hnil
    exact (h'.bytes hy).trans (h.bytes hx)
  · intro _
    by_cases hx : xs = []
    · subst hx
      rw [List.append_nil] at *
      rename_i hne
      obtain ⟨t, k, ht, hk, hc⟩ := h'.text hne
      rw [textAt?_congr (h.bytes rfl)] at ht
      exact ⟨t, k, ht, hk, hc⟩
    · obtain ⟨t, k, ht, hk, hb⟩ := h.text hx
      refine ⟨t, k, ht, hk, ?_⟩
      by_cases hy : ys = []
      · subst hy
        rw [textAt?_congr (h'.bytes rfl), hb, List.nil_append]
      · obtain ⟨t', k', ht', hk', hc⟩ := h'.text hy
        rw [hb] at ht'
        cases ht'
        -- the first anchor has stayed where it was
        have hstay := firstIndex?_splice hk (Insertion.flatten_lines_eq_nil_or h.anchored)
        rw [hstay] at hk'
        cases hk'
        have hle := (firstIndex?_eq_some_iff.1 hk).1
        rw [hc, splice_splice hle, List.flatten_append]

/-- What the text has become. -/
theorem Grown.textAt? (h : Grown xs a b q) {t : Text} {k : Nat} (ht : a.textAt? q = some t)
    (hk : firstIndex? Insertion.anchor t = some k) :
    b.textAt? q = some (splice k xs.flatten t) := by
  by_cases hx : xs = []
  · subst hx
    rw [textAt?_congr (h.bytes rfl), ht, List.flatten_nil, splice_nil]
  · obtain ⟨t', k', ht', hk', hb⟩ := h.text hx
    rw [ht] at ht'
    cases ht'
    rw [hk] at hk'
    cases hk'
    exact hb

/-- The anchor still occurs. -/
theorem Grown.occursIn_anchor (h : Grown xs a b q) {t : Text} {k : Nat}
    (hk : firstIndex? Insertion.anchor t = some k) :
    occursIn Insertion.anchor (splice k xs.flatten t) = true := by
  rw [occursIn, firstIndex?_splice hk (Insertion.flatten_lines_eq_nil_or h.anchored)]
  rfl

/-- Without a first anchor nothing was put in. -/
theorem Grown.eq_nil (h : Grown xs a b q)
    (hq : ∀ t, a.textAt? q = some t → firstIndex? Insertion.anchor t = none) : xs = [] := by
  by_contra hx
  obtain ⟨t, k, ht, hk, _⟩ := h.text hx
  rw [hq t ht] at hk
  cases hk

end FileTree

/-- A line that occurs goes on occurring. -/
theorem occursIn_splice {module t : Text} {k : Nat} (hk : firstIndex? Insertion.anchor t = some k)
    (v : Text) (ho : occursIn (Insertion.line module) t = true) :
    occursIn (Insertion.line module) (splice k v t) = true :=
  occursIn_iff.2 (infix_splice hk (Insertion.anchor_prefix_line module) (occursIn_iff.1 ho))

/-- A text that can be written holds no line that cannot be. -/
theorem occursIn_of_not_isScalar {line t : Text} (ht : t.isScalar = true)
    (hl : line.isScalar = false) : occursIn line t = false := by
  rw [← Bool.not_eq_true, occursIn_iff]
  rintro ⟨x, y, rfl⟩
  rw [Text.isScalar, List.all_append, List.all_append, Bool.and_eq_true, Bool.and_eq_true] at ht
  rw [Text.isScalar, ht.1.2] at hl
  cases hl

theorem occursIn_anchor_of_line {module t : Text} (h : occursIn (Insertion.line module) t = true) :
    occursIn Insertion.anchor t = true :=
  occursIn_iff.2 (Insertion.anchor_infix_of_line_infix (occursIn_iff.1 h))

namespace Patch

variable {trial : Bool} {mishaps : Mishaps} {tree last : FileTree} {module path : Text} {q : Place}
variable {rs : List Result}

/-- Whether a result has written to the file at a place. -/
def writes (mishaps : Mishaps) (tree : FileTree) (q : Place) (r : Result) : Bool :=
  r.status = .patched &&
    match target? mishaps tree r.path with
    | some p => tree.sharesFile mishaps.noTemporary p q
    | none => false

/-- The lines that results have put into the file at a place, the latest first. -/
def brought (mishaps : Mishaps) (tree : FileTree) (results : List Result) (q : Place) : List Text :=
  ((results.filter (writes mishaps tree q)).map fun r => Insertion.line r.module).reverse

theorem brought_cons (mishaps : Mishaps) (tree : FileTree) (r : Result) (rs : List Result)
    (q : Place) :
    brought mishaps tree (r :: rs) q =
      brought mishaps tree rs q ++ if writes mishaps tree q r
        then [Insertion.line r.module] else [] := by
  rw [brought, brought, List.filter_cons]
  split
  · rw [List.map_cons, List.reverse_cons]
  · rw [List.append_nil]

/-! ## One result -/

theorem sharesFile_after (hs : tree.Sound) (x y : Place) :
    (after trial mishaps tree module path).sharesFile mishaps.noTemporary x y =
      tree.sharesFile mishaps.noTemporary x y := by
  obtain h | ⟨p, c, data, _, hn, h⟩ := after_cases hs
  · rw [h]
  · rw [h]
    exact FileTree.sharesFile_rewritten _ hn x y

/-- Which results write to which places stays the same. -/
theorem writes_after (hs : tree.Sound) (q : Place) :
    writes mishaps (after trial mishaps tree module path) q = writes mishaps tree q := by
  funext r
  rw [writes, writes, ← (sameShape_after hs).target?]
  cases target? mishaps tree r.path with
  | none => rfl
  | some p =>
    simp only
    rw [sharesFile_after hs]

/-- What one result does to the text of a file. -/
theorem grown_after (hs : tree.Sound) {r : Result}
    (hr : r.status = outcome trial mishaps tree r.module r.path) (q : Place) :
    FileTree.Grown (if writes mishaps tree q r then [Insertion.line r.module] else []) tree
      (after trial mishaps tree r.module r.path) q := by
  by_cases h : outcome trial mishaps tree r.module r.path = .patched
  · obtain ⟨_, hsc, p, t, k, ht, _, htext, _, hk, hafter⟩ := of_patched h
    obtain ⟨_, c, hn, _⟩ := FileTree.settled_of_opened? hs (target?_eq_some ht).2
    have hbytes := FileTree.bytesAt?_rewritten hs mishaps.noTemporary
      (Utf8.encodeAll (splice k (Insertion.line r.module) t)) hn q
    have hw : writes mishaps tree q r = tree.sharesFile mishaps.noTemporary p q := by
      rw [writes, hr, h, ht]
      rfl
    rw [hafter, hw]
    cases hshare : tree.sharesFile mishaps.noTemporary p q with
    | false =>
      rw [hshare] at hbytes
      exact ⟨by simp, fun _ => hbytes, fun hne => absurd rfl hne⟩
    | true =>
      rw [hshare, if_pos rfl] at hbytes
      refine ⟨?_, by simp, ?_⟩
      · intro l hl
        rw [if_pos rfl, List.mem_singleton] at hl
        rw [hl]
        exact Insertion.anchor_prefix_line _
      · intro _
        refine ⟨t, k, ?_, hk, ?_⟩
        · rw [FileTree.textAt?_congr (FileTree.bytesAt?_of_sharesFile hshare), htext]
        · rw [if_pos rfl, List.flatten_singleton]
          refine FileTree.textAt?_of_bytesAt? ?_ hbytes
          rw [isScalar_splice _ _ (FileTree.isScalar_of_textAt? htext), hsc]
  · have hw : writes mishaps tree q r = false := by
      rw [writes, hr, Bool.and_eq_false_iff]
      exact Or.inl (decide_eq_false h)
    rw [after_of_ne_patched h, hw]
    exact .refl tree q

/-! ## Trails -/

/-- How the text of each file grows along a trail. -/
theorem Trail.grown (h : Trail trial mishaps tree rs last) (hs : tree.Sound) (q : Place) :
    FileTree.Grown (brought mishaps tree rs q) tree last q := by
  induction h with
  | nil => exact .refl _ q
  | cons hr _ ih =>
    have hrest := ih (sound_after hs)
    rw [brought, writes_after hs, ← brought] at hrest
    rw [brought_cons]
    exact (grown_after hs hr q).trans hrest

/-- A line that was put in is there at the end of a trail. -/
theorem Trail.line_of_patched {r : Result} (hs : tree.Sound)
    (hr : r.status = outcome trial mishaps tree r.module r.path) (hpatched : r.status = .patched)
    (h : Trail trial mishaps (after trial mishaps tree r.module r.path) rs last) :
    ∃ p t, target? mishaps tree r.path = some p ∧ last.textAt? p = some t ∧
      occursIn (Insertion.line r.module) t = true := by
  have hgrown := (Trail.cons hr h).grown hs
  obtain ⟨_, _, p, t, k, hp, _, ht, _, hk, _⟩ := of_patched (hr.symm.trans hpatched)
  have hw : writes mishaps tree p r = true := by
    rw [writes, hpatched, hp]
    exact FileTree.sharesFile_self _ p
  refine ⟨p, _, hp, (hgrown p).textAt? ht hk, ?_⟩
  rw [occursIn_iff, brought_cons, hw, if_pos rfl, List.flatten_append, List.flatten_singleton]
  exact ⟨t.take k ++ (brought mishaps tree rs p).flatten, t.drop k, by simp [splice]⟩

end Patch

end ImportRepair
