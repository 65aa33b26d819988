/-!
# Searching and splicing lists

Where a word first occurs in a list, and putting a word in at an index. Texts and byte strings are
both lists, so the functions are generic.

Results:
* `firstIndex?_eq_some_iff`: the index found is where the word starts, and no earlier one is.
* `firstIndex?_eq_none_iff`: nothing is found exactly if the word occurs nowhere.
-/

namespace ImportRepair

variable {α : Type _} [DecidableEq α]

/-- Whether the word stands at the start of the list. -/
def startsWith (word s : List α) : Bool := word.isPrefixOf s

/-- The least index at which the word starts. -/
def firstIndex? (word : List α) : List α → Option Nat
  | [] => if word = [] then some 0 else none
  | c :: s => if startsWith word (c :: s) then some 0 else (firstIndex? word s).map (· + 1)

/-- Whether the word occurs in the list. -/
def occursIn (word s : List α) : Bool := (firstIndex? word s).isSome

omit [DecidableEq α] in
/-- The list with the word put in before index `k`. -/
def splice (k : Nat) (word s : List α) : List α := s.take k ++ word ++ s.drop k

theorem startsWith_iff {word s : List α} : startsWith word s = true ↔ ∃ r, s = word ++ r := by
  rw [startsWith, List.isPrefixOf_iff_prefix]
  exact ⟨fun ⟨r, h⟩ => ⟨r, h.symm⟩, fun ⟨r, h⟩ => ⟨r, h.symm⟩⟩

theorem firstIndex?_eq_some_iff {word s : List α} {k : Nat} :
    firstIndex? word s = some k ↔
      k ≤ s.length ∧ startsWith word (s.drop k) = true ∧
        ∀ j < k, startsWith word (s.drop j) = false := by
  induction s generalizing k with
  | nil =>
    by_cases h : word = []
    · subst h
      cases k <;> simp [firstIndex?, startsWith]
    · have hs : startsWith word ([] : List α) = false := by
        cases word with
        | nil => exact absurd rfl h
        | cons => rfl
      simp [firstIndex?, h, hs]
  | cons c s ih =>
    rw [firstIndex?]
    by_cases h : startsWith word (c :: s) = true
    · rw [if_pos h]
      constructor
      · intro hk
        cases hk
        exact ⟨Nat.zero_le _, h, fun j hj => absurd hj (Nat.not_lt_zero j)⟩
      · rintro ⟨_, _, hmin⟩
        cases k with
        | zero => rfl
        | succ k => exact absurd (hmin 0 (Nat.succ_pos k)) (by simp [h])
    · rw [if_neg h]
      cases k with
      | zero => simp [h]
      | succ k =>
        simp only [Option.map_eq_some_iff, Nat.add_right_cancel_iff, exists_eq_right, ih,
          List.length_cons, Nat.add_le_add_iff_right, List.drop_succ_cons]
        refine and_congr_right fun _ => and_congr_right fun _ =>
          ⟨fun hmin j hj => ?_, fun hmin j hj => ?_⟩
        · cases j with
          | zero => simpa using h
          | succ j => simpa using hmin j (by omega)
        · simpa using hmin (j + 1) (by omega)

theorem firstIndex?_eq_none_iff {word s : List α} :
    firstIndex? word s = none ↔ ¬ word <:+: s := by
  constructor
  · rintro hn ⟨a, b, rfl⟩
    induction a with
    | nil =>
      have hw : startsWith word (word ++ b) = true := startsWith_iff.2 ⟨b, rfl⟩
      cases hs : word ++ b with
      | nil => simp_all [firstIndex?]
      | cons c s => rw [hs] at hw; simp [hs, firstIndex?, hw] at hn
    | cons c a ih =>
      simp only [List.cons_append, firstIndex?] at hn
      split at hn
      · cases hn
      · exact ih (by simpa using hn)
  · intro h
    cases hk : firstIndex? word s with
    | none => rfl
    | some k =>
      obtain ⟨_, hs, _⟩ := firstIndex?_eq_some_iff.1 hk
      obtain ⟨r, hr⟩ := startsWith_iff.1 hs
      exact absurd ⟨s.take k, r, by rw [List.append_assoc, ← hr, List.take_append_drop]⟩ h

theorem occursIn_iff {word s : List α} : occursIn word s = true ↔ word <:+: s := by
  rw [occursIn, Option.isSome_iff_ne_none, ne_eq, firstIndex?_eq_none_iff, Decidable.not_not]

end ImportRepair
