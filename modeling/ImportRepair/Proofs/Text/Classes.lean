import ImportRepair.Text.Classes
import ImportRepair.Text.Lines
import ImportRepair.Text.Word
import Mathlib.Tactic

/-!
# What no digit and no word character is

Membership in a class of code points changes at its boundaries alone, so a run of code points
without a boundary in it is inside or outside as a whole. That settles the surrogates, a run of 2048
code points that no boundary of the digits or of the word characters falls into.

Results:
* `CodePoint.plain_of_isDigit`, `CodePoint.plain_of_isWord`: digits and word characters end no
  line and are no surrogates.
* `CodePoint.ne_colon_of_isDigit`, `CodePoint.ne_colon_of_isWord`: they are no colons.
-/

namespace ImportRepair

/-- From one code point to another without a boundary between them, membership stays the same. -/
theorem insideBoundaries_congr {boundaries : List Nat} {m n : Nat} (hmn : m ≤ n)
    (h : ∀ b ∈ boundaries, b ≤ m ∨ n < b) :
    insideBoundaries boundaries n = insideBoundaries boundaries m := by
  induction boundaries, m using insideBoundaries.induct with
  | case1 m => rfl
  | case2 first m =>
    have hfirst := h first (List.mem_singleton_self _)
    rw [insideBoundaries, insideBoundaries, decide_eq_decide]
    omega
  | case3 first past rest m hlt =>
    have hfirst := h first (List.mem_cons_self ..)
    rw [insideBoundaries, insideBoundaries, if_pos hlt, if_pos (by omega)]
  | case4 first past rest m hle hlt =>
    have hfirst := h first (List.mem_cons_self ..)
    have hpast := h past (List.mem_cons_of_mem _ (List.mem_cons_self ..))
    rw [insideBoundaries, insideBoundaries, if_neg hle, if_pos hlt, if_neg (by omega),
      if_pos (by omega)]
  | case5 first past rest m hle hge ih =>
    have hfirst := h first (List.mem_cons_self ..)
    have hpast := h past (List.mem_cons_of_mem _ (List.mem_cons_self ..))
    rw [insideBoundaries, insideBoundaries, if_neg hle, if_neg hge, if_neg (by omega),
      if_neg (by omega)]
    exact ih hmn fun b hb => h b (List.mem_cons_of_mem _ (List.mem_cons_of_mem _ hb))

namespace CodePoint

/-- A code point that neither ends a line nor is a surrogate. -/
def IsPlain (c : CodePoint) : Prop := c ≠ Text.lf ∧ c ≠ Text.cr ∧ c.isSurrogate = false

instance (c : CodePoint) : Decidable c.IsPlain := by unfold IsPlain; infer_instance

/-- The surrogates are outside of a class that has no boundary among them. -/
theorem insideBoundaries_surrogate {boundaries : List Nat} {c : CodePoint}
    (h : ∀ b ∈ boundaries, b ≤ 0xD800 ∨ 0xDFFF < b)
    (hfirst : insideBoundaries boundaries 0xD800 = false) (hc : c.isSurrogate = true) :
    insideBoundaries boundaries c.val = false := by
  rw [isSurrogate, Bool.and_eq_true, decide_eq_true_eq, decide_eq_true_eq] at hc
  rw [insideBoundaries_congr hc.1, hfirst]
  intro b hb
  have hside := h b hb
  omega

theorem isSurrogate_of_isDigit {c : CodePoint} (h : c.isDigit = true) : c.isSurrogate = false := by
  by_contra hs
  rw [Bool.not_eq_false] at hs
  have hout : insideBoundaries digitBoundaries c.val = false :=
    insideBoundaries_surrogate (by decide +kernel) (by decide +kernel) hs
  have hlow : ¬c.val < 128 := by
    rw [isSurrogate, Bool.and_eq_true, decide_eq_true_eq] at hs
    omega
  rw [isDigit, if_neg hlow, hout] at h
  cases h

theorem isSurrogate_of_isWord {c : CodePoint} (h : c.isWord = true) : c.isSurrogate = false := by
  by_contra hs
  rw [Bool.not_eq_false] at hs
  have hout : insideBoundaries wordBoundaries c.val = false :=
    insideBoundaries_surrogate (by decide +kernel) (by decide +kernel) hs
  have hlow : ¬c.val < 128 := by
    rw [isSurrogate, Bool.and_eq_true, decide_eq_true_eq] at hs
    omega
  rw [isWord, if_neg hlow, hout] at h
  cases h

theorem ne_of_isDigit {c d : CodePoint} (h : c.isDigit = true) (hd : d.isDigit = false) :
    c ≠ d := by
  rintro rfl
  rw [h] at hd
  cases hd

theorem ne_of_isWord {c d : CodePoint} (h : c.isWord = true) (hd : d.isWord = false) : c ≠ d := by
  rintro rfl
  rw [h] at hd
  cases hd

theorem plain_of_isDigit {c : CodePoint} (h : c.isDigit = true) : c.IsPlain :=
  ⟨ne_of_isDigit h (by decide), ne_of_isDigit h (by decide), isSurrogate_of_isDigit h⟩

theorem plain_of_isWord {c : CodePoint} (h : c.isWord = true) : c.IsPlain :=
  ⟨ne_of_isWord h (by decide), ne_of_isWord h (by decide), isSurrogate_of_isWord h⟩

theorem ne_colon_of_isDigit {c : CodePoint} (h : c.isDigit = true) : c ≠ (':' : CodePoint) :=
  ne_of_isDigit h (by decide)

theorem ne_colon_of_isWord {c : CodePoint} (h : c.isWord = true) : c ≠ (':' : CodePoint) :=
  ne_of_isWord h (by decide)

end CodePoint

end ImportRepair
