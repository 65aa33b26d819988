import ImportRepair.Patch.File
import Mathlib.Tactic

/-!
# Import lines in a text

Import lines start with the anchor, so putting one in before the first anchor leaves the first
anchor where it is. All lines of a text therefore go in at one index, the later ones before the
earlier ones, and what starts with the anchor and occurred in the text occurs in it ever after.

Results:
* `firstIndex?_splice`: the first occurrence of a word stays where it is.
* `infix_splice`: what starts with the word still occurs.
* `Insertion.insert?_eq_some_iff`: when a line goes in, and where.
-/

namespace ImportRepair

/-! ## Splicing -/

section Splice

variable {α : Type _}

theorem splice_nil (k : Nat) (s : List α) : splice k [] s = s := by
  simp [splice]

theorem take_splice {k : Nat} {v s : List α} (h : k ≤ s.length) :
    (splice k v s).take k = s.take k := by
  rw [splice, List.append_assoc, List.take_append_of_le_length (by simp [h]),
    List.take_of_length_le (by simp)]

theorem drop_splice {k : Nat} {v s : List α} (h : k ≤ s.length) :
    (splice k v s).drop k = v ++ s.drop k := by
  rw [splice, List.append_assoc, List.drop_append, List.drop_of_length_le (by simp)]
  simp [h]

theorem splice_splice {k : Nat} {u v s : List α} (h : k ≤ s.length) :
    splice k u (splice k v s) = splice k (u ++ v) s := by
  rw [splice, take_splice h, drop_splice h, splice]
  simp only [List.append_assoc]

variable [DecidableEq α]

theorem startsWith_iff_take {word s : List α} :
    startsWith word s = true ↔ s.take word.length = word := by
  rw [startsWith, List.isPrefixOf_iff_prefix, List.prefix_iff_eq_take, eq_comm]

/-- Whether a word starts a list depends on no more elements than the word has. -/
theorem startsWith_congr {word s t : List α} (h : s.take word.length = t.take word.length) :
    startsWith word s = startsWith word t := by
  rw [Bool.eq_iff_iff, startsWith_iff_take, startsWith_iff_take, h]

/-- What stands from the first occurrence of a word on can be replaced by anything that starts with
the word: no earlier occurrence comes about, since one would have to end within the word itself. -/
theorem firstIndex?_take_append {word s rest : List α} {k : Nat} (h : firstIndex? word s = some k)
    (hrest : word <+: rest) : firstIndex? word (s.take k ++ rest) = some k := by
  obtain ⟨hk, hs, hmin⟩ := firstIndex?_eq_some_iff.1 h
  obtain ⟨x, hx⟩ := startsWith_iff.1 hs
  obtain ⟨y, rfl⟩ := hrest
  have hlen : (s.take k).length = k := by simp [hk]
  rw [firstIndex?_eq_some_iff]
  refine ⟨by simp [hlen], ?_, ?_⟩
  · rw [List.drop_append, hlen, List.drop_of_length_le (by omega)]
    exact startsWith_iff.2 ⟨y, by simp⟩
  · intro j hj
    rw [← hmin j hj]
    apply startsWith_congr
    -- up to the end of the word at `k` both lists are the same
    have hd : s.drop j = (s.take k).drop j ++ (word ++ x) := by
      rw [← hx]
      conv_lhs => rw [← List.take_append_drop k s]
      rw [List.drop_append_of_le_length (by omega)]
    have hlong : word.length ≤ ((s.take k).drop j ++ word).length := by simp
    rw [hd, List.drop_append_of_le_length (by omega), ← List.append_assoc, ← List.append_assoc,
      List.take_append_of_le_length hlong, List.take_append_of_le_length hlong]

theorem firstIndex?_splice {word v s : List α} {k : Nat} (h : firstIndex? word s = some k)
    (hv : v = [] ∨ word <+: v) : firstIndex? word (splice k v s) = some k := by
  obtain rfl | hv := hv
  · rwa [splice_nil]
  · rw [splice, List.append_assoc]
    exact firstIndex?_take_append h (hv.trans (List.prefix_append ..))

/-- An occurrence that starts with the word starts at its first occurrence or later. -/
theorem infix_drop {word l s : List α} {k : Nat} (h : firstIndex? word s = some k)
    (hl : word <+: l) (hs : l <:+: s) : l <:+: s.drop k := by
  obtain ⟨x, y, rfl⟩ := hs
  obtain ⟨z, rfl⟩ := hl
  obtain ⟨_, _, hmin⟩ := firstIndex?_eq_some_iff.1 h
  have hle : k ≤ x.length := by
    by_contra hlt
    have hfalse := hmin x.length (by omega)
    rw [List.append_assoc, List.drop_left, List.append_assoc,
      startsWith_iff.2 ⟨_, rfl⟩] at hfalse
    cases hfalse
  refine ⟨x.drop k, y, ?_⟩
  rw [List.append_assoc x, List.drop_append_of_le_length hle, List.append_assoc]

theorem infix_splice {word l v s : List α} {k : Nat} (h : firstIndex? word s = some k)
    (hl : word <+: l) (hs : l <:+: s) : l <:+: splice k v s :=
  (infix_drop h hl hs).trans (List.suffix_append ..).isInfix

end Splice

/-! ## Import lines -/

namespace Insertion

theorem anchor_prefix_line (module : Text) : anchor <+: line module :=
  ⟨32 :: (module ++ [10]), by simp [anchor, line, Text.ofString]; rfl⟩

/-- Lines one after the other start with the anchor, unless there are none. -/
theorem flatten_lines_eq_nil_or {lines : List Text} (h : ∀ l ∈ lines, anchor <+: l) :
    lines.flatten = [] ∨ anchor <+: lines.flatten := by
  cases lines with
  | nil => exact Or.inl rfl
  | cons l lines =>
    exact Or.inr ((h l (List.mem_cons_self ..)).trans (List.prefix_append ..))

theorem anchor_infix_of_line_infix {module t : Text} (h : line module <:+: t) : anchor <:+: t :=
  (anchor_prefix_line module).isInfix.trans h

theorem insert?_eq_some_iff {text line new : Text} (h : occursIn line text = false) :
    insert? text line = some new ↔
      ∃ k, firstIndex? anchor text = some k ∧ new = splice k line text := by
  rw [insert?, h, if_neg (by simp), Option.map_eq_some_iff]
  simp only [eq_comm]

theorem insert?_eq_none_iff {text line : Text} (h : occursIn line text = false) :
    insert? text line = none ↔ firstIndex? anchor text = none := by
  rw [insert?, h, if_neg (by simp), Option.map_eq_none_iff]

/-- The lines that have gone in, the last one first, with one more line on offer: it goes in if it
can be written and does not occur in the text yet. -/
def accept (k : Nat) (t : Text) (lines : List Text) (line : Text) : List Text :=
  if line.isScalar && !occursIn line (splice k lines.flatten t) then line :: lines else lines

/-- Which of the lines offered one after the other go in at an index of a text, the last one
first. -/
def accepted (k : Nat) (t : Text) (offered : List Text) : List Text := offered.foldl (accept k t) []

theorem accept_of_occursIn {k : Nat} {t line : Text} {lines : List Text}
    (h : occursIn line (splice k lines.flatten t) = true) : accept k t lines line = lines := by
  simp [accept, h]

theorem accept_of_not_isScalar {k : Nat} {t line : Text} {lines : List Text}
    (h : line.isScalar = false) : accept k t lines line = lines := by
  simp [accept, h]

/-- A line offered again does not go in again. -/
theorem accept_accept (k : Nat) (t line : Text) (lines : List Text) :
    accept k t (accept k t lines line) line = accept k t lines line := by
  by_cases h : (line.isScalar && !occursIn line (splice k lines.flatten t)) = true
  · have hin : accept k t lines line = line :: lines := if_pos h
    rw [hin, accept_of_occursIn]
    rw [occursIn_iff]
    exact ⟨t.take k, lines.flatten ++ t.drop k, by simp [splice]⟩
  · have hout : accept k t lines line = lines := if_neg h
    rw [hout, hout]

end Insertion

end ImportRepair
