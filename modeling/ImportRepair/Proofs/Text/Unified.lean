import ImportRepair.Proofs.Text.Encoded
import ImportRepair.Text.Lines

/-!
# Unified line ends

A text with unified line ends is the text in which first every carriage return with a line feed
behind it was replaced by a line feed, and then every carriage return that was left. It has no
carriage return, and every other code point that was in the text. Its lines end with their line
feeds, all but perhaps the last one.

Results:
* `replaceAll`: a list with the occurrences of a word replaced.
* `Text.unifyLineEnds_eq_replaceAll`: unifying line ends is replacing twice.
* `Text.lines_eq`: the lines of a text, those that end and a last one that does not.
-/

namespace ImportRepair

/-! ## Replacing -/

section Replacing

variable {α : Type _} [DecidableEq α]

/-- A list in which every occurrence of a word is replaced, from the front on. The first `skip`
elements belong to an occurrence that was replaced already. -/
def replaceFrom (old new : List α) : (skip : Nat) → List α → List α
  | _, [] => []
  | skip + 1, _ :: s => replaceFrom old new skip s
  | 0, c :: s =>
    if startsWith old (c :: s) then new ++ replaceFrom old new (old.length - 1) s
    else c :: replaceFrom old new 0 s

/-- A list in which every occurrence of a word is replaced, from the front on. Occurrences that
overlap an earlier one do not count. -/
def replaceAll (old new s : List α) : List α := replaceFrom old new 0 s

variable {old new s : List α} {c : α}

theorem replaceFrom_eq (skip : Nat) :
    replaceFrom old new skip s = replaceAll old new (s.drop skip) := by
  induction s generalizing skip with
  | nil => simp [replaceFrom, replaceAll]
  | cons c s ih =>
    cases skip with
    | zero => rfl
    | succ skip => rw [replaceFrom, ih, List.drop_succ_cons]

/-- An occurrence at the front is replaced. -/
theorem replaceAll_append (h : old ≠ []) (s : List α) :
    replaceAll old new (old ++ s) = new ++ replaceAll old new s := by
  obtain ⟨c, word, rfl⟩ := List.exists_cons_of_ne_nil h
  have hstart : startsWith (c :: word) (c :: (word ++ s)) = true := startsWith_iff.2 ⟨s, rfl⟩
  rw [replaceAll, List.cons_append, replaceFrom, if_pos hstart, replaceFrom_eq, List.length_cons,
    Nat.add_sub_cancel, List.drop_left]

/-- What does not start an occurrence is kept. -/
theorem replaceAll_cons (h : startsWith old (c :: s) = false) :
    replaceAll old new (c :: s) = c :: replaceAll old new s := by
  rw [replaceAll, replaceFrom, if_neg (by simp [h]), replaceAll]

end Replacing

namespace Text

/-! ## Line ends -/

/-- Unifying line ends is replacing the long ones first, and then the carriage
returns that are left. -/
theorem unifyLineEnds_eq_replaceAll (t : Text) :
    unifyLineEnds t = replaceAll [cr] [lf] (replaceAll [cr, lf] [lf] t) := by
  have hreturn : ∀ u : Text, replaceAll [cr] [lf] (cr :: u) = lf :: replaceAll [cr] [lf] u :=
    replaceAll_append (List.cons_ne_nil cr [])
  have hboth : ∀ u : Text,
      replaceAll [cr, lf] [lf] (cr :: lf :: u) = lf :: replaceAll [cr, lf] [lf] u :=
    replaceAll_append (List.cons_ne_nil cr [lf])
  -- other code points start neither of the two words
  have hother : ∀ (word : Text) {c : CodePoint}, c ≠ cr → ∀ u : Text,
      replaceAll (cr :: word) [lf] (c :: u) = c :: replaceAll (cr :: word) [lf] u := by
    intro word c hc u
    exact replaceAll_cons (startsWith_cons_of_ne (Ne.symm hc))
  fun_induction unifyLineEnds t with
  | case1 => rfl
  | case2 => decide
  | case3 c hc => rw [hother _ hc, hother _ hc]; rfl
  | case4 t ih => rw [hboth, hother _ (by decide), ih]
  | case5 d t hd ih =>
    have hkept : replaceAll [cr, lf] [lf] (cr :: d :: t) =
        cr :: replaceAll [cr, lf] [lf] (d :: t) := by
      apply replaceAll_cons
      rw [← Bool.not_eq_true, startsWith_iff]
      rintro ⟨r, hr⟩
      simp at hr
      exact hd hr.1
    rw [hkept, hreturn, ih]
  | case6 c d t hc ih => rw [hother _ hc, hother _ hc, ih]

/-- No carriage return is left. -/
theorem cr_not_mem_unifyLineEnds (t : Text) : cr ∉ unifyLineEnds t := by
  have hne : cr ≠ lf := by decide
  fun_induction unifyLineEnds t with
  | case1 => exact List.not_mem_nil
  | case2 => exact fun h => hne (List.mem_singleton.1 h)
  | case3 c hc => exact fun h => hc (List.mem_singleton.1 h).symm
  | case4 t ih => exact List.not_mem_cons_of_ne_of_not_mem hne ih
  | case5 d t hd ih => exact List.not_mem_cons_of_ne_of_not_mem hne ih
  | case6 c d t hc ih => exact List.not_mem_cons_of_ne_of_not_mem (Ne.symm hc) ih

/-- Everything but carriage returns is kept. -/
theorem mem_unifyLineEnds {c : CodePoint} (hc : c ≠ cr) {t : Text} (h : c ∈ t) :
    c ∈ unifyLineEnds t := by
  fun_induction unifyLineEnds t with
  | case1 => exact h
  | case2 => exact absurd (List.mem_singleton.1 h) hc
  | case3 d hd => exact h
  | case4 t ih =>
    obtain rfl | h := List.mem_cons.1 h
    · exact absurd rfl hc
    · obtain rfl | h := List.mem_cons.1 h
      · exact List.mem_cons_self ..
      · exact List.mem_cons_of_mem lf (ih h)
  | case5 d t hd ih =>
    obtain rfl | h := List.mem_cons.1 h
    · exact absurd rfl hc
    · exact List.mem_cons_of_mem lf (ih h)
  | case6 d e t hd ih =>
    obtain rfl | h := List.mem_cons.1 h
    · exact List.mem_cons_self ..
    · exact List.mem_cons_of_mem d (ih h)

/-! ## Lines -/

/-- The lines of a text end with a line feed that is their only one, all but a
last one that has none. -/
theorem lines_eq (t : Text) :
    ∃ (ended : List Text) (last : Text),
      lines t = ended.map (· ++ [lf]) ++ (if last = [] then [] else [last]) ∧
        (∀ line ∈ ended, lf ∉ line) ∧ lf ∉ last := by
  induction t with
  | nil => exact ⟨[], [], rfl, List.forall_mem_nil _, List.not_mem_nil⟩
  | cons c t ih =>
    obtain ⟨ended, last, heq, hended, hlast⟩ := ih
    by_cases hc : c = lf
    · refine ⟨[] :: ended, last, ?_, List.forall_mem_cons.2 ⟨List.not_mem_nil, hended⟩, hlast⟩
      rw [lines, if_pos hc, heq, hc]
      rfl
    · have hfirst : ∀ line : Text, lf ∉ line → lf ∉ c :: line := by
        intro line hline
        rw [List.mem_cons, not_or]
        exact ⟨Ne.symm hc, hline⟩
      rw [lines, if_neg hc, heq]
      cases ended with
      | nil =>
        refine ⟨[], c :: last, ?_, List.forall_mem_nil _, hfirst last hlast⟩
        by_cases hnil : last = [] <;> simp [hnil]
      | cons line ended =>
        rw [List.forall_mem_cons] at hended
        exact ⟨(c :: line) :: ended, last, rfl,
          List.forall_mem_cons.2 ⟨hfirst line hended.1, hended.2⟩, hlast⟩

variable {t line : Text}

theorem ne_nil_of_mem_lines (h : line ∈ lines t) : line ≠ [] := by
  obtain ⟨ended, last, heq, -, -⟩ := lines_eq t
  rw [heq, List.mem_append, List.mem_map] at h
  obtain ⟨l, -, rfl⟩ | h := h
  · simp
  · by_cases hlast : last = [] <;> simp_all

/-- A line has no line feed but at its end. -/
theorem lf_not_mem_dropLast (h : line ∈ lines t) : lf ∉ line.dropLast := by
  obtain ⟨ended, last, heq, hended, hlast⟩ := lines_eq t
  rw [heq, List.mem_append, List.mem_map] at h
  obtain ⟨l, hl, rfl⟩ | h := h
  · rw [List.dropLast_concat]
    exact hended l hl
  · obtain rfl : line = last := by
      by_cases hnil : last = [] <;> simp_all
    exact fun hm => hlast (List.mem_of_mem_dropLast hm)

/-- A line that is not the last one ends with a line feed. -/
theorem getLast?_of_mem_dropLast_lines (h : line ∈ (lines t).dropLast) :
    line.getLast? = some lf := by
  obtain ⟨ended, last, heq, -, -⟩ := lines_eq t
  have hended : line ∈ ended.map (· ++ [lf]) := by
    rw [heq] at h
    by_cases hnil : last = []
    · rw [if_pos hnil, List.append_nil] at h
      exact List.mem_of_mem_dropLast h
    · rwa [if_neg hnil, List.dropLast_concat] at h
  obtain ⟨l, -, rfl⟩ := List.mem_map.1 hended
  exact List.getLast?_concat

/-- The code points of a line are in the text. -/
theorem mem_of_mem_lines (h : line ∈ lines t) {c : CodePoint} (hc : c ∈ line) : c ∈ t := by
  rw [← flatten_lines t]
  exact List.mem_flatten.2 ⟨line, h, hc⟩

end Text

end ImportRepair
