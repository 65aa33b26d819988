import ImportRepair.Proofs.Text.Classes
import ImportRepair.Proofs.Text.Utf8

/-!
# Lines that are written and read again

Lines without line ends in them are read back from their text, whichever way each of them ends. The
one exception loses nothing that anybody looks at: after a carriage return, an empty line that ends
with a line feed is taken for a part of the ending before it.

Results:
* `lines_append`: a line that ends with a line feed is the first line of what follows.
* `filterMap_lines`: what is read from the lines of a text, line by line.
* `Utf8.decodeLenient_encodeAll`: the lenient reader reads what was written.
-/

namespace ImportRepair

/-! ## Reading leniently -/

theorem Utf8.decodeLenient_encodeAll {t : Text} (h : t.isScalar = true) :
    decodeLenient (encodeAll t) = t := by
  rw [decodeLenient, pieces_encodeAll h, List.map_map]
  exact List.map_id t

namespace Text

/-- A text on one line that can be written. -/
def IsPlain (t : Text) : Prop := ∀ c ∈ t, c.IsPlain

instance (t : Text) : Decidable t.IsPlain := List.decidableBAll CodePoint.IsPlain t

theorem IsPlain.append {t u : Text} (ht : t.IsPlain) (hu : u.IsPlain) : IsPlain (t ++ u) := by
  intro c hc
  exact (List.mem_append.1 hc).elim (ht c) (hu c)

theorem IsPlain.cons {c : CodePoint} {t : Text} (hc : c.IsPlain) (ht : t.IsPlain) :
    IsPlain (c :: t) := List.forall_mem_cons.2 ⟨hc, ht⟩

theorem IsPlain.isScalar {t : Text} (h : t.IsPlain) : t.isScalar = true := by
  rw [isScalar_iff]
  intro c hc
  exact (h c hc).2.2

theorem IsPlain.lf_not_mem {t : Text} (h : t.IsPlain) : lf ∉ t := fun hm => (h lf hm).1 rfl

theorem IsPlain.cr_not_mem {t : Text} (h : t.IsPlain) : cr ∉ t := fun hm => (h cr hm).2.1 rfl

/-! ## Line ends -/

/-- The ways in which a line can end. -/
inductive LineEnd
  | lineFeed
  | both
  | carriageReturn
deriving DecidableEq, Repr

/-- The text of a line end. -/
def LineEnd.text : LineEnd → Text
  | .lineFeed => [lf]
  | .both => [cr, lf]
  | .carriageReturn => [cr]

theorem unifyLineEnds_cons {c : CodePoint} (hc : c ≠ cr) (t : Text) :
    unifyLineEnds (c :: t) = c :: unifyLineEnds t := by
  cases t with
  | nil => exact if_neg hc
  | cons d t => rw [unifyLineEnds, if_neg hc]

theorem unifyLineEnds_append {t : Text} (ht : cr ∉ t) (rest : Text) :
    unifyLineEnds (t ++ rest) = t ++ unifyLineEnds rest := by
  induction t with
  | nil => rfl
  | cons c t ih =>
    rw [List.mem_cons, not_or] at ht
    rw [List.cons_append, unifyLineEnds_cons (Ne.symm ht.1), ih ht.2, List.cons_append]

theorem unifyLineEnds_cr_lf (t : Text) : unifyLineEnds (cr :: lf :: t) = lf :: unifyLineEnds t := by
  rw [unifyLineEnds, if_pos rfl, if_pos rfl]

theorem unifyLineEnds_cr {t : Text} (h : t.head? ≠ some lf) :
    unifyLineEnds (cr :: t) = lf :: unifyLineEnds t := by
  cases t with
  | nil => rfl
  | cons d t =>
    have hd : d ≠ lf := fun e => h (by rw [e]; rfl)
    rw [unifyLineEnds, if_pos rfl, if_neg hd]

/-! ## Lines -/

/-- A line that ends with a line feed is the first line of what follows. -/
theorem lines_append {t : Text} (ht : lf ∉ t) (rest : Text) :
    lines (t ++ lf :: rest) = (t ++ [lf]) :: lines rest := by
  induction t with
  | nil => rw [List.nil_append, lines, if_pos rfl, List.nil_append]
  | cons c t ih =>
    rw [List.mem_cons, not_or] at ht
    rw [List.cons_append, lines, if_neg (Ne.symm ht.1), ih ht.2, List.cons_append]

/-- A text without a line feed is one line. -/
theorem lines_of_lf_not_mem {t : Text} (ht : lf ∉ t) : lines t = if t = [] then [] else [t] := by
  induction t with
  | nil => rfl
  | cons c t ih =>
    rw [List.mem_cons, not_or] at ht
    rw [lines, if_neg (Ne.symm ht.1), ih ht.2, if_neg (List.cons_ne_nil c t)]
    by_cases hnil : t = []
    · rw [if_pos hnil, hnil]
    · rw [if_neg hnil]

section Reading

variable {α : Type _} {read : Text → Option α}

/-- A line feed that comes first changes nothing for a reader that gets nothing from an empty
line. -/
theorem filterMap_lines_lf (hblank : read [lf] = none) (t : Text) :
    (lines (lf :: t)).filterMap read = (lines t).filterMap read := by
  have hlines := lines_append (List.not_mem_nil (a := lf)) t
  rw [List.nil_append, List.nil_append] at hlines
  rw [hlines, List.filterMap_cons, hblank]

/-- After a line end comes what comes after it, for a reader that gets nothing from an empty
line. -/
theorem filterMap_lines_lineEnd (hblank : read [lf] = none) (e : LineEnd) {t : Text}
    (ht : t.IsPlain) (rest : Text) :
    (lines (unifyLineEnds (t ++ e.text ++ rest))).filterMap read =
      (read (t ++ [lf])).toList ++ (lines (unifyLineEnds rest)).filterMap read := by
  have hfirst : ∀ u, (lines (t ++ lf :: u)).filterMap read =
      (read (t ++ [lf])).toList ++ (lines u).filterMap read := by
    intro u
    rw [lines_append ht.lf_not_mem, List.filterMap_cons]
    cases read (t ++ [lf]) <;> rfl
  rw [List.append_assoc, unifyLineEnds_append ht.cr_not_mem]
  cases e with
  | lineFeed =>
    rw [LineEnd.text, List.singleton_append, unifyLineEnds_cons (by decide), hfirst]
  | both =>
    rw [LineEnd.text, List.cons_append, List.singleton_append, unifyLineEnds_cr_lf, hfirst]
  | carriageReturn =>
    rw [LineEnd.text, List.singleton_append]
    by_cases hhead : rest.head? = some lf
    · -- the next line is empty and becomes a part of this line's end
      obtain ⟨rest', rfl⟩ := List.head?_eq_some_iff.1 hhead
      rw [unifyLineEnds_cr_lf, hfirst, unifyLineEnds_cons (by decide), filterMap_lines_lf hblank]
    · rw [unifyLineEnds_cr hhead, hfirst]

/-- The text of lines with their ends, and of a last line without one. -/
def ofLines (ended : List (Text × LineEnd)) (last : Text) : Text :=
  (ended.flatMap fun line => line.1 ++ line.2.text) ++ last

/-- What is read from the lines of a text is what is read from the lines that it was written
from. -/
theorem filterMap_lines (hend : ∀ t, read (t ++ [lf]) = read t) (hblank : read [] = none)
    {ended : List (Text × LineEnd)} {last : Text} (hended : ∀ line ∈ ended, IsPlain line.1)
    (hlast : last.IsPlain) :
    (lines (unifyLineEnds (ofLines ended last))).filterMap read =
      (ended.map (·.1) ++ [last]).filterMap read := by
  induction ended with
  | nil =>
    have hunified : unifyLineEnds last = last := by
      have happend := unifyLineEnds_append hlast.cr_not_mem []
      rwa [List.append_nil, unifyLineEnds, List.append_nil] at happend
    rw [ofLines, List.flatMap_nil, List.nil_append, hunified, lines_of_lf_not_mem hlast.lf_not_mem,
      List.map_nil, List.nil_append]
    split
    · next hnil => rw [hnil, List.filterMap_cons, hblank]
    · rfl
  | cons line ended ih =>
    rw [List.forall_mem_cons] at hended
    have hsplit : ofLines (line :: ended) last = line.1 ++ line.2.text ++ ofLines ended last := by
      rw [ofLines, List.flatMap_cons, List.append_assoc, ofLines]
    rw [hsplit, filterMap_lines_lineEnd ((hend []).trans hblank) line.2 hended.1, ih hended.2, hend,
      List.map_cons, List.cons_append, List.filterMap_cons]
    cases read line.1 <;> rfl

end Reading

theorem isScalar_lineEnd (e : LineEnd) : e.text.isScalar = true := by
  cases e <;> decide

theorem isScalar_ofLines {ended : List (Text × LineEnd)} {last : Text}
    (hended : ∀ line ∈ ended, IsPlain line.1) (hlast : last.IsPlain) :
    (ofLines ended last).isScalar = true := by
  rw [ofLines, isScalar_append, hlast.isScalar, Bool.and_true, Text.isScalar, List.all_flatMap,
    List.all_eq_true]
  intro line hline
  show isScalar (line.1 ++ line.2.text) = true
  rw [isScalar_append, (hended line hline).isScalar, isScalar_lineEnd, Bool.and_true]

/-! ## Line ends at the end of a line -/

theorem chomp_append_lf (t : Text) : chomp (t ++ [lf]) = chomp t := by
  rw [chomp, chomp, dropRightWhile, dropRightWhile, List.reverse_append, List.reverse_singleton,
    List.singleton_append, List.dropWhile_cons_of_pos (by decide)]

theorem chomp_eq_self {t : Text} (h : t.IsPlain) : chomp t = t := by
  rw [chomp, dropRightWhile]
  cases hr : t.reverse with
  | nil => rw [List.reverse_eq_nil_iff.1 hr]; rfl
  | cons c u =>
    have hc : c.IsPlain := h c (List.mem_reverse.1 (by rw [hr]; exact List.mem_cons_self ..))
    have hkept : (decide (c = lf) || decide (c = cr)) = false := by
      rw [decide_eq_false hc.1, decide_eq_false hc.2.1, Bool.or_false]
    rw [List.dropWhile_cons_of_neg (by rw [hkept]; exact Bool.false_ne_true), ← hr,
      List.reverse_reverse]

end Text

end ImportRepair
