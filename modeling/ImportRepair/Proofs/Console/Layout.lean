import ImportRepair.Console.Session
import Mathlib.Order.Bounds.Basic
import Mathlib.Tactic

/-!
# How a plain table is laid out

The plain console makes each column as wide as its longest cell, and puts a bar between two columns.
So a cell of a column starts at the same index in every line that has it, whatever the other cells
are. Rows may have cells without a column, which are left out, and columns may be without a cell in
a row, which then ends early.

Results:
* `Plain.isGreatest_widths`: the width of a column is the length of its longest cell.
* `Plain.IsLaidOut`: what a line of a table shows, index by index.
* `Plain.isLaidOut_row`: a row whose cells fit into their columns is laid out.
* `Plain.prints_table`: a table that was filled row by row is shown with its names, a
  rule, and its rows laid out.
-/

namespace ImportRepair.Console

/-! ## Filling a table -/

namespace Canvas

variable {canvas : Canvas} {label : Text} {t : Table}

/-- A table that is begun has no rows, also if there was one with its label before. -/
theorem table?_after_table (columns : List Text) (title : Text) :
    (canvas.after (.table label columns title)).table? label = some ⟨columns, title, []⟩ := by
  simp [after, table?]

theorem lookup_map_label (f : Table → Table) (label : Text) (tables : List (Text × Table)) :
    (tables.map fun (l, t) => if l = label then (l, f t) else (l, t)).lookup label =
      (tables.lookup label).map f := by
  induction tables with
  | nil => rfl
  | cons entry tables ih =>
    obtain ⟨l, t⟩ := entry
    by_cases hl : l = label
    · simp [hl]
    · have hne : (label == l) = false := by simpa using Ne.symm hl
      simp only [List.map_cons, if_neg hl, List.lookup_cons, hne, ih]

/-- A row comes after the rows that the table has. -/
theorem table?_after_row (h : canvas.table? label = some t) (cells : List Text) :
    (canvas.after (.row label cells)).table? label = some { t with rows := t.rows ++ [cells] } := by
  rw [table?] at h
  rw [table?, after, lookup_map_label (fun t => { t with rows := t.rows ++ [cells] }), h]
  rfl

/-- Rows come after the rows that the table has, in the order in which they are added. -/
theorem table?_after_rows (h : canvas.table? label = some t) (rows : List (List Text)) :
    ((rows.map (Event.row label)).foldl after canvas).table? label =
      some { t with rows := t.rows ++ rows } := by
  induction rows generalizing canvas t with
  | nil => simpa using h
  | cons cells rows ih =>
    rw [List.map_cons, List.foldl_cons, ih (table?_after_row h cells)]
    simp

end Canvas

namespace Plain

/-! ## The widths of the columns -/

theorem foldl_length (ts : List Text) (n : Nat) :
    ts.foldl (fun n t => max n t.length) n = max n (longest ts) := by
  induction ts generalizing n with
  | nil => simp [longest]
  | cons t ts ih =>
    rw [longest, List.foldl_cons, List.foldl_cons, ih, ih]
    omega

theorem longest_cons (t : Text) (ts : List Text) :
    longest (t :: ts) = max t.length (longest ts) := by
  rw [longest, List.foldl_cons, foldl_length, Nat.zero_max]

theorem isGreatest_longest (t : Text) (ts : List Text) :
    IsGreatest {n | ∃ u ∈ t :: ts, n = u.length} (longest (t :: ts)) := by
  induction ts generalizing t with
  | nil => simp [longest, IsGreatest, upperBounds]
  | cons u ts ih =>
    obtain ⟨⟨v, hv, hlength⟩, hbound⟩ := ih u
    rw [longest_cons]
    constructor
    · obtain hmax | hmax := Nat.le_total (longest (u :: ts)) t.length
      · exact ⟨t, List.mem_cons_self .., Nat.max_eq_left hmax⟩
      · exact ⟨v, List.mem_cons_of_mem t hv, (Nat.max_eq_right hmax).trans hlength⟩
    · rintro n ⟨x, hx, rfl⟩
      obtain rfl | hx := List.mem_cons.1 hx
      · exact Nat.le_max_left ..
      · exact (hbound ⟨x, hx, rfl⟩).trans (Nat.le_max_right ..)

/-- The cells of a column, its name among them. -/
def column (columns : List Text) (rows : List (List Text)) (j : Nat) : List Text :=
  columns[j]?.toList ++ rows.filterMap (·[j]?)

/-- The cells of a column are those of the column before it in what comes after the first column. -/
theorem column_cons_succ (name : Text) (columns : List Text) (rows : List (List Text)) (j : Nat) :
    column (name :: columns) rows (j + 1) = column columns (rows.map List.tail) j := by
  simp [column, List.filterMap_map]

theorem length_widths (columns : List Text) (rows : List (List Text)) :
    (widths columns rows).length = columns.length := by
  induction columns generalizing rows with
  | nil => rfl
  | cons name columns ih => rw [widths, List.length_cons, List.length_cons, ih]

/-- The width of a column is the length of its longest cell. -/
theorem isGreatest_widths (columns : List Text) (rows : List (List Text)) :
    ∀ j (h : j < (widths columns rows).length),
      IsGreatest {n | ∃ cell ∈ column columns rows j, n = cell.length}
        (widths columns rows)[j] := by
  induction columns generalizing rows with
  | nil =>
    intro j h
    cases h
  | cons name columns ih =>
    intro j h
    cases j with
    | zero =>
      have hcolumn : column (name :: columns) rows 0 = name :: rows.filterMap List.head? := by
        simp [column, List.head?_eq_getElem?]
      rw [hcolumn]
      exact isGreatest_longest name _
    | succ j =>
      rw [column_cons_succ]
      exact ih (rows.map List.tail) j (by simpa [widths] using h)

/-! ## Lines of a table -/

/-- The index at which a column starts: each column before it takes its width, and three more
for the bar behind it. -/
def start (widths : List Nat) (i : Nat) : Nat := ((widths.take i).map (· + 3)).sum

@[simp] theorem start_zero (widths : List Nat) : start widths 0 = 0 := rfl

@[simp] theorem start_cons_succ (width : Nat) (widths : List Nat) (i : Nat) :
    start (width :: widths) (i + 1) = width + 3 + start widths i := rfl

/-- A line shows cells in columns of some widths. -/
structure IsLaidOut (widths : List Nat) (cells : List Text) (line : Text) : Prop where
  /-- A cell that has a column is not longer than it, starts where it starts, and is followed by
  blanks up to its end. -/
  cell : ∀ i (hw : i < widths.length) (hc : i < cells.length), cells[i].length ≤ widths[i] ∧
    (line.drop (start widths i)).take widths[i] =
      cells[i] ++ List.replicate (widths[i] - cells[i].length) (' ' : CodePoint)
  /-- A bar stands before every column but the first. -/
  bar : ∀ i, 0 < i → i < min cells.length widths.length →
    (line.drop (start widths i - 3)).take 3 = " | "
  /-- The line ends with the last column that has a cell. -/
  length : line.length = start widths (min cells.length widths.length) - 3

variable {width : Nat} {widths : List Nat} {name cell : Text}
  {columns cells : List Text} {line : Text}

theorem length_padRight (h : cell.length ≤ width) : (Text.padRight width cell).length = width := by
  simp [Text.padRight]
  omega

/-- A line without columns or without cells is empty. -/
theorem isLaidOut_nil (h : widths = [] ∨ cells = []) : IsLaidOut widths cells [] := by
  have hmin : min cells.length widths.length = 0 := by
    obtain rfl | rfl := h <;> simp
  refine ⟨fun i hw hc => by omega, fun i _ hi => by omega, ?_⟩
  rw [hmin]
  rfl

/-- A line with one cell. -/
theorem isLaidOut_single (h : widths = [] ∨ cells = []) (hfit : cell.length ≤ width) :
    IsLaidOut (width :: widths) (cell :: cells) (Text.padRight width cell) := by
  have hmin : min (cell :: cells).length (width :: widths).length = 1 := by
    obtain rfl | rfl := h <;> simp
  refine ⟨?_, fun i _ hi => by omega, ?_⟩
  · intro i hw hc
    obtain rfl : i = 0 := by omega
    refine ⟨hfit, ?_⟩
    rw [start_zero, List.drop_zero, List.getElem_cons_zero,
      List.take_of_length_le (length_padRight hfit).le]
    rfl
  · rw [hmin, length_padRight hfit]
    simp

/-- One more cell, with a bar behind it, before a line that has at least one. -/
theorem IsLaidOut.cons (h : IsLaidOut widths cells line) (hw : widths ≠ []) (hc : cells ≠ [])
    (hfit : cell.length ≤ width) :
    IsLaidOut (width :: widths) (cell :: cells) (Text.padRight width cell ++ (" | " ++ line)) := by
  have hpad := length_padRight hfit
  -- what comes behind the bar is the line
  have hrest : ∀ n, (Text.padRight width cell ++ ((" | " : Text) ++ line)).drop (width + 3 + n) =
      line.drop n := by
    intro n
    have hfront : (Text.padRight width cell ++ (" | " : Text)).length = width + 3 := by
      rw [List.length_append, hpad]
      rfl
    rw [← List.append_assoc, ← List.drop_drop, List.drop_left' hfront]
  have hlong : ∀ i, 3 ≤ start widths (i + 1) := by
    obtain ⟨v, widths, rfl⟩ := List.exists_cons_of_ne_nil hw
    intro i
    rw [start_cons_succ]
    omega
  refine ⟨?_, ?_, ?_⟩
  · intro i hw hc
    cases i with
    | zero =>
      refine ⟨hfit, ?_⟩
      rw [start_zero, List.drop_zero, List.getElem_cons_zero, List.take_left' hpad]
      rfl
    | succ i =>
      rw [start_cons_succ, hrest]
      exact h.cell i (by simpa using hw) (by simpa using hc)
  · intro i hpos hi
    obtain ⟨i, rfl⟩ : ∃ j, i = j + 1 := ⟨i - 1, by omega⟩
    rw [start_cons_succ]
    cases i with
    | zero =>
      rw [start_zero, Nat.add_zero, Nat.add_sub_cancel, List.drop_left' hpad]
      rfl
    | succ i =>
      rw [Nat.add_sub_assoc (hlong i), hrest]
      exact h.bar (i + 1) (by omega) (by simp at hi ⊢; omega)
  · obtain ⟨m, hm⟩ : ∃ m, min cells.length widths.length = m + 1 := by
      have hwidths := List.length_pos_of_ne_nil hw
      have hcells := List.length_pos_of_ne_nil hc
      exact ⟨min cells.length widths.length - 1, by omega⟩
    have hmin : min (cell :: cells).length (width :: widths).length = m + 1 + 1 := by
      rw [← hm]
      simp
    have hbar : (" | " : Text).length = 3 := rfl
    have hlength := h.length
    have hlast := hlong m
    rw [hm] at hlength
    rw [hmin, start_cons_succ, List.length_append, List.length_append, hpad, hbar, hlength]
    omega

/-- A row whose cells fit into their columns is laid out. -/
theorem isLaidOut_row
    (hfit : ∀ i (hw : i < widths.length) (hc : i < cells.length), cells[i].length ≤ widths[i]) :
    IsLaidOut widths cells (row widths cells) := by
  induction widths generalizing cells with
  | nil => exact isLaidOut_nil (Or.inl rfl)
  | cons width widths ih =>
    cases cells with
    | nil => exact isLaidOut_nil (Or.inr rfl)
    | cons cell cells =>
      have hfirst : cell.length ≤ width := hfit 0 (by simp) (by simp)
      have hrest := @ih cells fun i hw hc => hfit (i + 1) (by simpa using hw) (by simpa using hc)
      cases widths with
      | nil => exact isLaidOut_single (Or.inl rfl) hfirst
      | cons v widths =>
        cases cells with
        | nil => exact isLaidOut_single (Or.inr rfl) hfirst
        | cons u cells =>
          have hrow : row (width :: v :: widths) (cell :: u :: cells) =
              Text.padRight width cell ++ (" | " ++ row (v :: widths) (u :: cells)) :=
                List.append_assoc ..
          rw [hrow]
          exact hrest.cons (List.cons_ne_nil v widths) (List.cons_ne_nil u cells) hfirst

/-! ## Tables -/

/-- A table that was begun and filled row by row is shown as its title, if it has one, the names of
its columns, a rule, and a line for each row. The columns are as wide as their longest cells, and
all lines are laid out in them. The rule and the lines of rows without a missing cell are as long as
the line of the names. -/
theorem prints_table (width : Nat) (canvas : Canvas) (label title : Text) (columns : List Text)
    (rows : List (List Text)) :
    ∃ (widths : List Nat) (header rule : Text) (lines : List Text),
      Kind.plain.prints width
          ((Event.table label columns title :: rows.map (Event.row label)).foldl
            Canvas.after canvas) (.shown label) =
        .ok ((if title = [] then [] else [title ++ [Text.lf]]) ++
          [coloured cyan header, rule ++ [Text.lf]] ++ lines.map (· ++ [Text.lf])) ∧
      widths.length = columns.length ∧
      (∀ j (h : j < widths.length),
        IsGreatest {n | ∃ cell ∈ column columns rows j, n = cell.length} widths[j]) ∧
      IsLaidOut widths columns header ∧
      rule = List.replicate header.length ('-' : CodePoint) ∧
      List.Forall₂ (fun cells line => IsLaidOut widths cells line ∧
        (columns.length ≤ cells.length → line.length = header.length)) rows lines := by
  have hwidths := length_widths columns rows
  have hgreatest := isGreatest_widths columns rows
  -- no cell is longer than its column
  have hfit : ∀ cells, cells = columns ∨ cells ∈ rows →
      IsLaidOut (widths columns rows) cells (row (widths columns rows) cells) := by
    intro cells hcells
    apply isLaidOut_row
    intro i hw hc
    apply (hgreatest i hw).2
    refine ⟨cells[i], ?_, rfl⟩
    rw [column, List.mem_append, Option.mem_toList, List.mem_filterMap]
    obtain rfl | hcells := hcells
    · exact Or.inl (List.getElem?_eq_getElem hc)
    · exact Or.inr ⟨cells, hcells, List.getElem?_eq_getElem hc⟩
  refine ⟨widths columns rows, row (widths columns rows) columns, _,
    rows.map (row (widths columns rows)), ?_,
    hwidths, hgreatest, hfit columns (Or.inl rfl), rfl, ?_⟩
  · have hbegun : (canvas.after (.table label columns title)).table? label =
        some ⟨columns, title, []⟩ :=
      Canvas.table?_after_table columns title
    have htable := Canvas.table?_after_rows hbegun rows
    rw [List.nil_append] at htable
    rw [List.foldl_cons, Kind.prints, prints, htable]
    simp [table]
  · rw [List.forall₂_map_right_iff, List.forall₂_same]
    intro cells hcells
    refine ⟨hfit cells (Or.inr hcells), fun hfull => ?_⟩
    rw [(hfit cells (Or.inr hcells)).length, (hfit columns (Or.inl rfl)).length, hwidths,
      Nat.min_eq_right hfull, Nat.min_self]

/-- A row with too few cells and one with too many. -/
example : table ⟨["A", "Name"], "T", [["long"], ["1", "x", "left out"]]⟩ =
    (["T\n", "\x1b[36mA    | Name\x1b[0m\n", "-----------\n", "long\n",
      "1    | x   \n"] : List Text) := by
  decide

end Plain

end ImportRepair.Console
