import ImportRepair.Text.Basic

/-!
# Lines

A line ends with a line feed, a carriage return, or both in this order. Read line by line, every
ending is one line feed, and each line keeps its own.

Results:
* `flatten_lines`: the lines are the text, with nothing lost.
-/

namespace ImportRepair.Text

/-- The line feed. -/
def lf : CodePoint := 10

/-- The carriage return. -/
def cr : CodePoint := 13

/-- The text with every line ending written as a line feed. -/
def unifyLineEnds : Text → Text
  | [] => []
  | [c] => if c = cr then [lf] else [c]
  | c :: d :: t =>
    if c = cr then
      if d = lf then lf :: unifyLineEnds t else lf :: unifyLineEnds (d :: t)
    else c :: unifyLineEnds (d :: t)

/-- The lines of a text, each with the line feed that ends it. -/
def lines : Text → List Text
  | [] => []
  | c :: t =>
    if c = lf then [c] :: lines t
    else
      match lines t with
      | [] => [[c]]
      | line :: rest => (c :: line) :: rest

/-- A line without the line feeds and carriage returns at its end. -/
def chomp (t : Text) : Text := dropRightWhile (fun c => c = lf || c = cr) t

/-- A line without the one line feed at its end. -/
def dropLineFeed (t : Text) : Text := if t.getLast? = some lf then t.dropLast else t

theorem flatten_lines (t : Text) : (lines t).flatten = t := by
  induction t with
  | nil => rfl
  | cons c t ih =>
    rw [lines]
    split
    · simp [ih]
    · split
      · next h => rw [h] at ih; simp at ih; simp [← ih]
      · next line rest h => rw [h] at ih; simpa using ih

end ImportRepair.Text
