import ImportRepair.Console.Session
import ImportRepair.Proofs.Text.Lines
import ImportRepair.World

/-!
# How consoles read answers

The plain console reads a line and takes an empty one for the end of the input. The drawn console
asks for a line without its line feed, and fails at the end of the input, which it takes for an
absent answer. Both drop the line ends that are left. So they read the same answers, also from blank
lines, from lines that end with carriage returns, and from a last line that does not end.

Results:
* `Console.Kind.readAll_eq`: both consoles read the lines of an input without their line ends.
* `World.answer_readAll`: the answers of a world are read from its input one by one.
-/

namespace ImportRepair

namespace Text

/-! ## Lines one by one -/

/-- The next line of an input, with its line feed, and what is left. At the end of the
input, the line is empty. -/
def readLine : Text → Text × Text
  | [] => ([], [])
  | c :: t => if c = lf then ([c], t) else (c :: (readLine t).1, (readLine t).2)

theorem readLine_append (t : Text) : (readLine t).1 ++ (readLine t).2 = t := by
  induction t with
  | nil => rfl
  | cons c t ih =>
    rw [readLine]
    split
    · rfl
    · exact congrArg (c :: ·) ih

theorem readLine_ne_nil {t : Text} (h : t ≠ []) : (readLine t).1 ≠ [] := by
  cases t with
  | nil => exact absurd rfl h
  | cons c t =>
    rw [readLine]
    split <;> exact List.cons_ne_nil _ _

/-- Something is left out of what is left, unless the input has ended. -/
theorem length_readLine {t : Text} (h : (readLine t).1 ≠ []) :
    (readLine t).2.length < t.length := by
  have hlength := congrArg List.length (readLine_append t)
  have hpos := List.length_pos_of_ne_nil h
  rw [List.length_append] at hlength
  omega

/-- The lines of a text are those that are read one by one. -/
theorem lines_eq_cons {t : Text} (h : t ≠ []) :
    lines t = (readLine t).1 :: lines (readLine t).2 := by
  induction t with
  | nil => exact absurd rfl h
  | cons c t ih =>
    rw [lines, readLine]
    split
    · rfl
    · cases t with
      | nil => rfl
      | cons d t => rw [ih (List.cons_ne_nil d t)]

/-- A line feed that is dropped is one of the line ends that are dropped. -/
theorem chomp_dropLineFeed (t : Text) : chomp (dropLineFeed t) = chomp t := by
  rw [dropLineFeed]
  split
  · next hlast =>
    obtain ⟨u, rfl⟩ := List.getLast?_eq_some_iff.1 hlast
    rw [List.dropLast_concat, chomp_append_lf]
  · rfl

end Text

/-! ## Answers -/

namespace Console

/-- The next line of an input without its line feed, and what is left. There is none at
the end of the input. -/
def input (text : Text) : Option Text × Text :=
  (if (Text.readLine text).1 = [] then none else some (Text.dropLineFeed (Text.readLine text).1),
    (Text.readLine text).2)

namespace Kind

/-- The answer that a console reads, and what is left of the input. There is none at
the end of the input. -/
def read (kind : Kind) (text : Text) : Option Text × Text :=
  match kind with
  | .plain =>
    (if (Text.readLine text).1 = [] then none else some (Text.chomp (Text.readLine text).1),
      (Text.readLine text).2)
  | .drawn _ => ((input text).1.map Text.chomp, (input text).2)

theorem read_nil (kind : Kind) : kind.read [] = (none, []) := by
  cases kind <;> rfl

/-- Both consoles read a line without the line ends at its end. -/
theorem read_of_ne_nil (kind : Kind) {text : Text} (h : text ≠ []) :
    kind.read text = (some (Text.chomp (Text.readLine text).1), (Text.readLine text).2) := by
  have hline := Text.readLine_ne_nil h
  cases kind with
  | plain => rw [read, if_neg hline]
  | drawn timed => rw [read, input, if_neg hline, Option.map_some, Text.chomp_dropLineFeed]

/-- The answers that a console reads up to the end of the input. -/
def readAll (kind : Kind) (text : Text) : List (Option Text) :=
  if _ : text = [] then []
  else (kind.read text).1 :: kind.readAll (kind.read text).2
termination_by text.length
decreasing_by
  rw [kind.read_of_ne_nil ‹_›]
  exact Text.length_readLine (Text.readLine_ne_nil ‹_›)

/-- Both consoles read the lines of an input without their line ends. -/
theorem readAll_eq (kind : Kind) (text : Text) :
    kind.readAll text = (Answers.chomped text).map some := by
  induction text using readAll.induct kind with
  | case1 =>
    rw [readAll]
    rfl
  | case2 text h ih =>
    have hread := kind.read_of_ne_nil h
    rw [hread] at ih
    rw [readAll, dif_neg h, hread, ih, Answers.chomped, Answers.chomped, Text.lines_eq_cons h]
    rfl

end Kind

end Console

/-- The answers of a world are read from its input one by one. -/
theorem World.answer_readAll (w : World) (kind : Console.Kind) (text : Text) :
    { w with answers := kind.readAll text }.answer =
      ((kind.read text).1, { w with answers := kind.readAll (kind.read text).2 }) := by
  rw [Console.Kind.readAll]
  split
  · next h =>
    rw [h, kind.read_nil, Console.Kind.readAll]
    rfl
  · rfl

end ImportRepair
