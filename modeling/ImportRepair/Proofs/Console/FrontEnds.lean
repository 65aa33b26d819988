import ImportRepair.Proofs.Console.Reading
import ImportRepair.Text.Classes
import Mathlib.Data.List.TakeWhile

/-!
# The answers of the front ends

There are four front ends for questions. Two of them read a line of a stream: the plain console, and
the drawn one if it is given a stream. They take an empty line for the end of the stream, before
they drop the line ends. The drawn console without a stream and the journal in the place of a
console ask for a line that has no line feed, which fails at the end of the input; the journal keeps
what is left at the end of the line. A blank line is never taken for the end of the input, nor is a
last line lost that does not end, and what is kept at the end of a line is blank.

A stream may unify line ends when it is read. The texts here are those that it gives, so this is
done for all front ends or for none.

Results:
* `Console.FrontEnd.readAll_eq`: every front end reads the lines of an input one by one.
* `Console.FrontEnd.answer_readAll`: the answers of a world are read from its input one by one.
* `Console.FrontEnd.readAll_plain`, `Console.FrontEnd.readAll_logged`: which
  answers a command runs on.
* `Console.FrontEnd.strip_kept`: without the blanks at its ends, an answer is its
  line at every front end.
-/

namespace ImportRepair

/-! ## Blanks at the end of a line -/

namespace Text

variable {t u : Text}

/-- Blanks at the end of a text are stripped. -/
theorem strip_append_blank (t : Text) (hu : ∀ c ∈ u, c.isBlank = true) :
    strip (t ++ u) = strip t := by
  have hnone : u.dropWhile CodePoint.isBlank = [] := List.dropWhile_eq_nil_iff.2 hu
  have hreverse : u.reverse.dropWhile CodePoint.isBlank = [] :=
    List.dropWhile_eq_nil_iff.2 fun c hc => hu c (List.mem_reverse.1 hc)
  rw [strip, strip, List.dropWhile_append]
  split
  · next hblank => rw [hnone, List.isEmpty_iff.1 hblank]
  · rw [dropRightWhile, dropRightWhile, List.reverse_append, List.dropWhile_append, hreverse]
    rfl

theorem strip_dropRightWhile {p : CodePoint → Bool} (hp : ∀ c, p c = true → c.isBlank = true)
    (t : Text) :
    strip (dropRightWhile p t) = strip t := by
  have hsplit : dropRightWhile p t ++ (t.reverse.takeWhile p).reverse = t := by
    rw [dropRightWhile, ← List.reverse_append, List.takeWhile_append_dropWhile,
      List.reverse_reverse]
  have hblank : ∀ c ∈ (t.reverse.takeWhile p).reverse, c.isBlank = true :=
    fun c hc => hp c (List.mem_takeWhile_imp (List.mem_reverse.1 hc))
  rw [← strip_append_blank (dropRightWhile p t) hblank, hsplit]

theorem strip_chomp (t : Text) : strip (chomp t) = strip t := by
  refine strip_dropRightWhile (fun c hc => ?_) t
  rw [Bool.or_eq_true, decide_eq_true_eq, decide_eq_true_eq] at hc
  obtain rfl | rfl := hc <;> decide

theorem strip_dropLineFeed (t : Text) : strip (dropLineFeed t) = strip t := by
  rw [← strip_chomp, chomp_dropLineFeed, strip_chomp]

end Text

/-! ## Front ends -/

namespace Console

/-- Where questions are asked and answers are read. -/
inductive FrontEnd
  /-- The plain console, which reads a stream. -/
  | plain
  /-- The drawn console with a stream to read. -/
  | streamed (timed : Bool)
  /-- The drawn console without a stream. -/
  | drawn (timed : Bool)
  /-- The journal in the place of a console. -/
  | logged
deriving DecidableEq, Repr

namespace FrontEnd

/-- The answer that a front end reads, and what is left of the input. There is none at
the end of the input. -/
def read (front : FrontEnd) (text : Text) : Option Text × Text :=
  match front with
  | .plain => Kind.plain.read text
  | .streamed _ =>
    (if (Text.readLine text).1 = [] then none else some (Text.chomp (Text.readLine text).1),
      (Text.readLine text).2)
  | .drawn timed => (Kind.drawn timed).read text
  | .logged => input text

/-- What a front end keeps of a line. -/
def kept : FrontEnd → Text → Text
  | .logged => Text.dropLineFeed
  | _ => Text.chomp

/-- Without the blanks at its ends, an answer is its line. -/
theorem strip_kept (front : FrontEnd) (line : Text) :
    Text.strip (front.kept line) = Text.strip line := by
  cases front with
  | logged => exact Text.strip_dropLineFeed line
  | _ => exact Text.strip_chomp line

theorem read_nil (front : FrontEnd) : front.read [] = (none, []) := by
  cases front <;> rfl

/-- Before the end of the input, every front end reads a line, also a blank one. -/
theorem read_of_ne_nil (front : FrontEnd) {text : Text} (h : text ≠ []) :
    front.read text = (some (front.kept (Text.readLine text).1), (Text.readLine text).2) := by
  have hline := Text.readLine_ne_nil h
  cases front with
  | plain => exact Kind.plain.read_of_ne_nil h
  | streamed timed => exact Kind.plain.read_of_ne_nil h
  | drawn timed => exact (Kind.drawn timed).read_of_ne_nil h
  | logged => rw [read, input, if_neg hline, kept]

/-- The answers that a front end reads up to the end of the input. -/
def readAll (front : FrontEnd) (text : Text) : List (Option Text) :=
  if _ : text = [] then []
  else (front.read text).1 :: front.readAll (front.read text).2
termination_by text.length
decreasing_by
  rw [front.read_of_ne_nil ‹_›]
  exact Text.length_readLine (Text.readLine_ne_nil ‹_›)

/-- Every front end reads the lines of an input one by one. -/
theorem readAll_eq (front : FrontEnd) (text : Text) :
    front.readAll text = ((Text.lines text).map front.kept).map some := by
  induction text using readAll.induct front with
  | case1 =>
    rw [readAll]
    rfl
  | case2 text h ih =>
    have hread := front.read_of_ne_nil h
    rw [hread] at ih
    rw [readAll, dif_neg h, hread, ih, Text.lines_eq_cons h, List.map_cons, List.map_cons]

/-- The answers of a world are read from its input one by one. -/
theorem answer_readAll (front : FrontEnd) (text : Text) (w : World) :
    { w with answers := front.readAll text }.answer =
      ((front.read text).1, { w with answers := front.readAll (front.read text).2 }) := by
  rw [readAll]
  split
  · next h =>
    rw [h, front.read_nil, readAll]
    rfl
  · rfl

/-- Without a console, the input is read with unified line ends. -/
theorem readAll_logged (text : Text) :
    logged.readAll (Text.unifyLineEnds text) = (Answers.verbatim text).map some :=
      readAll_eq logged _

/-- With a stream, the consoles read what the stream gives. -/
theorem readAll_plain (text : Text) : plain.readAll text = (Answers.chomped text).map some :=
  readAll_eq plain _

/-! ## Worlds with a front end -/

/-- The console of a front end, which has shown nothing yet. -/
def console? (terminal : Terminal) : FrontEnd → Option Session
  | .plain => some (.new .plain terminal)
  | .streamed timed | .drawn timed => some (.new (.drawn timed) terminal)
  | .logged => none

/-- A world with a front end, and an input that it reads. -/
def attend (front : FrontEnd) (terminal : Terminal) (text : Text) (w : World) : World :=
  { w with console := front.console? terminal, answers := front.readAll text }

end FrontEnd

end Console

end ImportRepair
