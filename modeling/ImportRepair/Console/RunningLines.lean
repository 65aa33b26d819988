import ImportRepair.Text.Broad
import ImportRepair.Text.Lines

/-!
# Lines that are redrawn

A running line is drawn in place, each further one a line lower, and drawn once more at the current
line when it stops. Only so many fit on the screen: the last visible place tells that there are
more, and what runs below it is not drawn until a place above becomes free.
-/

namespace ImportRepair.Console

/-- A line that is running. -/
structure RunningLine where
  label : Text
  /-- How many lines were started before it. -/
  number : Nat
  text : Text
  /-- How many lines below the current one it is drawn. -/
  place : Nat
  /-- The reach of what was drawn last, which the next drawing has to cover. -/
  drawn : Nat
deriving DecidableEq, Repr

/-- The lines that are running, and how many have been started. -/
structure RunningLines where
  lines : List RunningLine
  started : Nat
deriving DecidableEq, Repr

/-- The start of a control sequence. -/
def introducer : Text := [27, '[']

namespace RunningLine

/-- The number of places on the screen. -/
def places : Nat := 20

/-- What stands at the last place. -/
def moreBelow : Text := " ... (more hidden) ..."

/-- A text drawn at a place, from the current line and back to it. -/
def at_ (place : Nat) (t : Text) : Text :=
  List.replicate place Text.lf ++ t ++ Text.times place (introducer ++ "A")

/-- A text drawn over what was drawn last. -/
def covering (line : RunningLine) (t : Text) : Text :=
  Text.cr :: t ++ List.replicate (line.drawn - t.reach) (' ' : CodePoint)

/-- The line drawn at a place, and the line as it is then. -/
def draw (place : Nat) (line : RunningLine) : Text × RunningLine :=
  if places ≤ place then ([], line)
  else
    let t := if place + 1 = places then moreBelow else line.text
    (at_ place (line.covering t), { line with drawn := t.reach })

/-- The line cleared, and the line as it is then. -/
def clear (line : RunningLine) : Text × RunningLine :=
  if places ≤ line.place then ([], line)
  else (at_ line.place (line.covering [] ++ [Text.cr]), { line with drawn := 0 })

end RunningLine

namespace RunningLines

/-- No line is running. -/
def empty : RunningLines := ⟨[], 0⟩

/-- The first place where no line runs. -/
def freePlace (s : RunningLines) : Nat :=
  let taken := s.lines.map (·.place)
  ((List.range taken.length).find? fun place => !taken.contains place).getD taken.length

/-- The highest of the lines that are not visible. -/
def hidden? (lines : List RunningLine) : Option RunningLine :=
  (lines.filter fun line => RunningLine.places ≤ line.place + 1).foldl (fun highest line =>
    match highest with
    | some h => if line.place < h.place then some line else some h
    | none => some line) none

/-- Stops a line: a hidden one moves to its place, and it is drawn at the current line for the last
time. -/
def stop (number : Nat) (s : RunningLines) : Text × RunningLines :=
  match s.lines.find? (·.number = number) with
  | none => ([], s)
  | some line =>
    let others := s.lines.filter (·.number ≠ number)
    let (cleared, others) :=
      match hidden? others with
      | none => ([], others)
      | some hidden =>
        let (cleared, moved) := hidden.clear
        (cleared, others.map fun other =>
          if other.number = hidden.number then { moved with place := line.place } else other)
    (cleared ++ (line.draw 0).1 ++ [Text.lf], { s with lines := others })

/-- The number of the running line with a label. -/
def number? (s : RunningLines) (label : Text) : Option Nat :=
  (s.lines.find? (·.label = label)).map (·.number)

/-- Stops the line with a label, if it is running. -/
def stopLabel (label : Text) (s : RunningLines) : Text × RunningLines :=
  match s.number? label with
  | none => ([], s)
  | some number => s.stop number

/-- Starts a line. It takes the label from an older line, which stops then. -/
def start (label text : Text) (s : RunningLines) : Text × RunningLines :=
  let (drawn, line) := RunningLine.draw s.freePlace ⟨label, s.started, text, s.freePlace, 0⟩
  let next : RunningLines := ⟨s.lines ++ [line], s.started + 1⟩
  match s.number? label with
  | none => (drawn, next)
  | some older =>
    let (stopped, next) := next.stop older
    (drawn ++ stopped, next)

end RunningLines

end ImportRepair.Console
