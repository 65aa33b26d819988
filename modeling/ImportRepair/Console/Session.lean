import ImportRepair.Console.Drawn
import ImportRepair.Console.Plain
import ImportRepair.Text.Lines

/-!
# Sessions

A console in use: of what kind it is, what it keeps in mind, and what has come out of it. What a
console is asked to show does not depend on its kind, only what becomes of it does. An output may
refuse a text that holds surrogates. The plain console goes on with its next text then; the drawn
one tries the refused text again with everything that follows, and fails again.
-/

namespace ImportRepair.Console

/-! ## The kinds of consoles -/

/-- The consoles that settings can choose. -/
inductive Kind
  | plain
  /-- The drawn console, whose indicators may tell how long they have been running. -/
  | drawn (timed : Bool)
deriving DecidableEq, Repr

namespace Kind

/-- The number of parts of a running indicator, which only the drawn console has: a spinning sign, a
text, and perhaps the time. -/
def indicatorParts? : Kind → Option Nat
  | .plain => none
  | .drawn timed => some (if timed then 3 else 2)

/-- The texts that are written one after the other for a request, by a console of a width. The drawn
console writes one text. Panels of the plain console always have their usual width. -/
def prints (kind : Kind) (width : Nat) (canvas : Canvas) (e : Event) : Except Failure (List Text) :=
  match kind with
  | .plain => .ok (Plain.prints Plain.usualWidth canvas e)
  | .drawn _ => (Drawn.written width canvas e).map fun t => [t]

end Kind

/-! ## A console in use -/

/-- Where a console writes: the width of a line, and whether every text is taken. -/
structure Terminal where
  width : Nat
  lenient : Bool
deriving DecidableEq, Repr

/-- A console in use. -/
structure Session where
  kind : Kind
  terminal : Terminal
  canvas : Canvas
  output : Text
  /-- The failure that repeats itself with every further text. -/
  stuck : Option Failure

namespace Session

/-- A console that has shown nothing yet. -/
def new (kind : Kind) (terminal : Terminal) : Session := ⟨kind, terminal, .blank, [], none⟩

/-- Writes texts up to the first one that is refused. -/
def write (s : Session) : List Text → Option Failure × Session
  | [] => (none, s)
  | t :: rest =>
    match if s.terminal.lenient then none else s.stuck with
    | some e => (some e, s)
    | none =>
      match if s.terminal.lenient then .ok [] else Utf8.encode t with
      | .ok _ => write { s with output := s.output ++ t } rest
      | .error e =>
        match s.kind with
        | .plain => (some (.unprintable e false), s)
        | .drawn _ => (some (.unprintable e true), { s with stuck := some (.unprintable e true) })

/-- Shows something. A request that cannot be drawn leaves no trace. -/
def present (s : Session) (e : Event) : Option Failure × Session :=
  match s.kind.prints s.terminal.width s.canvas e with
  | .error failure => (some failure, s)
  | .ok texts => ({ s with canvas := s.canvas.after e } : Session).write texts

/-- Shows one thing after the other, whatever fails. -/
def presentAll (s : Session) (es : List Event) : Session := es.foldl (fun s e => (s.present e).2) s

end Session

/-! ## Answers

The answers in an input text, one a line. The last line counts without a line end, too.
-/

namespace Answers

/-- The answers as the plain and the drawn console read them: lines end with a line feed, and line
feeds and carriage returns at the end of an answer are dropped. -/
def chomped (input : Text) : List Text := (Text.lines input).map Text.chomp

/-- The answers as the logged console reads them: every kind of line end counts, and an answer keeps
all but its own. -/
def verbatim (input : Text) : List Text :=
  (Text.lines (Text.unifyLineEnds input)).map Text.dropLineFeed

end Answers

end ImportRepair.Console
