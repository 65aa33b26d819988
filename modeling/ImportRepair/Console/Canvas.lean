import ImportRepair.Console.RunningLines
import ImportRepair.Text.Basic

/-!
# What a console shows and keeps in mind

The requests that a console can be given, in the program's own terms. Tables are filled before they
are shown, and indicators run until they are stopped: A console keeps both between two requests, and
tells them apart by a label. Everything else is shown at once.
-/

namespace ImportRepair.Console

/-! ## Requests -/

/-- The tone of a message. -/
inductive Tone
  | info
  | success
  | warning
  | error
deriving DecidableEq, Repr

/-- The name of a tone. -/
def Tone.name : Tone → Text
  | .info => "info"
  | .success => "success"
  | .warning => "warning"
  | .error => "error"

/-- All tones. -/
def Tone.all : List Tone := [.info, .success, .warning, .error]

/-- The tone with a name. -/
def Tone.ofName? (name : Text) : Option Tone := Tone.all.find? (·.name = name)

/-- A request to a console. -/
inductive Event
  /-- One message. -/
  | message (tone : Tone) (text : Text)
  /-- A framed text with a title, which may be empty. -/
  | panel (content title : Text)
  /-- A question; the answer comes from elsewhere. -/
  | question (text : Text)
  /-- An indicator starts running. -/
  | started (label text : Text)
  /-- An indicator stops. -/
  | stopped (label : Text)
  /-- A table is begun. -/
  | table (label : Text) (columns : List Text) (title : Text)
  /-- A row is added to a table. -/
  | row (label : Text) (cells : List Text)
  /-- A table is shown with its rows. -/
  | shown (label : Text)
deriving DecidableEq, Repr

/-! ## What is kept between requests -/

/-- A table that is being filled. A row may have more or fewer cells than there are columns. -/
structure Table where
  columns : List Text
  title : Text
  rows : List (List Text)
deriving DecidableEq, Repr

/-- An indicator that was started. -/
structure Indicator where
  label : Text
  running : Bool
deriving DecidableEq, Repr

/-- The tables begun and the indicators started so far, and the lines on which a console
without boxes draws them. -/
structure Canvas where
  tables : List (Text × Table)
  indicators : List Indicator
  lines : RunningLines
deriving DecidableEq, Repr

namespace Canvas

/-- A canvas on which nothing has been drawn. -/
def blank : Canvas := ⟨[], [], .empty⟩

/-- The table with a label. -/
def table? (canvas : Canvas) (label : Text) : Option Table := canvas.tables.lookup label

/-- The last indicator with a label, and how many were started before it. -/
def indicator? (canvas : Canvas) (label : Text) : Option (Indicator × Nat) :=
  (canvas.indicators.zipIdx.filter (·.1.label = label)).getLast?

/-- The indicators that are not stopped yet. -/
def running (canvas : Canvas) : List Indicator := canvas.indicators.filter (·.running)

/-- The canvas after a request. -/
def after (canvas : Canvas) : Event → Canvas
  | .started label text =>
    { canvas with
      indicators := canvas.indicators ++ [⟨label, true⟩]
      lines := (canvas.lines.start label text).2 }
  | .stopped label =>
    match canvas.indicator? label with
    | none => canvas
    | some (_, number) =>
      { canvas with
        indicators := canvas.indicators.modify number fun i => { i with running := false }
        lines := (canvas.lines.stopLabel label).2 }
  | .table label columns title =>
    { canvas with tables := (label, ⟨columns, title, []⟩) :: canvas.tables.filter (·.1 ≠ label) }
  | .row label cells =>
    { canvas with tables := canvas.tables.map fun (l, t) =>
        if l = label then (l, { t with rows := t.rows ++ [cells] }) else (l, t) }
  | .message _ _ | .panel _ _ | .question _ | .shown _ => canvas

end Canvas

end ImportRepair.Console
