import ImportRepair.Console.Canvas
import ImportRepair.Journal.Basic

/-!
# The logged console

Where there is no console, the journal takes its place: every request becomes records.
-/

namespace ImportRepair.Console.Logged

/-- The severity of a message. -/
def severity : Tone → Severity
  | .info | .success => .info
  | .warning => .warning
  | .error => .error

/-- A row, each cell with the name of its column. -/
def row (columns cells : List Text) : Text :=
  Text.join ", " (List.zipWith (fun column cell => column ++ "=" ++ cell) columns cells)

/-- The records of a table: its title if it has one, then the rows. -/
def table (t : Table) : List Text :=
  (if t.title = [] then [] else [t.title]) ++ t.rows.map (row t.columns)

/-- The records of a request. -/
def records (canvas : Canvas) : Event → List (Severity × Text)
  | .message tone text => [(severity tone, text)]
  | .panel content title => [(.info, if title = [] then content else title ++ ": " ++ content)]
  | .started _ text => [(.info, text)]
  | .shown label =>
    (((canvas.table? label).map table).getD []).map fun line => (Severity.info, line)
  | .question _ | .stopped _ | .table _ _ _ | .row _ _ => []

/-- What is written to the output for a request: a question, since its answer is read from the
input. -/
def written : Event → Text
  | .question text => text ++ " "
  | _ => []

end ImportRepair.Console.Logged
