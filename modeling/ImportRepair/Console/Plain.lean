import ImportRepair.Console.Canvas
import ImportRepair.Text.Wrap

/-!
# The plain console

A console that writes line by line and uses colours only. Panels stand between two rules, the
columns of a table are filled up to their widest cell.
-/

namespace ImportRepair.Console.Plain

/-! ## Colours -/

/-- The sequence that switches to a rendition. -/
def rendition (code : Text) : Text := introducer ++ code ++ "m"

/-- Back to the usual rendition. -/
def reset : Text := rendition "0"

/-- Bright letters. -/
def bright : Text := rendition "1"

/-- Cyan letters. -/
def cyan : Text := rendition "36"

/-- The colour of a tone. -/
def colour : Tone → Text
  | .info => cyan
  | .success => rendition "32"
  | .warning => rendition "33"
  | .error => rendition "31"

/-- A line in a rendition. -/
def coloured (start line : Text) : Text := start ++ line ++ reset ++ [Text.lf]

/-! ## Panels -/

/-- The width of panels as long as nothing else is set. -/
def usualWidth : Nat := 80

/-- A rule with a title in its middle. -/
def rule (width : Nat) (title : Text) : Text :=
  if title = [] then List.replicate width ('=' : CodePoint)
  else Text.centre '=' width (" " ++ title ++ " ")

/-- A text between two rules. -/
def panel (width : Nat) (content title : Text) : List Text :=
  [coloured cyan (rule width title), content ++ [Text.lf], coloured cyan (rule width [])]

/-! ## Tables -/

/-- The length of the longest of some texts. -/
def longest (ts : List Text) : Nat := ts.foldl (fun n t => max n t.length) 0

/-- The width of each column: that of its longest cell, its name among them. -/
def widths : (columns : List Text) → (rows : List (List Text)) → List Nat
  | [], _ => []
  | column :: columns, rows =>
    longest (column :: rows.filterMap List.head?) :: widths columns (rows.map List.tail)

/-- A row with each cell filled up to the width of its column. Cells without a column are left
out. -/
def row (widths : List Nat) (cells : List Text) : Text :=
  Text.join " | " (List.zipWith Text.padRight widths cells)

/-- A table: its title if it has one, the names of the columns, a rule, the rows. -/
def table (t : Table) : List Text :=
  let widths := widths t.columns t.rows
  let header := row widths t.columns
  (if t.title = [] then [] else [t.title ++ [Text.lf]]) ++
    [coloured cyan header, List.replicate header.length ('-' : CodePoint) ++ [Text.lf]] ++
    t.rows.map fun cells => row widths cells ++ [Text.lf]

/-! ## Requests -/

/-- The texts that are written one after the other for a request. An indicator is a line that is
redrawn. -/
def prints (width : Nat) (canvas : Canvas) : Event → List Text
  | .message tone text => [coloured (colour tone) text]
  | .panel content title => panel width content title
  | .question text => [coloured (cyan ++ bright) text]
  | .started label text => [(canvas.lines.start label text).1]
  | .stopped label => [(canvas.lines.stopLabel label).1]
  | .table _ _ _ | .row _ _ => []
  | .shown label => ((canvas.table? label).map table).getD []

/-- What is written for a request. -/
def written (width : Nat) (canvas : Canvas) (e : Event) : Text := (prints width canvas e).flatten

end ImportRepair.Console.Plain
