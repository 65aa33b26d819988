import ImportRepair.Console.Canvas
import ImportRepair.Console.Markup
import ImportRepair.Decimal.Binary64
import ImportRepair.Failure
import ImportRepair.Text.Wrap

/-!
# The drawn console

A console that draws boxes and breaks lines at its width. A text is shown as it is: what could be
read as markup in it is escaped. A running indicator is seen on a terminal only.
-/

namespace ImportRepair.Console

/-! ## The widths of columns

Columns that do not fit are made narrower: the widest ones are cut down to the next widest, evenly
and as far as needed, until all fit.
-/

namespace Columns

/-- The cells that columns take together. -/
def total (widths : List Nat) : Nat := widths.foldl (· + ·) 0

/-- Takes cells from the marked columns, `excess` in all and at most `limit` from each; `count` of
them are still to come. -/
def take (limit : Nat) : (excess count : Nat) → List (Nat × Bool) → List Nat
  | _, _, [] => []
  | excess, count, (width, false) :: rest => width :: take limit excess count rest
  | excess, count, (width, true) :: rest =>
    let part := min limit (Binary64.roundDiv excess count)
    (width - part) :: take limit (excess - part) (count - 1) rest

/-- Cuts the widest columns down to the next widest, or as far as needed. -/
def narrowOnce (available : Nat) (widths : List Nat) : List Nat :=
  let excess := total widths - available
  let widest := widths.foldl max 0
  let next := (widths.filter (· ≠ widest)).foldl max 0
  take (min excess (widest - next)) excess (widths.filter (· = widest)).length
    (widths.map fun width => (width, width = widest))

/-- Narrows columns until they fit, within a number of steps. -/
def narrowWithin (available : Nat) : (steps : Nat) → List Nat → List Nat
  | 0, widths => widths
  | steps + 1, widths =>
    if total widths ≤ available then widths
    else narrowWithin available steps (narrowOnce available widths)

/-- Columns narrowed until they fit. Each step takes at least one cell. -/
def narrow (available : Nat) (widths : List Nat) : List Nat :=
  narrowWithin available (total widths - available) widths

end Columns

namespace Drawn

/-- Lines, each cut at the width of the console and ended by a line feed. -/
def ended (width : Nat) (lines : List Text) : Text :=
  lines.flatMap fun line => Text.cut .fold width line ++ [Text.lf]

/-- A code point repeated. -/
def line (c : Char) (length : Nat) : Text := List.replicate length (c : CodePoint)

/-! ## Panels -/

/-- The upper edge of a panel. -/
def panelTop (width : Nat) (title : Text) : Text :=
  if title = [] ∨ width ≤ 4 then "╭" ++ line '─' (width - 2) ++ "╮"
  else
    let title := Text.expandTabs ((Markup.shown (Markup.escape title)).map fun c =>
      if c = Text.lf then (' ' : CodePoint) else c)
    let title := Text.cut .fold (width - 4) (" " ++ title ++ " ")
    "╭─" ++ Text.trimBeyond (width - 4) (Text.centreCells '─' (width - 4) title) ++ "─╮"

/-- A text in a box with a title in its upper edge. A box without room has no lines. -/
def panel (width : Nat) (content title : Text) : Text :=
  let lines :=
    if width ≤ 4 then [] else Text.wrap .fold (width - 4) (Markup.shown (Markup.escape content))
  ended width ([panelTop width title] ++
    lines.map (fun l => "│ " ++ Text.padCells (width - 4) l ++ " │") ++
    ["╰" ++ line '─' (width - 2) ++ "╯"])

/-! ## Tables -/

/-- The number of cells of the longest line of a text, where every kind of line end counts. -/
def extent (t : Text) : Nat :=
  let isEnd (c : CodePoint) : Bool :=
    (10 ≤ c.val && c.val ≤ 13) || (28 ≤ c.val && c.val ≤ 30) || c.val = 0x85 || c.val = 0x2028 ||
      c.val = 0x2029
  ((Text.splitAt Text.lf (t.map fun c => if isEnd c then Text.lf else c)).map
    Text.cells).foldl max 0

/-- The names of the columns. Cells beyond them get columns without a name. -/
def headers (t : Table) : List Text :=
  let count := (t.rows.map List.length).foldl max t.columns.length
  t.columns.map Markup.shown ++ List.replicate (count - t.columns.length) []

/-- The rows as they are shown, each with a cell for every column. -/
def cells (t : Table) : List (List Text) :=
  let count := (headers t).length
  t.rows.map fun row =>
    (row.map fun cell => Markup.shown (Markup.escape cell)) ++
      List.replicate (count - row.length) []

/-- The width of each column with a blank on both sides, at most what is available. -/
def naturalWidths (available : Nat) : (headers : List Text) → (rows : List (List Text)) → List Nat
  | [], _ => []
  | header :: headers, rows =>
    min available (((header :: rows.filterMap List.head?).map extent).foldl max 0 + 2) ::
      naturalWidths available headers (rows.map List.tail)

/-- The lines of a cell, in a column of a width. -/
def cellLines (width : Nat) (cell : Text) : List Text :=
  if width ≤ 2 then []
  else (Text.wrap .ellipsis (width - 2) cell).map fun l => " " ++ Text.padCells (width - 2) l ++ " "

/-- A row in lines, at least one. A lower cell ends at the foot of the row if `atFoot`, else
it starts at its head. -/
def rowLines (atFoot : Bool) (left between right : Text) (widths : List Nat) (cells : List Text) :
    List Text :=
  let blocks := List.zipWith (fun width cell => (width, cellLines width cell)) widths cells
  let height := (blocks.map (·.2.length)).foldl max 1
  let level (block : Nat × List Text) : List Text :=
    let blanks := List.replicate (height - block.2.length) (line ' ' block.1)
    if atFoot then blanks ++ block.2 else block.2 ++ blanks
  let columns := blocks.map level
  (List.range height).map fun i =>
    left ++ Text.join between (columns.map fun column => column[i]?.getD []) ++ right

/-- A line across a table. -/
def across (left : Text) (c : Char) (between right : Text) (widths : List Nat) : Text :=
  left ++ Text.join between (widths.map (line c)) ++ right

/-- A table with its title above it. A table without columns is an empty line. -/
def table (width : Nat) (t : Table) : Text :=
  let headers := headers t
  if headers = [] then [Text.lf]
  else
    let frame := headers.length + 1
    let available := width - frame
    let widths := Columns.narrow available (naturalWidths available headers (cells t))
    let total := Columns.total widths + frame
    let title := if t.title = [] then [] else
      (Text.wrap .fold total (Markup.shown t.title)).map fun l =>
        Text.centreCells ' ' total (Text.dropRightWhile CodePoint.isBlank l)
    ended width (title ++ [across "┏" '━' "┳" "┓" widths] ++
      rowLines true "┃" "┃" "┃" widths headers ++ [across "┡" '━' "╇" "┩" widths] ++
      (cells t).flatMap (rowLines false "│" "│" "│" widths) ++ [across "└" '─' "┴" "┘" widths])

/-! ## Requests -/

/-- Markup in lines of a width, with line feeds between them. -/
def printed (width : Nat) (markup : Text) : Text :=
  Text.join [Text.lf] (Text.wrap .fold width (Markup.shown markup))

/-- What is drawn for a request. When the last running indicator stops, its line ends; one that was
stopped before cannot be stopped again. -/
def drawn (width : Nat) (canvas : Canvas) : Event → Except Failure Text
  | .message tone text => .ok (printed width (Markup.styled tone.name text) ++ [Text.lf])
  | .panel content title => .ok (panel width content title)
  | .question text => .ok (printed width (Markup.styled "prompt" text ++ " "))
  | .started _ _ => .ok []
  | .stopped label =>
    match canvas.indicator? label with
    | none => .ok []
    | some (indicator, number) =>
      if indicator.running then .ok (if canvas.running.length = 1 then [Text.lf] else [])
      else .error (.noTask number)
  | .table _ _ _ | .row _ _ => .ok []
  | .shown label => .ok (((canvas.table? label).map (table width)).getD [])

/-- What is written for a request. On a console without room nothing is. -/
def written (width : Nat) (canvas : Canvas) (e : Event) : Except Failure Text :=
  (drawn width canvas e).map fun t => if width = 0 then [] else t

end Drawn

end ImportRepair.Console
