import ImportRepair.Text.Classes
import ImportRepair.Text.Cluster
import ImportRepair.Text.Lines

/-!
# Breaking text into lines

Text is put on lines of a number of cells. A line is broken before a word that does not fit, and the
blanks after a word stay with it.

Results:
* `flatten_wordsFrom`: the words of a text are the text, with nothing lost.
* `flatten_chop`: neither is anything lost where a long word is cut.
* `flatten_fill`: words that are put on lines stay in their order, and none is lost.
-/

namespace ImportRepair.Text

/-! ## Filling up and cutting -/

/-- A text in the middle of a number of code points. An odd one goes to the left if the number of
code points is odd, to the right otherwise. -/
def centre (fill : CodePoint) (width : Nat) (t : Text) : Text :=
  let missing := width - t.length
  let left := missing / 2 + missing % 2 * (width % 2)
  List.replicate left fill ++ t ++ List.replicate (missing - left) fill

/-- A text in the middle of a number of cells. An odd one goes to the right. -/
def centreCells (fill : CodePoint) (width : Nat) (t : Text) : Text :=
  let missing := width - t.cells
  List.replicate (missing / 2) fill ++ t ++ List.replicate (missing - missing / 2) fill

/-- A text filled up with blanks to a number of cells. -/
def padCells (width : Nat) (t : Text) : Text :=
  t ++ List.replicate (width - t.cells) (' ' : CodePoint)

/-- The start of a text that fits on a number of cells. Half a wide character becomes a blank. -/
def crop : (width : Nat) → List Cluster → Text
  | _, [] => []
  | width, cluster :: rest =>
    if width = 0 then []
    else if cluster.cells ≤ width then cluster.text ++ crop (width - cluster.cells) rest
    else [(' ' : CodePoint)]

/-- The distance of tab stops. -/
def tabSize : Nat := 8

/-- Parts of a line from a column on, each but the last filled up to the next tab stop,
at least by one blank. -/
def fillTabs : (column : Nat) → List Text → Text
  | _, [] => []
  | _, [part] => part
  | column, part :: rest =>
    let part := part ++ [(' ' : CodePoint)]
    let reached := column + part.cells
    let stop := (reached + tabSize - 1) / tabSize * tabSize
    part ++ List.replicate (stop - reached) (' ' : CodePoint) ++ fillTabs stop rest

/-- A line with every tab filled up to the next tab stop. -/
def expandTabs (line : Text) : Text := fillTabs 0 (splitAt 9 line)

/-! ## Words -/

/-- Whether a word is followed by a blank, so that the next letter starts another one. -/
def isClosed (word : Text) : Bool :=
  !word.all CodePoint.isBlank && (word.getLast?.map CodePoint.isBlank).getD false

/-- The words of a text after the start of a word. -/
def wordsFrom (word : Text) : Text → List Text
  | [] => if word.all CodePoint.isBlank then [] else [word]
  | c :: t =>
    if !c.isBlank && isClosed word then word :: wordsFrom [c] t else wordsFrom (word ++ [c]) t

/-- The words of a text, each with the blanks after it and the first one also with those before
it. -/
def words (t : Text) : List Text := wordsFrom [] t

/-- A word cut into pieces of at most a number of cells; `piece` is the piece
begun, on `size` cells. -/
def chop (width : Nat) (piece : Text) (size : Nat) : List Cluster → List Text
  | [] => [piece]
  | cluster :: rest =>
    if width < size + cluster.cells then piece :: chop width cluster.text cluster.cells rest
    else chop width (piece ++ cluster.text) (size + cluster.cells) rest

/-! ## Lines -/

/-- What becomes of a word that is longer than a line. -/
inductive Overflow
  /-- It goes on in the next line. -/
  | fold
  /-- It ends with three dots. -/
  | ellipsis
deriving DecidableEq, Repr

/-- A line that is begun, as a list of lines. -/
def begun (line : Text) : List Text := if line = [] then [] else [line]

/-- Words on lines; `line` is the line begun. -/
def fill (overflow : Overflow) (width : Nat) (line : Text) : List Text → List Text
  | [] => begun line
  | word :: rest =>
    let size := cells (dropRightWhile CodePoint.isBlank word)
    if line.cells + size ≤ width then fill overflow width (line ++ word) rest
    else if size ≤ width ∨ overflow = .ellipsis then begun line ++ fill overflow width word rest
    else
      let pieces := chop width [] 0 (clusters word)
      let pieces := if line = [] then pieces.dropWhile List.isEmpty else pieces
      begun line ++ pieces.dropLast ++ fill overflow width (pieces.getLast?.getD []) rest

/-- A line without the blanks that stand beyond a width. -/
def trimBeyond (width : Nat) (line : Text) : Text :=
  let blanks := line.length - (dropRightWhile CodePoint.isBlank line).length
  line.take (line.length - min blanks (line.length - width))

/-- The sign for what is left out. -/
def dots : CodePoint := '…'

/-- A line cut to a width, if it is longer. -/
def cut (overflow : Overflow) (width : Nat) (line : Text) : Text :=
  if line.cells ≤ width then line
  else
    match overflow with
    | .fold => crop width (clusters line)
    | .ellipsis => crop (width - 1) (clusters line) ++ [dots]

/-- One line of a text broken into lines of a width. -/
def breakLine (overflow : Overflow) (width : Nat) (line : Text) : List Text :=
  let line := expandTabs line
  let lines :=
    match words line with
    | [] => [line]
    | ws => fill overflow width [] ws
  lines.map fun line => cut overflow width (trimBeyond width line)

/-- A text broken into lines of a width. -/
def wrap (overflow : Overflow) (width : Nat) (t : Text) : List Text :=
  (splitAt lf t).flatMap (breakLine overflow width)

/-! ## Nothing is lost -/

theorem flatten_wordsFrom (word t : Text) :
    (wordsFrom word t).flatten = if (word ++ t).all CodePoint.isBlank then [] else word ++ t := by
  induction t generalizing word with
  | nil => simp only [wordsFrom, List.append_nil]; split <;> simp
  | cons c t ih =>
    rw [wordsFrom]
    split
    · next h =>
      simp only [Bool.and_eq_true, Bool.not_eq_true'] at h
      have hc : ([c] ++ t).all CodePoint.isBlank = false := by simp [h.1]
      have hw : (word ++ c :: t).all CodePoint.isBlank = false := by simp [h.1]
      rw [List.flatten_cons, ih, hc, hw]
      simp
    · rw [ih]; simp

theorem flatten_chop (width : Nat) (piece : Text) (size : Nat) (clusters : List Cluster) :
    (chop width piece size clusters).flatten = piece ++ (clusters.map (·.text)).flatten := by
  induction clusters generalizing piece size with
  | nil => simp [chop]
  | cons cluster rest ih => rw [chop]; split <;> simp [ih]

theorem flatten_dropWhile_isEmpty (ts : List Text) :
    (ts.dropWhile List.isEmpty).flatten = ts.flatten := by
  induction ts with
  | nil => rfl
  | cons t ts ih =>
    rw [List.dropWhile_cons]
    split
    · next h => rw [ih, List.flatten_cons, List.isEmpty_iff.1 h]; rfl
    · rfl

theorem flatten_dropLast_append (ts : List Text) :
    ts.dropLast.flatten ++ ts.getLast?.getD [] = ts.flatten := by
  by_cases h : ts = []
  · simp [h]
  · rw [List.getLast?_eq_some_getLast h, Option.getD_some]
    have e := congrArg List.flatten (List.dropLast_concat_getLast h)
    rwa [List.flatten_append, List.flatten_singleton] at e

theorem flatten_begun (line : Text) : (begun line).flatten = line := by
  unfold begun; split <;> simp_all

theorem flatten_fill (overflow : Overflow) (width : Nat) (line : Text) (ws : List Text) :
    (fill overflow width line ws).flatten = line ++ ws.flatten := by
  induction ws generalizing line with
  | nil => simp [fill, flatten_begun]
  | cons word rest ih =>
    simp only [fill]
    split
    · simp [ih]
    · split
      · simp [ih, flatten_begun]
      · have hp : (if line = [] then (chop width [] 0 (clusters word)).dropWhile List.isEmpty
            else chop width [] 0 (clusters word)).flatten = word := by
          split
          · rw [flatten_dropWhile_isEmpty, flatten_chop, flatten_clusters]; rfl
          · rw [flatten_chop, flatten_clusters]; rfl
        rw [List.flatten_append, List.flatten_append, flatten_begun, ih, List.flatten_cons,
          List.append_assoc, ← List.append_assoc (List.flatten _), flatten_dropLast_append, hp]

end ImportRepair.Text
