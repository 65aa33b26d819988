import ImportRepair.Yaml.Error
import ImportRepair.Yaml.Token

/-!
# The text of scalars

A scalar is plain, quoted, or a block of lines. Each reader takes the text from where the scalar
starts and gives back its value and what follows it.
-/

namespace ImportRepair.Yaml

/-- The value of what was read, and the text after it. -/
abbrev Reading (α : Type) := Except Error (α × Text)

/-! ## Plain scalars -/

/-- The number of characters up to a blank, a colon that ends a key, or an indicator of a flow
collection. -/
def plainRun (flow : Bool) : Text → Nat
  | [] => 0
  | c :: t =>
    if isBreak c || isSpaceOrTab c then 0
    else if c.val = 58 && (atBlank t || (flow && atOneOf ",[]\x7b\x7d" t)) then 0
    else if flow && atOneOf ",?[]\x7b\x7d" [c] then 0
    else plainRun flow t + 1

/-- The line breaks after the first one within a plain scalar, what follows them and the indentation
there; nothing if a separator of documents is met. -/
def plainBreaks : (column : Nat) → Text → Option (Text × Nat × Text)
  | column, [] => some ([], column, [])
  | column, c :: t =>
    if column = 0 && atSeparator (c :: t) then none
    else if c.val = 32 then plainBreaks (column + 1) t
    else if isBreak c then
      (plainBreaks 0 t).map fun (breaks, rest) => (breakValue c :: breaks, rest)
    else some ([], column, c :: t)

/-- One line break is a space; of several the first is dropped, unless it is a separator. -/
def foldBreaks (first : CodePoint) (breaks : Text) : Text :=
  if breakValue first ≠ 10 then breakValue first :: breaks
  else if breaks = [] then [32] else breaks

/-- The space between two runs of a plain scalar. -/
structure PlainSpace where
  /-- What it stands for; nothing if the scalar ends before it. -/
  text : Option Text
  /-- Whether a line ends in it. -/
  broken : Bool
  /-- The column after it, if a line ends in it. -/
  column : Nat
  rest : Text

/-- The space at the start of a text. -/
def plainSpace (t : Text) : PlainSpace :=
  let spaces := t.takeWhile fun c => c.val = 32
  match t.drop spaces.length with
  | [] => ⟨if spaces = [] then none else some spaces, false, 0, []⟩
  | c :: u =>
    if isBreak c then
      match plainBreaks 0 u with
      | none => ⟨none, true, 0, u⟩
      | some (breaks, column, rest) => ⟨some (foldBreaks c breaks), true, column, rest⟩
    else ⟨if spaces = [] then none else some spaces, false, 0, c :: u⟩

/-- A plain scalar's value, what follows it, and whether a line ends in the space after it. Lines
that go on have to be indented by at least `indent`. It is read in at most `steps` runs. -/
def plainFrom (flow : Bool) (indent : Int) : (steps : Nat) → Text → Text × Text × Bool
  | 0, t => ([], t, false)
  | steps + 1, t =>
    let run := t.take (plainRun flow t)
    let space := plainSpace (t.drop run.length)
    let next := space.rest
    match space.text with
    | none => (run, next, space.broken)
    | some between =>
      if next.head? = some (35 : CodePoint) ||
          (!flow && space.broken && (space.column : Int) < indent) || plainRun flow next = 0 then
        (run, next, space.broken)
      else
        let (more, rest, broken) := plainFrom flow indent steps next
        (run ++ between ++ more, rest, broken)

/-- A plain scalar. -/
def readPlain (flow : Bool) (indent : Int) (t : Text) : Text × Text × Bool :=
  plainFrom flow indent (t.length + 1) t

/-! ## Quoted scalars -/

/-- The character that a letter after a backslash stands for. -/
def escapeValue? (c : CodePoint) : Option CodePoint :=
  ([(48, 0), (97, 7), (98, 8), (116, 9), (9, 9), (110, 10), (118, 11), (102, 12), (114, 13),
    (101, 27), (32, 32), (34, 34), (92, 92), (47, 47), (78, 0x85), (95, 0xA0), (76, 0x2028),
    (80, 0x2029)] : List (Nat × Nat)).lookup c.val |>.map CodePoint.clamp

/-- The number of hexadecimal digits after a letter that follows a backslash. -/
def escapeDigits? (c : CodePoint) : Option Nat :=
  ([(120, 2), (117, 4), (85, 8)] : List (Nat × Nat)).lookup c.val

/-- The code point with the given hexadecimal digits. -/
def hexPoint (digits : Text) : Except Error CodePoint := do
  let values ← digits.mapM fun c =>
    match c.hexValue? with
    | some v => .ok v
    | none => .error .malformed
  let n := values.foldl (fun n v => n * 16 + v) 0
  if h : n < 0x110000 then return ⟨n, h⟩
  else throw (.badCodePoint (0x80000000 ≤ n))

/-- The line breaks within a quoted scalar, from the start of a line on. -/
def quotedBreaks : (lineStart : Bool) → Text → Reading Text
  | _, [] => .ok ([], [])
  | lineStart, c :: t =>
    if lineStart && atSeparator (c :: t) then .error .malformed
    else if isSpaceOrTab c then quotedBreaks false t
    else if isBreak c then
      (quotedBreaks true t).map fun (breaks, rest) => (breakValue c :: breaks, rest)
    else .ok ([], c :: t)

/-- The first character of a quoted scalar's value and what follows it, or nothing at its end. -/
def quotedPart (double : Bool) (t : Text) : Reading (Option Text) :=
  match t with
  | [] => .error .unclosed
  | c :: t =>
    let quote : Nat := if double then 34 else 39
    if c.val = quote then
      if !double && t.head? = some (39 : CodePoint) then .ok (some [39], t.drop 1)
      else .ok (none, t)
    else if double && c.val = 92 then
      match t with
      | [] => .error .unclosed
      | e :: u =>
        match escapeValue? e, escapeDigits? e with
        | some v, _ => .ok (some [v], u)
        | none, some k =>
          if u.length < k then .error .unclosed
          else (hexPoint (u.take k)).map fun p => (some [p], u.drop k)
        | none, none =>
          if isBreak e then (quotedBreaks true u).map fun (breaks, rest) => (some breaks, rest)
          else .error .malformed
    else if isBreak c || isSpaceOrTab c then
      let spaces := (c :: t).takeWhile isSpaceOrTab
      match (c :: t).drop spaces.length with
      | [] => .error .unclosed
      | d :: u =>
        if isBreak d then
          (quotedBreaks true u).map fun (breaks, rest) => (some (foldBreaks d breaks), rest)
        else .ok (some spaces, d :: u)
    else .ok (some [c], t)

/-- The value of a quoted scalar after its opening quote, read in at most `steps` parts. -/
def quotedFrom (double : Bool) : (steps : Nat) → Text → Except Error (Text × Text)
  | 0, _ => .error .malformed
  | steps + 1, t => do
    match ← quotedPart double t with
    | (none, rest) => return ([], rest)
    | (some part, rest) =>
      let (more, rest) ← quotedFrom double steps rest
      return (part ++ more, rest)

/-- A quoted scalar after its opening quote. -/
def readQuoted (double : Bool) (t : Text) : Reading Text := quotedFrom double (t.length + 1) t

/-! ## Block scalars -/

/-- What becomes of the line breaks at the end of a block. -/
inductive Chomping
  | strip
  | clip
  | keep
deriving DecidableEq, Repr

/-- The sign that tells the chomping, if there is one. -/
def readChomping (t : Text) : Option Chomping × Text :=
  match t with
  | c :: u =>
    if c.val = 43 then (some .keep, u) else if c.val = 45 then (some .strip, u) else (none, t)
  | [] => (none, [])

/-- The digit that tells the indentation, if there is one. -/
def readIndentation (t : Text) : Reading (Option Nat) :=
  match t with
  | c :: u =>
    if c.isAsciiDigit then
      if c.val = 48 then .error .malformed else .ok (some (c.val - 48), u)
    else .ok (none, t)
  | [] => .ok (none, [])

/-- The rest of a line that holds nothing but spaces and a comment, and the lines after it. -/
def skipIdleLine (t : Text) : Except Error Text :=
  let t := t.dropWhile fun c => c.val = 32
  let t := if t.head? = some (35 : CodePoint) then t.dropWhile fun c => !isBreak c else t
  if atLineEnd t then .ok (t.drop 1) else .error .malformed

/-- The head of a block scalar after its indicator. -/
def readBlockHead (t : Text) : Except Error ((Chomping × Option Nat) × Text) := do
  let (chomping, t) := readChomping t
  let (indentation, t) ← readIndentation t
  let (chomping, t) :=
    match chomping with
    | some c => (some c, t)
    | none => if indentation.isSome then readChomping t else (none, t)
  if !atSpace t then throw .malformed
  return ((chomping.getD .clip, indentation), ← skipIdleLine t)

/-- Empty lines, from a column on, up to a line that is indented by at least `indent`: the breaks,
the column and what follows. -/
def blockBreaks (indent : Nat) : (column : Nat) → Text → Text × Nat × Text
  | column, [] => ([], column, [])
  | column, c :: t =>
    if c.val = 32 && column < indent then blockBreaks indent (column + 1) t
    else if isBreak c then
      let (breaks, rest) := blockBreaks indent 0 t
      (breakValue c :: breaks, rest)
    else ([], column, c :: t)

/-- The first lines of a block without a given indentation: the breaks, the largest column met, the
column and what follows. -/
def blockIndentation : (column largest : Nat) → Text → Text × Nat × Nat × Text
  | column, largest, [] => ([], largest, column, [])
  | column, largest, c :: t =>
    if c.val = 32 then blockIndentation (column + 1) (max largest (column + 1)) t
    else if isBreak c then
      let (breaks, rest) := blockIndentation 0 largest t
      (breakValue c :: breaks, rest)
    else ([], largest, column, c :: t)

/-- The lines of a block: its value without the last breaks, the break of the last line, the breaks
after it, and what follows. At most `steps` lines are read. -/
def blockLines (folded : Bool) (indent : Nat) :
    (steps : Nat) → (breaks : Text) → (column : Nat) → Text → Text × Text × Text × Text
  | 0, breaks, _, t => ([], [], breaks, t)
  | steps + 1, breaks, column, t =>
    if column ≠ indent ∨ t = [] then ([], [], breaks, t)
    else
      let line := t.takeWhile fun c => !isBreak c
      let rest := t.drop line.length
      let lineBreak := (rest.head?.map breakValue).toList
      let (nextBreaks, nextColumn, next) := blockBreaks indent 0 (rest.drop 1)
      if nextColumn ≠ indent ∨ next = [] then (breaks ++ line, lineBreak, nextBreaks, next)
      else
        let starts (u : Text) : Bool := !(u.head?.map isSpaceOrTab).getD false
        let between : Text :=
          if folded && lineBreak = [10] && starts t && starts next then
            if nextBreaks = [] then [32] else []
          else lineBreak
        let (value, last, tail, after) := blockLines folded indent steps nextBreaks nextColumn next
        (breaks ++ line ++ between ++ value, last, tail, after)

/-- A block scalar after its indicator, within a block that is indented by `outer`. -/
def readBlock (folded : Bool) (outer : Int) (t : Text) : Except Error (Text × Text) := do
  let ((chomping, indentation), t) ← readBlockHead t
  let least := max 1 (outer + 1).toNat
  let (indent, breaks, column, t) :=
    match indentation with
    | some k =>
      let indent := least + k - 1
      (indent, blockBreaks indent 0 t)
    | none =>
      let (breaks, largest, column, t) := blockIndentation 0 0 t
      (max least largest, breaks, column, t)
  let (value, last, tail, rest) := blockLines folded indent (t.length + 1) breaks column t
  let ending :=
    match chomping with
    | .strip => []
    | .clip => last
    | .keep => last ++ tail
  return (value ++ ending, rest)

end ImportRepair.Yaml
