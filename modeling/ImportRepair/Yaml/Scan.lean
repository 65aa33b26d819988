import ImportRepair.Yaml.Scalar
import ImportRepair.Yaml.Tag

/-!
# From text to tokens

Tokens are read one by one. That a token starts a key is known only when the colon after it is
met, so the places at which a key may have started are remembered, and the tokens that start
it are put in at the end.
-/

namespace ImportRepair.Yaml

/-- A place at which a key may have started: the number of the token there and its position. -/
structure PendingKey where
  number : Nat
  required : Bool
  index : Nat
  line : Nat
  column : Nat
deriving DecidableEq

/-- Where a key starts, by the number of its token, and whether a block mapping starts with it. -/
structure KeyMark where
  number : Nat
  opensBlock : Bool
deriving DecidableEq

/-- What has been read of a document. -/
structure Scan where
  rest : Text
  /-- Whether the text goes on where the rest ends, but cannot be read there. -/
  cut : Bool
  index : Nat
  line : Nat
  column : Nat
  /-- The tokens, newest first, and their number. -/
  tokens : List Token
  count : Nat
  marks : List KeyMark
  /-- The number of open flow collections. -/
  flow : Nat
  indent : Int
  outerIndents : List Int
  /-- Whether a key may start here. -/
  keyAllowed : Bool
  /-- The pending keys by the number of open flow collections. -/
  pending : List (Nat × PendingKey)

namespace Scan

/-- The start of a text, which may be cut off. -/
def start (cut : Bool) (t : Text) : Scan := ⟨t, cut, 0, 0, 0, [], 0, [], 0, -1, [], true, []⟩

/-- The position after one more character. The byte order mark has no width. -/
def step (s : Scan) (c : CodePoint) : Scan :=
  if isBreak c then { s with index := s.index + 1, line := s.line + 1, column := 0 }
  else if c.val = 0xFEFF then { s with index := s.index + 1 }
  else { s with index := s.index + 1, column := s.column + 1 }

/-- The scan with everything up to the given rest read. -/
def moveTo (rest : Text) (s : Scan) : Scan :=
  { (s.rest.take (s.rest.length - rest.length)).foldl step s with rest }

/-- The scan with some characters read. -/
def forward (n : Nat) (s : Scan) : Scan := s.moveTo (s.rest.drop n)

/-- The scan with a token more. -/
def push (token : Token) (s : Scan) : Scan :=
  { s with tokens := token :: s.tokens, count := s.count + 1 }

/-! ## Indentation -/

/-- How many blocks end at a column, and the indentations that remain. -/
def blocksEnding (column : Int) : Int → List Int → Nat × Int × List Int
  | indent, [] => (0, indent, [])
  | indent, outer :: rest =>
    if column < indent then
      let (n, remaining) := blocksEnding column outer rest
      (n + 1, remaining)
    else (0, indent, outer :: rest)

/-- Ends the blocks that are indented by more than a column. -/
def unwind (column : Int) (s : Scan) : Scan :=
  if s.flow ≠ 0 then s
  else
    let (n, indent, outerIndents) := blocksEnding column s.indent s.outerIndents
    { s with
      indent, outerIndents
      tokens := List.replicate n Token.blockEnd ++ s.tokens
      count := s.count + n }

/-- Whether a column starts a block. -/
def opensBlock (s : Scan) (column : Nat) : Bool := s.flow = 0 && s.indent < (column : Int)

/-- The scan within a block that starts at a column, if one does. -/
def addIndent (column : Nat) (s : Scan) : Scan :=
  if s.opensBlock column then
    { s with indent := column, outerIndents := s.indent :: s.outerIndents }
  else s

/-- Starts a block at the current column, if one does start there. -/
def openBlock (token : Token) (s : Scan) : Scan :=
  if s.opensBlock s.column then (s.addIndent s.column).push token else s

/-! ## Pending keys -/

/-- The length up to which a key can be. -/
def maxKeyLength : Nat := 1024

/-- Whether a key has become too long or has left its line. -/
def isStale (s : Scan) (k : PendingKey) : Bool :=
  k.line ≠ s.line || maxKeyLength < s.index - k.index

/-- Forgets the stale keys. A required one may not be stale. -/
def dropStale (s : Scan) : Except Error Scan :=
  if s.pending.any fun (_, k) => s.isStale k && k.required then .error .malformed
  else .ok { s with pending := s.pending.filter fun (_, k) => !s.isStale k }

/-- Forgets the key that is pending at the current depth. A required one may not be. -/
def dropPending (s : Scan) : Except Error Scan :=
  match s.pending.lookup s.flow with
  | none => .ok s
  | some k =>
    if k.required then .error .malformed
    else .ok { s with pending := s.pending.filter (·.1 ≠ s.flow) }

/-- Remembers that a key may start with the next token. -/
def savePending (s : Scan) : Except Error Scan := do
  if !s.keyAllowed then return s
  let s ← s.dropPending
  let required := s.flow = 0 && s.indent = (s.column : Int)
  return { s with pending := (s.flow, ⟨s.count, required, s.index, s.line, s.column⟩) :: s.pending }

/-- Says whether a key may start at the next token. -/
def allowKey (keyAllowed : Bool) (s : Scan) : Scan := { s with keyAllowed }

/-! ## Tokens -/

/-- What stands between tokens: the text after it, and whether a line ends in it. -/
def skipGap : (comment : Bool) → Text → Text × Bool
  | _, [] => ([], false)
  | comment, c :: t =>
    if isBreak c then ((skipGap false t).1, true)
    else if comment || c.val = 32 then skipGap comment t
    else if c.val = 35 then skipGap true t
    else (c :: t, false)

/-- Goes to the next token. -/
def toNextToken (s : Scan) : Scan :=
  let t := if s.index = 0 ∧ s.rest.head? = some (0xFEFF : CodePoint) then s.rest.drop 1 else s.rest
  let (rest, broken) := skipGap false t
  let s := s.moveTo rest
  if broken && s.flow = 0 then s.allowKey true else s

/-- The end of the text. -/
def readEnd (s : Scan) : Except Error Scan := do
  let s ← (s.unwind (-1)).dropPending
  return ({ s with pending := [] }.allowKey false).push .streamEnd

/-- A directive or a marker of a document: all blocks end before it. -/
def readOutside (token : Token) (rest : Text) (s : Scan) : Except Error Scan := do
  let s ← (s.unwind (-1)).dropPending
  return ((s.allowKey false).moveTo rest).push token

/-- The start of a flow collection. -/
def openFlow (token : Token) (s : Scan) : Except Error Scan := do
  let s ← s.savePending
  return (({ s with flow := s.flow + 1 }.allowKey true).forward 1).push token

/-- The end of a flow collection. -/
def closeFlow (token : Token) (s : Scan) : Except Error Scan := do
  let s ← s.dropPending
  return (({ s with flow := s.flow - 1 }.allowKey false).forward 1).push token

/-- A comma. -/
def readFlowEntry (s : Scan) : Except Error Scan := do
  let s ← (s.allowKey true).dropPending
  return (s.forward 1).push .flowEntry

/-- The hyphen of an entry. -/
def readBlockEntry (s : Scan) : Except Error Scan := do
  if s.flow = 0 && !s.keyAllowed then throw .malformed
  let s ← ((s.openBlock .blockSequenceStart).allowKey true).dropPending
  return (s.forward 1).push .blockEntry

/-- The question mark of a key. -/
def readKey (s : Scan) : Except Error Scan := do
  if s.flow = 0 && !s.keyAllowed then throw .malformed
  let s ← ((s.openBlock .blockMappingStart).allowKey (s.flow = 0)).dropPending
  return (s.forward 1).push .key

/-- The colon of a value. If a key is pending, it starts where it was pending. -/
def readValue (s : Scan) : Except Error Scan := do
  match s.pending.lookup s.flow with
  | some k =>
    let mark : KeyMark := ⟨k.number, s.opensBlock k.column⟩
    let s := { s with pending := s.pending.filter (·.1 ≠ s.flow), marks := mark :: s.marks }
    return (((s.addIndent k.column).allowKey false).forward 1).push .value
  | none =>
    if s.flow = 0 && !s.keyAllowed then throw .malformed
    let s ← ((s.openBlock .blockMappingStart).allowKey (s.flow = 0)).dropPending
    return (s.forward 1).push .value

/-- A token that may start a key. -/
def readContent (token : Token) (rest : Text) (s : Scan) : Except Error Scan := do
  let s ← s.savePending
  return ((s.allowKey false).moveTo rest).push token

/-- A plain scalar. A key may follow it only if a line ends after it. -/
def readPlainScalar (s : Scan) : Except Error Scan := do
  let (text, rest, broken) := readPlain (s.flow ≠ 0) (s.indent + 1) s.rest
  let s ← s.savePending
  return ((s.allowKey broken).moveTo rest).push (.scalar true text)

/-- A block scalar. -/
def readBlockScalar (folded : Bool) (s : Scan) : Except Error Scan := do
  let s ← (s.allowKey true).dropPending
  let (text, rest) ← readBlock folded s.indent (s.rest.drop 1)
  return (s.moveTo rest).push (.scalar false text)

/-- Whether a plain scalar starts here. -/
def startsPlain (flow : Bool) (t : Text) : Bool :=
  match t with
  | [] => false
  | c :: u =>
    !(isBreak c || isSpaceOrTab c || atOneOf "-?:,[]\x7b\x7d#&*!|>'\"%@\x60" [c]) ||
      (!atBlank u && (c.val = 45 || (!flow && (c.val = 63 || c.val = 58))))

/-- Refuses to go on where a text is cut off. -/
def refuseCut (s : Scan) : Except Error Scan :=
  if s.cut && s.rest.isEmpty then .error .unclosed else .ok s

/-- The next token, of a text that is not cut off before it. -/
def readHere (s : Scan) : Except Error Scan := do
  let s ← s.dropStale
  let s := s.unwind s.column
  let inFlow : Bool := s.flow ≠ 0
  match s.rest with
  | [] => s.readEnd
  | c :: t =>
    let is (x : Char) : Bool := c = (x : CodePoint)
    if is '%' && s.column = 0 then
      let (token, rest) ← readDirective t
      s.readOutside token rest
    else if s.column = 0 && atMarker "---" s.rest then s.readOutside .documentStart (t.drop 2)
    else if s.column = 0 && atMarker "..." s.rest then s.readOutside .documentEnd (t.drop 2)
    else if is '[' then s.openFlow .flowSequenceStart
    else if is '\x7b' then s.openFlow .flowMappingStart
    else if is ']' then s.closeFlow .flowSequenceEnd
    else if is '\x7d' then s.closeFlow .flowMappingEnd
    else if is ',' then s.readFlowEntry
    else if is '-' && atBlank t then s.readBlockEntry
    else if is '?' && (inFlow || atBlank t) then s.readKey
    else if is ':' && (inFlow || atBlank t) then s.readValue
    else if is '*' then
      let (name, rest) ← readAnchorName t
      s.readContent (.alias name) rest
    else if is '&' then
      let (name, rest) ← readAnchorName t
      s.readContent (.anchor name) rest
    else if is '!' then
      let (token, rest) ← readTag (c :: t)
      s.readContent token rest
    else if is '|' && !inFlow then s.readBlockScalar false
    else if is '>' && !inFlow then s.readBlockScalar true
    else if is '\'' then
      let (text, rest) ← readQuoted false t
      s.readContent (.scalar false text) rest
    else if is '"' then
      let (text, rest) ← readQuoted true t
      s.readContent (.scalar false text) rest
    else if startsPlain inFlow s.rest then s.readPlainScalar
    else throw .malformed

/-- The next token. It is known where it ends once the character after it is read. -/
def readToken (s : Scan) : Except Error Scan :=
  do (← (← s.toNextToken.refuseCut).readHere).refuseCut

/-- Reads tokens up to the end, or up to an error. -/
def readAll : (steps : Nat) → Scan → Scan × Option Error
  | 0, s => (s, some .malformed)
  | steps + 1, s =>
    match s.readToken with
    | .error e => (s, some e)
    | .ok s => if s.tokens.head? = some .streamEnd then (s, none) else readAll steps s

/-- The number of settled tokens: where a key may still start, a token is not settled, and
neither are those after it. -/
def settled (s : Scan) : Nat :=
  (s.pending.filter fun (_, k) => !s.isStale k).foldl (fun n (_, k) => min n k.number) s.count

/-- The tokens in order, with those that start keys put in at their marks. -/
def withKeys (marks : List KeyMark) : (number : Nat) → List Token → List Token
  | _, [] => []
  | number, token :: rest =>
    let added : List Token :=
      match marks.find? (·.number = number) with
      | some mark => if mark.opensBlock then [.blockMappingStart, .key] else [.key]
      | none => []
    added ++ token :: withKeys marks (number + 1) rest

end Scan

/-- The tokens of a text, or those that are settled before an error ends them. -/
def Token.scan (cut : Bool) (t : Text) : List Token × Option Error :=
  let (s, error) := (Scan.start cut t).readAll (t.length + 2)
  let tokens := s.tokens.reverse.take (if error.isSome then s.settled else s.count)
  (Scan.withKeys s.marks 0 tokens, error)

end ImportRepair.Yaml
