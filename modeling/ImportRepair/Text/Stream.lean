import ImportRepair.Text.Lines
import ImportRepair.Text.Utf8

/-!
# Text streams

The text of a file is taken a number of characters at a time, while its bytes are read a part at a
time. A part may end within a character, whose bytes then wait for the next part, or between the two
characters of a line ending, whose first one then waits too.
-/

namespace ImportRepair

/-- A file whose text is taken from the front. -/
structure TextStream where
  /-- The bytes that are still to be read. -/
  bytes : List UInt8
  /-- The bytes of a character that the last part ended within. -/
  waiting : List UInt8
  /-- Whether a carriage return waits for a line feed. -/
  returned : Bool
  /-- The characters that are decoded but not taken. -/
  ready : Text
  /-- How many bytes the last part had. -/
  lastBytes : Nat
  /-- How many characters came of them. -/
  lastCharacters : Nat

namespace TextStream

/-- A file that nothing has been taken from. -/
def start (bytes : List UInt8) : TextStream := ⟨bytes, [], false, [], 0, 0⟩

/-- The least number of bytes that are read at once. -/
def leastPart : Nat := 8192

/-- The number of bytes to be read for some more characters, if these take as many as the last. -/
def partLength (s : TextStream) (wanted : Nat) : Nat :=
  max leastPart (s.lastBytes * wanted / s.lastCharacters)

/-- The characters of a part with unified line endings, and whether a carriage return waits. Nothing
waits at the end of the file. -/
def unify (returned atEnd : Bool) (t : Text) : Text × Bool :=
  let t := if returned && (atEnd || t ≠ []) then Text.cr :: t else t
  if atEnd then (Text.unifyLineEnds t, false)
  else if t.getLast? = some Text.cr then (Text.unifyLineEnds t.dropLast, true)
  else (Text.unifyLineEnds t, returned && t = [])

/-- The stream with one more part read; there is none at the end of the file. -/
def readPart (s : TextStream) (wanted : Nat) : Except Utf8.DecodeError TextStream := do
  let length := s.partLength wanted
  let part := s.bytes.take length
  let atEnd := part.isEmpty
  let (decoded, waiting) ←
    if atEnd then (Utf8.decode s.waiting).map (·, []) else Utf8.decodePart (s.waiting ++ part)
  let (characters, returned) := unify s.returned atEnd decoded
  return {
    bytes := s.bytes.drop length
    waiting, returned
    ready := s.ready ++ characters
    lastBytes := part.length
    lastCharacters := characters.length }

/-- Whether everything is decoded. -/
def isRead (s : TextStream) : Bool := s.bytes.isEmpty && s.waiting.isEmpty && !s.returned

/-- The stream with at most `parts` parts read, until some number of characters is ready. -/
def fill (count : Nat) : (parts : Nat) → TextStream → Except Utf8.DecodeError TextStream
  | 0, s => .ok s
  | parts + 1, s =>
    if count ≤ s.ready.length || s.isRead then .ok s
    else do fill count parts (← s.readPart (count - s.ready.length))

/-- Takes some characters, fewer only at the end of the file. -/
def take (count : Nat) (s : TextStream) : Except Utf8.DecodeError (Text × TextStream) := do
  let s ← s.fill count (s.bytes.length + 2)
  return (s.ready.take count, { s with ready := s.ready.drop count })

/-- The portions that a text is taken in, each of the same number of characters but the last, and
the error that ends them. There are at most `most`. -/
def portions (count : Nat) : (most : Nat) → TextStream → List Text × Option Utf8.DecodeError
  | 0, _ => ([], none)
  | most + 1, s =>
    match s.take count with
    | .error e => ([], some e)
    | .ok ([], _) => ([], none)
    | .ok (t, s) =>
      let (more, e) := portions count most s
      (t :: more, e)

end TextStream

end ImportRepair
