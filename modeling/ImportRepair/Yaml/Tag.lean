import ImportRepair.Text.Utf8
import ImportRepair.Yaml.Error
import ImportRepair.Yaml.Token

/-!
# Tags, anchors and directives

The tokens that tell something about a node or a document. Each reader starts after the indicator.
-/

namespace ImportRepair.Yaml

/-- A name, which may not be empty. -/
def readName (t : Text) : Except Error (Text × Text) :=
  let name := t.takeWhile isNameCharacter
  if name = [] then .error .malformed else .ok (name, t.drop name.length)

/-- The name of an anchor or an alias. -/
def readAnchorName (t : Text) : Except Error (Text × Text) := do
  let (name, rest) ← readName t
  if atBlank rest || atOneOf "?:,]\x7d%@\x60" rest then return (name, rest) else throw .malformed

/-- A character of a tag that is not escaped. -/
def isTagCharacter (c : CodePoint) : Bool :=
  c.isAsciiLetter || c.isAsciiDigit || (Text.ofString "-;/?:@&=+$,_.!~*'()[]").contains c

/-- The bytes of a run of escapes, each a percent sign and two digits, and what follows them. -/
def readEscapes : Text → Except Error (List UInt8 × Text)
  | c :: a :: b :: t =>
    if c.val = 37 then
      match a.hexValue?, b.hexValue? with
      | some x, some y => do
        let (bytes, rest) ← readEscapes t
        return (UInt8.ofNat (x * 16 + y) :: bytes, rest)
      | _, _ => .error .malformed
    else .ok ([], c :: a :: b :: t)
  | c :: t => if c.val = 37 then .error .malformed else .ok ([], c :: t)
  | [] => .ok ([], [])

/-- The text of a tag, read in at most `steps` parts. -/
def readTagTextFrom : (steps : Nat) → Text → Except Error (Text × Text)
  | 0, t => .ok ([], t)
  | steps + 1, t => do
    let plain := t.takeWhile isTagCharacter
    let rest := t.drop plain.length
    if rest.head? = some (37 : CodePoint) then
      let (bytes, rest) ← readEscapes rest
      match Utf8.decode bytes with
      | .error _ => throw .malformed
      | .ok escaped =>
        let (more, rest) ← readTagTextFrom steps rest
        return (plain ++ escaped ++ more, rest)
    else return (plain, rest)

/-- The text of a tag, which may not be empty. -/
def readTagText (t : Text) : Except Error (Text × Text) := do
  let (text, rest) ← readTagTextFrom (t.length + 1) t
  if rest.length = t.length then throw .malformed
  return (text, rest)

/-- A tag handle from its first exclamation mark on. -/
def readHandle (t : Text) : Except Error (Text × Text) :=
  match t with
  | [] => .error .malformed
  | mark :: u =>
    if mark.val ≠ 33 then .error .malformed
    else if u.head? = some (32 : CodePoint) then .ok ([mark], u)
    else
      let name := u.takeWhile isNameCharacter
      match u.drop name.length with
      | c :: rest => if c.val = 33 then .ok (mark :: name ++ [c], rest) else .error .malformed
      | [] => .error .malformed

/-- A tag from its exclamation mark on. -/
def readTag (t : Text) : Except Error (Token × Text) := do
  let u := t.drop 1
  let (token, rest) ←
    if u.head? = some (60 : CodePoint) then do
      let (suffix, rest) ← readTagText (u.drop 1)
      match rest with
      | c :: rest => if c.val = 62 then pure (Token.tag none suffix, rest) else throw .malformed
      | [] => throw .unclosed
    else if atBlank u then pure (Token.tag none "!", u)
    else
      let hasHandle := (u.takeWhile fun c => !(isBreak c || c.val = 32)).contains 33
      if hasHandle then do
        let (handle, rest) ← readHandle t
        let (suffix, rest) ← readTagText rest
        pure (Token.tag (some handle) suffix, rest)
      else do
        let (suffix, rest) ← readTagText u
        pure (Token.tag (some "!") suffix, rest)
  if atSpace rest then return (token, rest) else throw .malformed

/-! ## Directives -/

/-- The text after its spaces. -/
def skipSpaces (t : Text) : Text := t.dropWhile fun c => c.val = 32

/-- A number in decimal digits. -/
def readNumber (t : Text) : Except Error (Nat × Text) :=
  let digits := t.takeWhile CodePoint.isAsciiDigit
  if digits = [] then .error .malformed
  else if Decimal.maxDigits < digits.length then .error (.tooManyDigits digits.length)
  else .ok (digits.foldl (fun n c => n * 10 + (c.val - 48)) 0, t.drop digits.length)

/-- The version that a directive tells. -/
def readVersion (t : Text) : Except Error (Token × Text) := do
  let (major, t) ← readNumber (skipSpaces t)
  if t.head? ≠ some (46 : CodePoint) then throw .malformed
  let (_, t) ← readNumber (t.drop 1)
  if atSpace t then return (.version major, t) else throw .malformed

/-- The handle and its meaning that a directive tells. -/
def readTagDirective (t : Text) : Except Error (Token × Text) := do
  let (handle, t) ← readHandle (skipSpaces t)
  if t.head? ≠ some (32 : CodePoint) then throw .malformed
  let (meaning, t) ← readTagText (skipSpaces t)
  if atSpace t then return (.tagDirective handle meaning, t) else throw .malformed

/-- A directive after its percent sign, with the rest of its line. -/
def readDirective (t : Text) : Except Error (Token × Text) := do
  let (name, t) ← readName t
  if !atSpace t then throw .malformed
  let (token, t) ←
    if name = ("YAML" : Text) then readVersion t
    else if name = ("TAG" : Text) then readTagDirective t
    else pure (.directive, t.dropWhile fun c => !isBreak c)
  let t := skipSpaces t
  let t := if t.head? = some (35 : CodePoint) then t.dropWhile fun c => !isBreak c else t
  if atLineEnd t then return (token, t.drop 1) else throw .malformed

end ImportRepair.Yaml
