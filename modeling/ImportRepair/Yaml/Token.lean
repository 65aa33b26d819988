import ImportRepair.Text.Basic

/-!
# Tokens of a document

The tokens of a document with the starts and ends of its blocks, and the classes of characters that
separate them.
-/

namespace ImportRepair.Yaml

/-- A token. -/
inductive Token
  /-- The version directive, with its major number. -/
  | version (major : Nat)
  /-- The directive that makes a tag handle stand for a text. -/
  | tagDirective (handle meaning : Text)
  /-- Any other directive. -/
  | directive
  | documentStart
  | documentEnd
  | streamEnd
  | blockSequenceStart
  | blockMappingStart
  | blockEnd
  | flowSequenceStart
  | flowSequenceEnd
  | flowMappingStart
  | flowMappingEnd
  | flowEntry
  | blockEntry
  | key
  | value
  | alias (name : Text)
  | anchor (name : Text)
  /-- A tag as it is written: a handle, if it has one, and the rest. -/
  | tag (handle : Option Text) (suffix : Text)
  | scalar (plain : Bool) (text : Text)
deriving DecidableEq, Repr

/-- A line break. Carriage returns have been turned into line feeds before. -/
def isBreak (c : CodePoint) : Bool :=
  c.val = 10 || c.val = 0x85 || c.val = 0x2028 || c.val = 0x2029

/-- What a line break stands for in a scalar. -/
def breakValue (c : CodePoint) : CodePoint :=
  if c.val = 0x2028 ∨ c.val = 0x2029 then c else 10

/-- A space or a tabulator. -/
def isSpaceOrTab (c : CodePoint) : Bool := c.val = 32 || c.val = 9

/-- Whether a text is at its end or at a line break. -/
def atLineEnd (t : Text) : Bool := (t.head?.map isBreak).getD true

/-- Whether a text is at its end, at a line break or at a space. -/
def atSpace (t : Text) : Bool := (t.head?.map fun c => isBreak c || c.val = 32).getD true

/-- Whether a text is at its end, at a line break, at a space or at a tabulator. -/
def atBlank (t : Text) : Bool := (t.head?.map fun c => isBreak c || isSpaceOrTab c).getD true

/-- Whether a text starts with a character of a set. -/
def atOneOf (set : String) (t : Text) : Bool :=
  (t.head?.map (Text.ofString set).contains).getD false

/-- The characters of a name. -/
def isNameCharacter (c : CodePoint) : Bool :=
  c.isAsciiLetter || c.isAsciiDigit || c.val = 45 || c.val = 95

/-- Whether a text starts with three given characters that stand alone. -/
def atMarker (mark : String) (t : Text) : Bool :=
  (Text.ofString mark).isPrefixOf t && atBlank (t.drop 3)

/-- Whether a line starts or ends a document. -/
def atSeparator (t : Text) : Bool := atMarker "---" t || atMarker "..." t

end ImportRepair.Yaml
