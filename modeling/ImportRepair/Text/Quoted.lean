import ImportRepair.Text.Printable

/-!
# Quoted text

A text between single quotes, or between double quotes if it holds a single quote and no double
one. What cannot be printed, the backslash and the quote in use are escaped.
-/

namespace ImportRepair

/-- A number escape, as short as the code point allows. -/
def CodePoint.numberEscape (c : CodePoint) : Text :=
  if c.val < 0x100 then "\\x" ++ Text.ofHex 2 c.val
  else if c.val < 0x10000 then "\\u" ++ Text.ofHex 4 c.val
  else "\\U" ++ Text.ofHex 8 c.val

namespace Text

/-- One code point between the given quotes. -/
def quotePoint (quote c : CodePoint) : Text :=
  if c = quote ∨ c = ('\\' : CodePoint) then ['\\', c]
  else if c = ('\n' : CodePoint) then "\\n"
  else if c = ('\r' : CodePoint) then "\\r"
  else if c = ('\t' : CodePoint) then "\\t"
  else if c.isPrintable then [c]
  else c.numberEscape

/-- The quotes that need fewer escapes; the single ones if both need some. -/
def quoteFor (t : Text) : CodePoint :=
  if t.contains ('\'' : CodePoint) && !t.contains ('"' : CodePoint) then '"' else '\''

/-- The text in quotes. -/
def quoted (t : Text) : Text :=
  let quote := t.quoteFor
  quote :: t.flatMap (quotePoint quote) ++ [quote]

/-- A byte string in quotes, with the mark of bytes. -/
def quotedBytes (bytes : List UInt8) : Text :=
  let shown : Text := bytes.map fun b => CodePoint.clamp b.toNat
  let quote := shown.quoteFor
  ('b' : CodePoint) :: quote :: shown.flatMap (fun c =>
    if c.val < 127 then quotePoint quote c else c.numberEscape) ++ [quote]

end Text

end ImportRepair
