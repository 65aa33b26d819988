import ImportRepair.Text.Basic

/-!
# Scalars without a tag

What a plain scalar is taken for: a truth value, a number, a date, nothing, or text. Only certain
spellings count.
-/

namespace ImportRepair.Yaml

/-- A tag of the standard set. -/
inductive StandardTag
  | null
  | bool
  | int
  | float
  | binary
  | timestamp
  | omap
  | pairs
  | set
  | str
  | seq
  | map
  /-- The key that merges another mapping. -/
  | merge
  /-- The key that stands for a mapping's plain value. -/
  | value
  /-- A character that is an indicator. -/
  | indicator
deriving DecidableEq, Repr

namespace StandardTag

/-- What the tags of the standard set start with. -/
def stem : Text := "tag:yaml.org,2002:"

/-- The tags by their names. -/
def names : List (Text × StandardTag) :=
  [("null", null), ("bool", bool), ("int", int), ("float", float), ("binary", binary),
    ("timestamp", timestamp), ("omap", omap), ("pairs", pairs), ("set", set), ("str", str),
    ("seq", seq), ("map", map), ("merge", merge), ("value", value), ("yaml", indicator)]

/-- The standard tag with a full name. -/
def ofName? (name : Text) : Option StandardTag :=
  if stem.isPrefixOf name then names.lookup (name.drop stem.length) else none

end StandardTag

/-! ## Spellings -/

namespace Spelling

/-- A decimal digit or an underscore. -/
def isDigitOrGap (c : CodePoint) : Bool := c.isAsciiDigit || c.val = 95

/-- A text without its sign. -/
def unsigned (t : Text) : Text :=
  match t with
  | c :: u => if c.val = 43 ∨ c.val = 45 then u else t
  | [] => []

/-- A digit followed by digits and underscores. -/
def isWholePart (t : Text) : Bool :=
  (t.head?.map CodePoint.isAsciiDigit).getD false && t.all isDigitOrGap

/-- An exponent with its sign, or nothing. -/
def isExponent (t : Text) : Bool :=
  match t with
  | [] => true
  | e :: sign :: digits =>
    (e.val = 101 || e.val = 69) && (sign.val = 43 || sign.val = 45) && digits ≠ [] &&
      digits.all CodePoint.isAsciiDigit
  | _ => false

/-- A number up to 59 with at most two digits. -/
def isSixtieth (t : Text) : Bool :=
  match t with
  | [c] => c.isAsciiDigit
  | [c, d] => 48 ≤ c.val && c.val ≤ 53 && d.isAsciiDigit
  | _ => false

/-- A first part and at least one part after a colon. -/
def isSexagesimal (first : Text → Bool) (t : Text) : Bool :=
  match Text.splitAt 58 t with
  | a :: b :: rest => first a && (b :: rest).all isSixtieth
  | _ => false

/-- The text before the first point and after it. -/
def splitPoint? (t : Text) : Option (Text × Text) :=
  let whole := t.takeWhile fun c => c.val ≠ 46
  match t.drop whole.length with
  | _ :: rest => some (whole, rest)
  | [] => none

/-- A number with a point. -/
def isFloat (t : Text) : Bool :=
  let bare := unsigned t
  let places (u : Text) : Bool := isExponent (u.dropWhile isDigitOrGap)
  match splitPoint? bare with
  | none => false
  | some (whole, rest) =>
    if whole = [] then
      (t = bare && (rest.head?.map CodePoint.isAsciiDigit).getD false && places rest) ||
        ([("inf" : Text), "Inf", "INF"].contains rest) ||
        (t = bare && [("nan" : Text), "NaN", "NAN"].contains rest)
    else
      (isWholePart whole && places rest) ||
        (isSexagesimal isWholePart whole && rest.all isDigitOrGap)

/-- A whole number: binary, octal, decimal, hexadecimal or by sixties. -/
def isInt (t : Text) : Bool :=
  let t := unsigned t
  let fromOne (u : Text) : Bool :=
    isWholePart u && u.head? ≠ some (48 : CodePoint)
  match t with
  | [] => false
  | c :: u =>
    if c.val = 48 then
      u = [] || u.all (fun d => (48 ≤ d.val && d.val ≤ 55) || d.val = 95) ||
        (match u with
          | b :: digits =>
            digits ≠ [] &&
              ((b.val = 98 && digits.all fun d => d.val = 48 || d.val = 49 || d.val = 95) ||
                (b.val = 120 && digits.all fun d => d.hexValue?.isSome || d.val = 95))
          | [] => false)
    else fromOne t || isSexagesimal fromOne t

/-- A truth value in one of the three usual spellings of each word. -/
def isBool (t : Text) : Bool :=
  [("yes" : Text), "Yes", "YES", "no", "No", "NO", "true", "True", "TRUE", "false",
    "False", "FALSE", "on", "On", "ON", "off", "Off", "OFF"].contains t

/-- Nothing. -/
def isNull (t : Text) : Bool := [([] : Text), "~", "null", "Null", "NULL"].contains t

end Spelling

/-! ## Dates -/

/-- The parts of a date as they are written. -/
structure DateText where
  year : Text
  month : Text
  day : Text
  /-- Hour, minute, second and the digits after the point. -/
  time : Option (Text × Text × Text × Text)
  /-- Whether a zone is given, and its sign, hours and minutes unless it is universal time. -/
  zone : Option (Option (Bool × Text × Text))

namespace DateText

/-- As many digits as asked for, and the rest. -/
def digits? (least most : Nat) (t : Text) : Option (Text × Text) :=
  let ds := (t.takeWhile CodePoint.isAsciiDigit).take most
  if ds.length < least then none else some (ds, t.drop ds.length)

/-- The rest after a given character. -/
def skip? (c : Char) (t : Text) : Option Text :=
  if t.head? = some (c : CodePoint) then some (t.drop 1) else none

/-- A zone up to the end of the text. -/
def readZone? (t : Text) : Option (Option (Option (Bool × Text × Text))) :=
  let u := t.dropWhile fun c => c.val = 32 || c.val = 9
  match u with
  | [] => if t = [] then some none else none
  | c :: rest =>
    if c.val = 90 then if rest = [] then some (some none) else none
    else if c.val = 43 ∨ c.val = 45 then do
      let (hour, rest) ← digits? 1 2 rest
      let negative : Bool := c.val = 45
      match skip? ':' rest with
      | none => if rest = [] then some (some (some (negative, hour, []))) else none
      | some rest =>
        let (minute, rest) ← digits? 2 2 rest
        if rest = [] then some (some (some (negative, hour, minute))) else none
    else none

/-- A date with or without a time of day. -/
def read? (t : Text) : Option DateText := do
  let (year, t) ← digits? 4 4 t
  let (month, t) ← digits? 1 2 (← skip? '-' t)
  let (day, t) ← digits? 1 2 (← skip? '-' t)
  match t with
  | [] => some ⟨year, month, day, none, none⟩
  | c :: u =>
    let rest ←
      if c.val = 84 ∨ c.val = 116 then some u
      else if c.val = 32 ∨ c.val = 9 then some (u.dropWhile fun c => c.val = 32 || c.val = 9)
      else none
    let (hour, t) ← digits? 1 2 rest
    let (minute, t) ← digits? 2 2 (← skip? ':' t)
    let (second, t) ← digits? 2 2 (← skip? ':' t)
    let (fraction, t) :=
      match skip? '.' t with
      | some t => (t.takeWhile CodePoint.isAsciiDigit, t.dropWhile CodePoint.isAsciiDigit)
      | none => ([], t)
    let zone ← readZone? t
    some ⟨year, month, day, some (hour, minute, second, fraction), zone⟩

/-- Whether a plain scalar is a date: one without a time has two digits each for month and day. -/
def isDate (t : Text) : Bool :=
  match read? t with
  | none => false
  | some d => d.time.isSome || (d.month.length = 2 && d.day.length = 2)

end DateText

/-- What a spelling is taken for. -/
def spelledTag (t : Text) : StandardTag :=
  if Spelling.isBool t then .bool
  else if Spelling.isFloat t then .float
  else if Spelling.isInt t then .int
  else if t = ("<<" : Text) then .merge
  else if Spelling.isNull t then .null
  else if DateText.isDate t then .timestamp
  else if t = ("=" : Text) then .value
  else if t = ("!" : Text) ∨ t = ("&" : Text) ∨ t = ("*" : Text) then .indicator
  else .str

/-- What a scalar without a tag is taken for. One line break at its end does not count, unless
there is nothing else. -/
def implicitTag (t : Text) : StandardTag :=
  if t.getLast? = some (10 : CodePoint) then
    if t.length = 1 then .str else spelledTag t.dropLast
  else spelledTag t

end ImportRepair.Yaml
