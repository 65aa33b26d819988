import ImportRepair.Decimal.Binary64
import ImportRepair.Text.Case
import ImportRepair.Text.Classes
import ImportRepair.Yaml.Error

/-!
# Numbers in documents

Whole numbers in four bases and by sixties, and numbers with a point. Underscores between the digits
do not count. A tag can ask for a number where the text is none; then the error tells the text.
-/

namespace ImportRepair.Yaml.Number

/-- A text without its underscores. -/
def withoutGaps (t : Text) : Text := t.filter fun c => c.val ≠ 95

/-- Whether a text has a minus sign, and the text without its sign. A text without a first character
has no sign to look at. -/
def splitSign (t : Text) : Except Error (Bool × Text) :=
  match t with
  | [] => .error .emptyNumber
  | c :: u => .ok (c.val = 45, if c.val = 45 ∨ c.val = 43 then u else t)

/-- The value of a digit of any script or of a letter. -/
def digitOrLetter? (c : CodePoint) : Option Nat :=
  match c.digitValue? with
  | some v => some v
  | none =>
    if 65 ≤ c.val ∧ c.val ≤ 90 then some (c.val - 55)
    else if 97 ≤ c.val ∧ c.val ≤ 122 then some (c.val - 87)
    else none

/-- The values of the digits that a text starts with in a base, and the rest. -/
def digitsIn (base : Nat) : Text → List Nat × Text
  | [] => ([], [])
  | c :: t =>
    match (digitOrLetter? c).filter (· < base) with
    | some v =>
      let (digits, rest) := digitsIn base t
      (v :: digits, rest)
    | none => ([], c :: t)

/-- A blank that may stand around a number: all but the information separators. -/
def isBlankAround (c : CodePoint) : Bool := c.isBlank && !(28 ≤ c.val && c.val ≤ 31)

/-- A text without the blanks that may stand around a number. -/
def trimmed (t : Text) : Text := Text.dropRightWhile isBlankAround (t.dropWhile isBlankAround)

/-- The letter that marks a base after a zero. -/
def baseMark? (base : Nat) : Option Nat :=
  if base = 2 then some 98 else if base = 8 then some 111 else if base = 16 then some 120 else none

/-- A whole number in a base, with blanks around it, a sign and the mark of the base if they are
there: whether it has a minus sign, and the digits with what follows them. -/
def splitWhole (base : Nat) (t : Text) : Bool × Text :=
  let t := trimmed t
  let negative : Bool := t.head? = some (45 : CodePoint)
  let t := if negative ∨ t.head? = some (43 : CodePoint) then t.drop 1 else t
  match t with
  | zero :: mark :: rest =>
    if zero.val = 48 ∧ some mark.val ∈ [baseMark? base, (baseMark? base).map (· - 32)] then
      (negative, rest)
    else (negative, t)
  | _ => (negative, t)

/-- A whole number in a base, or the error that tells the text. In base ten the digits are limited,
even if something else follows them. -/
def wholeIn (base : Nat) (t : Text) : Except Error Int :=
  let (negative, body) := splitWhole base t
  let (digits, rest) := digitsIn base body
  if base = 10 ∧ Decimal.maxDigits < digits.length then .error (.tooManyDigits digits.length)
  else if digits = [] ∨ rest ≠ [] then .error (.badInteger base t)
  else
    let n : Nat := digits.foldl (fun n v => n * base + v) 0
    .ok (if negative then -(n : Int) else n)

/-- The whole number that a scalar stands for. -/
def readInt (t : Text) : Except Error Int := do
  let (negative, t) ← splitSign (withoutGaps t)
  let signed (n : Int) : Int := if negative then -n else n
  if t = ("0" : Text) then return 0
  match t with
  | [] => throw .emptyNumber
  | c :: rest =>
    if c.val = 48 then
      match rest with
      | mark :: digits =>
        if mark.val = 98 then return signed (← wholeIn 2 digits)
        else if mark.val = 120 then return signed (← wholeIn 16 digits)
        else return signed (← wholeIn 8 t)
      | [] => return 0
    else if t.contains 58 then
      let parts ← (Text.splitAt 58 t).mapM (wholeIn 10)
      return signed (parts.foldl (fun n part => n * 60 + part) 0)
    else return signed (← wholeIn 10 t)

/-- A number of decimal digits with a point and an exponent if they are there. -/
def decimal? (t : Text) : Option Binary64 := do
  let isDigit (c : CodePoint) : Bool := c.isDigit
  let value (ds : Text) : Nat := ds.foldl (fun n c => n * 10 + (c.digitValue?).getD 0) 0
  let negative := t.head? = some (45 : CodePoint)
  let t := if negative ∨ t.head? = some (43 : CodePoint) then t.drop 1 else t
  if [("inf" : Text), "infinity"].contains t then return Binary64.infinity negative
  if t = ("nan" : Text) then return Binary64.nan
  let whole := t.takeWhile isDigit
  let t := t.drop whole.length
  let pointed := t.head? = some (46 : CodePoint)
  let places := if pointed then (t.drop 1).takeWhile isDigit else []
  let t := if pointed then t.drop (places.length + 1) else t
  if whole = [] ∧ places = [] then none
  let mantissa := value (whole ++ places)
  match t with
  | [] => some (Binary64.ofDecimal negative mantissa (-(places.length : Int)))
  | e :: t =>
    if e.val ≠ 101 then none
    else
      let below := t.head? = some (45 : CodePoint)
      let t := if below ∨ t.head? = some (43 : CodePoint) then t.drop 1 else t
      if t = [] ∨ !t.all isDigit then none
      else
        let exponent : Int := if below then -(value t : Int) else value t
        some (Binary64.ofDecimal negative mantissa (exponent - places.length))

/-- A number with blanks around it, or the error that tells the text. -/
def decimal (t : Text) : Except Error Binary64 :=
  match decimal? (trimmed t) with
  | some x => .ok x
  | none => .error (.badNumber t)

/-- The sum of numbers, the lowest first, each sixty times as heavy as the one before. A
weight has to be finite. -/
def sumBySixties (sum : Binary64) (weight : Int) : List Binary64 → Except Error Binary64
  | [] => .ok sum
  | part :: parts =>
    if (Binary64.ofInt weight).isFinite then
      sumBySixties (sum.add (part.mulInt weight)) (weight * 60) parts
    else .error .tooHeavy

/-- A number without its sign in lower case, as words and digits are looked for in it. -/
def splitFloat (t : Text) : Except Error (Bool × Text) := splitSign (Text.toLower (withoutGaps t))

/-- Whether a scalar is the word for what is no number. -/
def isNanWord (t : Text) : Bool :=
  match splitFloat t with
  | .ok (_, word) => word = (".nan" : Text)
  | .error _ => false

/-- The number that a scalar stands for. -/
def readFloat (t : Text) : Except Error Binary64 := do
  let (negative, t) ← splitFloat t
  let signed (x : Binary64) : Binary64 := if negative then x.neg else x
  if t = (".inf" : Text) then return Binary64.infinity negative
  if t = (".nan" : Text) then return Binary64.nan
  if t.contains 58 then
    let parts ← (Text.splitAt 58 t).mapM decimal
    return signed (← sumBySixties (Binary64.ofInt 0) 1 parts.reverse)
  else return signed (← decimal t)

end ImportRepair.Yaml.Number
