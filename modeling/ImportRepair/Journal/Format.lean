import ImportRepair.Decimal.Binary64
import ImportRepair.Text.Classes
import ImportRepair.Text.Quoted
import ImportRepair.Text.Word

/-!
# Record formats

A record format is a text with fields such as `%(message)s` or `%(levelno)-5d`: a percent sign, the
field's name, flags, width, precision, and a conversion.
-/

namespace ImportRepair.RecordFormat

/-- How a field is written. -/
structure Spec where
  left : Bool
  plus : Bool
  blank : Bool
  zero : Bool
  alternate : Bool
  width : Nat
  precision : Option Nat
  conversion : CodePoint

/-- A part of a format. -/
inductive Piece
  | literal (c : CodePoint)
  | field (name : Text) (spec : Spec)

/-- The value of a field. -/
inductive FieldValue
  | text (t : Text)
  | number (n : Nat)

/-! ## Reading a format -/

/-- The flags of a field. -/
def isFlag (c : CodePoint) : Bool := ("#0+ -" : Text).contains c

/-- The conversions that a valid field may have, in either case. -/
def isConversion (c : CodePoint) : Bool := ("diouxefgcrsaDIOUXEFGCRSA%İıſ" : Text).contains c

/-- The number that a text of ASCII digits stands for. -/
def digitsValue (t : Text) : Nat := t.foldl (fun n c => n * 10 + (c.val - 48)) 0

/-- The text after an optional star or number. -/
def afterAmount (t : Text) : Text :=
  if t.head? = some ('*' : CodePoint) then t.drop 1 else t.dropWhile CodePoint.isDigit

/-- Whether a text starts with a field. -/
def startsWithField (t : Text) : Bool :=
  match t with
  | percent :: open_ :: t =>
    let name := t.takeWhile CodePoint.isWord
    match t.drop name.length with
    | close :: t =>
      let t := afterAmount (t.dropWhile isFlag)
      let t' : Text :=
        match t with
        | point :: u =>
          if point = ('.' : CodePoint) ∧
              (u.head?.map fun c => c = ('*' : CodePoint) || c.isDigit) = some true then
            afterAmount u
          else t
        | [] => t
      percent = ('%' : CodePoint) && open_ = ('(' : CodePoint) && !name.isEmpty &&
        close = (')' : CodePoint) && (t'.head?.map isConversion).getD false
    | [] => false
  | _ => false

/-- Whether a format has a field. -/
def isValid : Text → Bool
  | [] => false
  | c :: t => startsWithField (c :: t) || isValid t

/-- The name of a field up to the parenthesis that closes it, and the rest. -/
def splitName : (depth : Nat) → Text → Option (Text × Text)
  | _, [] => none
  | depth, c :: t =>
    if c = (')' : CodePoint) then
      match depth with
      | 0 => some ([], t)
      | depth + 1 => (splitName depth t).map fun (name, rest) => (c :: name, rest)
    else
      (splitName (if c = ('(' : CodePoint) then depth + 1 else depth) t).map
        fun (name, rest) => (c :: name, rest)

/-- A field after its percent sign, and the rest. -/
def readField? (t : Text) : Option (Piece × Text) := do
  match t with
  | [] => none
  | c :: t =>
    if c = ('%' : CodePoint) then some (.literal c, t)
    else if c ≠ ('(' : CodePoint) then none
    else
      let (name, t) ← splitName 0 t
      let flags := t.takeWhile isFlag
      let t := t.dropWhile isFlag
      let width := digitsValue (t.takeWhile CodePoint.isAsciiDigit)
      let t := t.dropWhile CodePoint.isAsciiDigit
      let hasPrecision := t.head? = some ('.' : CodePoint)
      let t := if hasPrecision then t.drop 1 else t
      let digits := if hasPrecision then t.takeWhile CodePoint.isAsciiDigit else []
      let t := t.drop digits.length
      let t := if (t.head?.map ("hlL" : Text).contains).getD false then t.drop 1 else t
      match t with
      | [] => none
      | conversion :: rest =>
        some (.field name
          { left := flags.contains ('-' : CodePoint)
            plus := flags.contains ('+' : CodePoint)
            blank := flags.contains (' ' : CodePoint)
            zero := flags.contains ('0' : CodePoint)
            alternate := flags.contains ('#' : CodePoint)
            width
            precision := if hasPrecision then some (digitsValue digits) else none
            conversion }, rest)

/-- The parts of a format, read within as many steps as it has characters. -/
def readPieces? : (steps : Nat) → Text → Option (List Piece)
  | _, [] => some []
  | 0, _ => none
  | steps + 1, c :: t =>
    if c = ('%' : CodePoint) then do
      let (piece, rest) ← readField? t
      let pieces ← readPieces? steps rest
      some (piece :: pieces)
    else (readPieces? steps t).map (.literal c :: ·)

/-- The parts of a format. -/
def pieces? (format : Text) : Option (List Piece) := readPieces? format.length format

/-! ## Writing a record -/

/-- A field filled up to its width. Zeros go between the sign and the digits. -/
def pad (spec : Spec) (zeros : Bool) (sign body : Text) : Text :=
  let missing := spec.width - (sign.length + body.length)
  if spec.left then sign ++ body ++ List.replicate missing (' ' : CodePoint)
  else if zeros && spec.zero then sign ++ List.replicate missing ('0' : CodePoint) ++ body
  else List.replicate missing (' ' : CodePoint) ++ sign ++ body

/-- The sign of a number that is not negative. -/
def Spec.sign (spec : Spec) : Text := if spec.plus then "+" else if spec.blank then " " else []

/-- The digits of a number in a base up to sixteen. -/
def inBase (base n : Nat) : Text := Text.ofString (String.ofList (Nat.toDigits base n))

/-- The letters a to z as capitals. -/
def capitals (t : Text) : Text :=
  t.map fun c => if 97 ≤ c.val ∧ c.val ≤ 122 then .clamp (c.val - 32) else c

/-- A whole number with at least as many digits as the precision asks for. -/
def writeWhole (spec : Spec) (base : Nat) (mark : Text) (upper : Bool) (n : Nat) : Text :=
  let digits := inBase base n
  let digits := if upper then capitals digits else digits
  pad spec true (spec.sign ++ if spec.alternate then mark else [])
    (Text.padLeft '0' (spec.precision.getD 0) digits)

/-- The point that an alternate form keeps when no digit follows it, and the digits after it. -/
def fraction (keep : Bool) (digits : Text) : Text :=
  if digits.isEmpty && !keep then [] else ("." : Text) ++ digits

/-- A number with a fixed number of places, all of them zero. -/
def fixed (keep : Bool) (places n : Nat) : Text :=
  Text.ofNat n ++ fraction keep (List.replicate places ('0' : CodePoint))

/-- The digits of a number, the first `places + 1` of them, and its exponent. -/
def scientific (places n : Nat) : Text × Nat :=
  let cut := (Nat.repr n).length - 1 - places
  let digits := Text.ofNat (Binary64.roundDiv n (Nat.pow 10 cut))
  ((digits ++ List.replicate places ('0' : CodePoint)).take (places + 1), digits.length - 1 + cut)

/-- The digits and the exponent in one text. -/
def withExponent (keep : Bool) (digits : Text) (exponent : Nat) : Text :=
  digits.take 1 ++ fraction keep (digits.drop 1) ++ "e+" ++ Text.padLeft '0' 2 (Text.ofNat exponent)

/-- A number with one digit before the point, the given number of places, and an exponent. -/
def exponential (keep : Bool) (places n : Nat) : Text :=
  let (digits, exponent) := scientific places n
  withExponent keep digits exponent

/-- A number in the shorter of both forms, with the given number of digits. The zeros at its end are
kept in the alternate form only. -/
def general (keep : Bool) (digits n : Nat) : Text :=
  let size := max digits 1
  let (digits, exponent) := scientific (size - 1) n
  if exponent < size then fixed keep (if keep then size - 1 - exponent else 0) n
  else
    let rest := if keep then digits.drop 1
      else Text.dropRightWhile (· = ('0' : CodePoint)) (digits.drop 1)
    withExponent keep (digits.take 1 ++ rest) exponent

/-- The text of a value, in quotes if it is a text and quotes are asked for. -/
def FieldValue.shown (quotes : Bool) : FieldValue → Text
  | .text t => if quotes then t.quoted else t
  | .number n => Text.ofNat n

/-- One field of a record, if its conversion fits its value. -/
def writeField? (spec : Spec) (value : FieldValue) : Option Text :=
  let is (c : Char) : Bool := spec.conversion = (c : CodePoint)
  let cut (t : Text) : Text := (spec.precision.map t.take).getD t
  if is 's' then some (pad spec false [] (cut (value.shown false)))
  else if is 'r' then some (pad spec false [] (cut (value.shown true)))
  else if is 'a' then
    some (pad spec false [] (cut ((value.shown true).flatMap fun c =>
      if c.val < 128 then [c] else c.numberEscape)))
  else
    match value with
    | .text [c] => if is 'c' then some (pad spec false [] [c]) else none
    | .text _ => none
    | .number n =>
      let places := spec.precision.getD 6
      let real (t : Text) : Option Text := some (pad spec true spec.sign t)
      if is 'd' || is 'i' || is 'u' then some (writeWhole spec 10 [] false n)
      else if is 'o' then some (writeWhole spec 8 "0o" false n)
      else if is 'x' then some (writeWhole spec 16 "0x" false n)
      else if is 'X' then some (writeWhole spec 16 "0X" true n)
      else if is 'c' then some (pad spec false [] [.clamp n])
      else if is 'f' || is 'F' then real (fixed spec.alternate places n)
      else if is 'e' then real (exponential spec.alternate places n)
      else if is 'E' then real (capitals (exponential spec.alternate places n))
      else if is 'g' then real (general spec.alternate places n)
      else if is 'G' then real (capitals (general spec.alternate places n))
      else none

/-- A record in a format, given the values of its fields. Nothing is written if a field is unknown
or does not fit its conversion. -/
def write? (field? : Text → Option FieldValue) (format : Text) : Option Text := do
  let pieces ← pieces? format
  let parts ← pieces.mapM fun piece =>
    match piece with
    | .literal c => some [c]
    | .field name spec => (field? name).bind (writeField? spec)
  some parts.flatten

end ImportRepair.RecordFormat
