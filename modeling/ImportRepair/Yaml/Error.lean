import ImportRepair.Decimal.Written
import ImportRepair.Text.Quoted
import ImportRepair.Value.Calendar

/-!
# Errors of documents

A document can break the rules of its format, or hold a scalar whose tag promises a number, a date
or a truth value that its text is not.
-/

namespace ImportRepair.Yaml

/-- Why a document has no value. -/
inductive Error
  /-- The document breaks the rules of the format. -/
  | malformed
  /-- The document ends where a scalar or a tag should be closed. -/
  | unclosed
  /-- The numbers of a date are out of range. -/
  | calendar (e : CalendarError)
  /-- A text is no whole number in a base. -/
  | badInteger (base : Nat) (text : Text)
  /-- A whole number in base ten has more digits than can be read. -/
  | tooManyDigits (count : Nat)
  /-- A text is no number. -/
  | badNumber (text : Text)
  /-- A number has no text. -/
  | emptyNumber
  /-- A text is no truth value. -/
  | badTruth (text : Text)
  /-- A text is no date. -/
  | badDate
  /-- A date is asked for where there is no text. -/
  | dateOfMapping
  /-- A number is no code point; `huge` if it does not even fit into 32 bits. -/
  | badCodePoint (huge : Bool)
  /-- A part of a number by sixties weighs too much. -/
  | tooHeavy
  /-- Parts are nested too deeply. -/
  | tooDeep
deriving DecidableEq, Repr

/-- Whether the error is one of the format, and not of a value. -/
def Error.isOfFormat : Error → Bool
  | .malformed | .unclosed => true
  | _ => false

/-- How much of a text that is no whole number is told. -/
def maxShown : Nat := 200

/-- The wording of the error. How a document breaks the rules is not told. -/
def Error.message : Error → Text
  | .malformed | .unclosed => []
  | .calendar e => e.message
  | .badInteger base text =>
    "invalid literal for int() with base " ++ Text.ofNat base ++ ": " ++
      text.quoted.take maxShown
  | .tooManyDigits count => Decimal.tooLong (": value has " ++ Text.ofNat count ++ " digits")
  | .badNumber text => "could not convert string to float: " ++ text.quoted
  | .emptyNumber => "string index out of range"
  | .badTruth text => text.quoted
  | .badDate => "'NoneType' object has no attribute 'groupdict'"
  | .dateOfMapping => "expected string or bytes-like object, got 'list'"
  | .badCodePoint huge =>
    if huge then "Python int too large to convert to C int" else "chr() arg not in range(0x110000)"
  | .tooHeavy => "int too large to convert to float"
  | .tooDeep => "maximum recursion depth exceeded"

end ImportRepair.Yaml
