import ImportRepair.Decimal.Written
import ImportRepair.Text.Quoted
import ImportRepair.Value.Basic

/-!
# Values as text

A value inside another is shown as it would be written in a program; alone, a text is shown as it
is, and a date by its digits.
-/

namespace ImportRepair.Value

mutual

/-- A value as a program would write it. -/
def literal : Value → Text
  | .null => "None"
  | .bool true => "True"
  | .bool false => "False"
  | .int n => Text.ofInt n
  | .float x => Decimal.format .plain x
  | .text t => t.quoted
  | .bytes bs => Text.quotedBytes bs
  | .date d => "datetime.date(" ++ Text.join ", " d.arguments ++ ")"
  | .moment m => "datetime.datetime(" ++ Text.join ", " m.arguments ++ ")"
  | .list vs => "[" ++ Text.join ", " (literals vs) ++ "]"
  | .pair a b => "(" ++ literal a ++ ", " ++ literal b ++ ")"
  | .set [] => "set()"
  | .set (v :: vs) => "\x7b" ++ Text.join ", " (literal v :: literals vs) ++ "\x7d"
  | .map es => "\x7b" ++ Text.join ", " (entryLiterals es) ++ "\x7d"
  | .again mapping => if mapping then "\x7b...\x7d" else "[...]"

/-- Each value of a list as a program would write it. -/
def literals : List Value → List Text
  | [] => []
  | v :: vs => literal v :: literals vs

/-- Each entry of a mapping as a program would write it. -/
def entryLiterals : List (Value × Value) → List Text
  | [] => []
  | (k, v) :: es => (literal k ++ ": " ++ literal v) :: entryLiterals es

end

/-- A value as a message shows it. -/
def display : Value → Text
  | .text t => t
  | .date d => d.display
  | .moment m => m.display
  | v => v.literal

mutual

/-- Whether a value holds a whole number that has too many digits to be shown. -/
def holdsLongNumber : Value → Bool
  | .int n => Decimal.isTooLong n
  | .list vs => anyHoldsLongNumber vs
  | .pair a b => holdsLongNumber a || holdsLongNumber b
  | .set vs => anyHoldsLongNumber vs
  | .map es => anyEntryHoldsLongNumber es
  | _ => false

/-- Whether one of some values holds such a number. -/
def anyHoldsLongNumber : List Value → Bool
  | [] => false
  | v :: vs => holdsLongNumber v || anyHoldsLongNumber vs

/-- Whether one of some entries holds such a number. -/
def anyEntryHoldsLongNumber : List (Value × Value) → Bool
  | [] => false
  | (k, v) :: es => holdsLongNumber k || holdsLongNumber v || anyEntryHoldsLongNumber es

end

end ImportRepair.Value
