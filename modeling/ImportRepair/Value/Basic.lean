import ImportRepair.Decimal.Binary64
import ImportRepair.Value.Calendar

/-!
# Values

The values that a settings file, a module mapping or a query can hold.
-/

namespace ImportRepair

/-- A value read from a document. A mapping keeps the order of its entries. -/
inductive Value
  | null
  | bool (b : Bool)
  | int (n : Int)
  | float (x : Binary64)
  | text (t : Text)
  | bytes (bytes : List UInt8)
  | date (d : Date)
  | moment (m : Moment)
  | list (items : List Value)
  | pair (first second : Value)
  | set (items : List Value)
  | map (entries : List (Value × Value))
  /-- A list, or a mapping, within itself. -/
  | again (mapping : Bool)

/-- The entries of a mapping, in order. -/
abbrev Entries := List (Value × Value)

namespace Value

instance : Inhabited Value := ⟨.null⟩

/-- The name of a value's kind, as messages give it. -/
def kindName : Value → Text
  | .null => "NoneType"
  | .bool _ => "bool"
  | .int _ => "int"
  | .float _ => "float"
  | .text _ => "str"
  | .bytes _ => "bytes"
  | .date _ => "datetime.date"
  | .moment _ => "datetime.datetime"
  | .list _ => "list"
  | .pair _ _ => "tuple"
  | .set _ => "set"
  | .map _ => "dict"
  | .again mapping => if mapping then "dict" else "list"

/-- Whether a value counts as true: nothing, zero and what is empty do not. -/
def isTruthy : Value → Bool
  | .null => false
  | .bool b => b
  | .int n => n ≠ 0
  | .float x => !x.isZero
  | .text t => !t.isEmpty
  | .bytes bs => !bs.isEmpty
  | .date _ => true
  | .moment _ => true
  | .list vs => !vs.isEmpty
  | .pair _ _ => true
  | .set vs => !vs.isEmpty
  | .map es => !es.isEmpty
  | .again _ => true

/-- The entries of a mapping. -/
def entries? : Value → Option Entries
  | .map es => some es
  | _ => none

/-- The text of a text value. -/
def text? : Value → Option Text
  | .text t => some t
  | _ => none

/-- Whether a value can be a key. -/
def isKey : Value → Bool
  | .list _ => false
  | .set _ => false
  | .map _ => false
  | .again _ => false
  | .pair a b => a.isKey && b.isKey
  | _ => true

/-- The whole number that a truth value or a number stands for as a key. -/
def wholeNumber? : Value → Option Int
  | .bool b => some (if b then 1 else 0)
  | .int n => some n
  | _ => none

/-- The value, told from all others of its kind by a mark if it is no number. -/
def own (mark : Nat) : Value → Value
  | .float x => .float (x.own mark)
  | v => v

/-- Whether two keys are the same. Numbers are compared by value, truth values count as numbers.
What is no number equals nothing, but it is the same key as itself. -/
def sameKey : Value → Value → Bool
  | .null, .null => true
  | .text t, .text u => t = u
  | .bytes b, .bytes c => b = c
  | .date d, .date e => d = e
  | .moment m, .moment n => m.eq n
  | .pair a b, .pair c d => a.sameKey c && b.sameKey d
  | .float x, .float y => x = y || x.eq y
  | .float x, v => (v.wholeNumber?.map x.eqInt).getD false
  | v, .float x => (v.wholeNumber?.map x.eqInt).getD false
  | v, w =>
    match v.wholeNumber?, w.wholeNumber? with
    | some m, some n => m = n
    | _, _ => false

end Value

namespace Entries

/-- The value at a key. -/
def find? (key : Value) : Entries → Option Value
  | [] => none
  | (k, v) :: es => if k.sameKey key then some v else find? key es

/-- The value at a text. -/
def get? (es : Entries) (key : Text) : Option Value := es.find? (.text key)

/-- The entries with a value put at a key: a key keeps its place and its first spelling, a new one
comes last. -/
def put (key value : Value) : Entries → Entries
  | [] => [(key, value)]
  | (k, v) :: es => if k.sameKey key then (k, value) :: es else (k, v) :: put key value es

/-- The entries with a value put at a text. -/
def set (es : Entries) (key : Text) (value : Value) : Entries := es.put (.text key) value

end Entries

end ImportRepair
