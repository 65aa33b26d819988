import ImportRepair.Decimal.Binary64
import ImportRepair.Text.Basic

/-!
# Numbers in base ten

Reading and writing a whole number in base ten takes time that grows with the square of its length,
so its length is limited. Other bases have no limit. A floating point number is written with the
fewest digits that read back as the same number, and of those with the ones nearest to it. A layout
says when the digits are written with an exponent.
-/

namespace ImportRepair.Decimal

/-! ## The longest whole number -/

/-- How many digits a whole number may have. -/
def maxDigits : Nat := 4300

/-- Whether a whole number has too many digits to be written. -/
def isTooLong (n : Int) : Bool := Nat.pow 10 maxDigits ≤ n.natAbs

/-- The wording for a number that is too long; `what` says more about it. -/
def tooLong (what : Text) : Text :=
  "Exceeds the limit (" ++ Text.ofNat maxDigits ++ " digits) for integer string conversion" ++
    what ++ "; use sys.set_int_max_str_digits() to increase the limit"

/-! ## The shortest decimal -/

/-- The interval of reals that read as one number, in units of `2 ^ (-1076)`: the number, its two
ends, and whether the ends belong to it. -/
structure Interval where
  value : Nat
  low : Nat
  high : Nat
  closed : Bool

/-- The interval of `mantissa * 2 ^ (exponent - 1074)`. Below a power of two the numbers are twice
as dense. -/
def Interval.of (mantissa exponent : Nat) : Interval :=
  let unit := Nat.pow 2 (exponent + 2)
  let value := mantissa * unit
  { value
    low := if mantissa = Nat.pow 2 52 ∧ exponent ≠ 0 then value - unit / 4 else value - unit / 2
    high := value + unit / 2
    closed := mantissa % 2 = 0 }

/-- Whether `digits * 10 ^ exponent` lies in the interval. -/
def Interval.holds (r : Interval) (digits : Nat) (exponent : Int) : Bool :=
  let num := digits * Nat.pow 2 1076 * Nat.pow 10 exponent.toNat
  let den := Nat.pow 10 (-exponent).toNat
  if r.closed then r.low * den ≤ num && num ≤ r.high * den
  else r.low * den < num && num < r.high * den

/-- How many digits the value has before the point, counted below zero if it starts after it. -/
def Interval.pointOf (r : Interval) : Int :=
  let guess : Int := ((r.value.log2 : Int) - 1076) * 30103 / 100000
  let atLeast (k : Int) : Bool :=
    Nat.pow 2 1076 * Nat.pow 10 k.toNat ≤ r.value * Nat.pow 10 (-k).toNat
  if atLeast (guess + 1) then guess + 2 else if atLeast guess then guess + 1 else guess

/-- The better of the two neighbours of the value on the grid of `10 ^ exponent`, if one of them
lies in the interval. A tie goes to the even one. -/
def Interval.onGrid? (r : Interval) (exponent : Int) : Option Nat :=
  let num := r.value * Nat.pow 10 (-exponent).toNat
  let den := Nat.pow 2 1076 * Nat.pow 10 exponent.toNat
  let below := num / den
  let rest := num % den
  let belowFirst := 2 * rest < den || (2 * rest = den && below % 2 = 0)
  if belowFirst then
    if r.holds below exponent then some below
    else if r.holds (below + 1) exponent then some (below + 1) else none
  else
    if r.holds (below + 1) exponent then some (below + 1)
    else if r.holds below exponent then some below else none

/-- The digits and the exponent of the first grid, from coarse to fine, that has a number of the
interval. Seventeen digits always suffice. -/
def Interval.shortest (r : Interval) : Nat × Int :=
  let point := r.pointOf
  ((List.range 17).findSome? fun (k : Nat) =>
    let exponent := point - 1 - (k : Int)
    (r.onGrid? exponent).map fun digits => (digits, exponent)).getD (0, 0)

/-- Which numbers are written without an exponent: those whose point stands after position
`firstPoint` and not after `lastPoint`; and the least number of digits of an exponent. -/
structure Layout where
  firstPoint : Int
  lastPoint : Int
  exponentDigits : Nat

/-- The layout of numbers in messages and keys. -/
def Layout.plain : Layout := ⟨-4, 16, 2⟩

/-- Digits with a point after position `point`, and at least one digit on both sides of it. -/
def positional (digits : Text) (point : Int) : Text :=
  if point ≤ 0 then
    "0." ++ List.replicate (-point).toNat ('0' : CodePoint) ++ digits
  else
    let k := point.toNat
    if digits.length ≤ k then
      digits ++ List.replicate (k - digits.length) ('0' : CodePoint) ++ ".0"
    else digits.take k ++ "." ++ digits.drop k

/-- Digits with the point after the first one, and an exponent. -/
def scientific (layout : Layout) (digits : Text) (point : Int) : Text :=
  let exponent := point - 1
  let fraction : Text := if digits.length ≤ 1 then [] else "." ++ digits.drop 1
  digits.take 1 ++ fraction ++ "e" ++ (if exponent < 0 then "-" else "+" : Text) ++
    Text.padLeft '0' layout.exponentDigits (Text.ofNat exponent.natAbs)

/-- A number as text. -/
def format (layout : Layout) (x : Binary64) : Text :=
  match x.shape with
  | .notANumber => "nan"
  | .infinite negative => if negative then "-inf" else "inf"
  | .finite negative mantissa exponent =>
    let sign : Text := if negative then "-" else []
    if mantissa = 0 then sign ++ "0.0"
    else
      let (number, power) := (Interval.of mantissa exponent).shortest
      let all := Text.ofNat number
      let digits := Text.dropRightWhile (· = ('0' : CodePoint)) all
      let point := power + all.length
      sign ++
        (if layout.firstPoint < point ∧ point ≤ layout.lastPoint then positional digits point
         else scientific layout digits point)

end ImportRepair.Decimal
