/-!
# Binary floating point of 64 bits

A number is its bit pattern; its value is an integer times a power of two, and every operation works
on that exact value and rounds once, to nearest, ties to the even mantissa.
-/

namespace ImportRepair

/-- A floating point number, by its bits. -/
structure Binary64 where
  bits : Nat
deriving DecidableEq, Repr

namespace Binary64

/-- What a bit pattern stands for. A finite number is `mantissa * 2 ^ (exponent - 1074)`, negated
if `negative` holds. -/
inductive Shape
  | finite (negative : Bool) (mantissa exponent : Nat)
  | infinite (negative : Bool)
  | notANumber
deriving DecidableEq, Repr

/-- What the bits stand for. -/
def shape (x : Binary64) : Shape :=
  let negative := Nat.pow 2 63 ≤ x.bits
  let rest := x.bits % Nat.pow 2 63
  let field := rest / Nat.pow 2 52
  let fraction := rest % Nat.pow 2 52
  if field = 2047 then if fraction = 0 then .infinite negative else .notANumber
  else if field = 0 then .finite negative fraction 0
  else .finite negative (fraction + Nat.pow 2 52) (field - 1)

/-- A positive pattern with a sign put on it. -/
def withSign (negative : Bool) (bits : Nat) : Binary64 :=
  ⟨if negative then bits + Nat.pow 2 63 else bits⟩

/-- Infinity. -/
def infinity (negative : Bool) : Binary64 := withSign negative (2047 * Nat.pow 2 52)

/-- The pattern of what is no number. -/
def nan : Binary64 := ⟨2047 * Nat.pow 2 52 + Nat.pow 2 51⟩

/-- A quotient rounded to the nearest integer, a tie to the even one. -/
def roundDiv (num den : Nat) : Nat :=
  let q := num / den
  let r := num % den
  if 2 * r < den ∨ (2 * r = den ∧ q % 2 = 0) then q else q + 1

/-- The number nearest to a quotient, for a positive denominator. -/
def ofRatio (negative : Bool) (num den : Nat) : Binary64 :=
  if num = 0 then withSign negative 0
  else
    let guess : Int := (num.log2 : Int) - (den.log2 : Int)
    let reaches : Bool :=
      if guess < 0 then den ≤ num * Nat.pow 2 (-guess).toNat else den * Nat.pow 2 guess.toNat ≤ num
    let binade : Int := if reaches then guess else guess - 1
    let unit : Int := max (binade - 52) (-1074)
    let mantissa :=
      if unit < 0 then roundDiv (num * Nat.pow 2 (-unit).toNat) den
      else roundDiv num (den * Nat.pow 2 unit.toNat)
    let bits := (unit + 1074).toNat * Nat.pow 2 52 + mantissa
    if 2047 * Nat.pow 2 52 ≤ bits then infinity negative else withSign negative bits

/-- The number nearest to an integer. -/
def ofInt (n : Int) : Binary64 := ofRatio (n < 0) n.natAbs 1

/-- The number nearest to `digits * 10 ^ exponent`. Exponents beyond all finite values are cut, so
that the powers stay small. -/
def ofDecimal (negative : Bool) (digits : Nat) (exponent : Int) : Binary64 :=
  let magnitude : Int := (digits.log2 : Int) * 3 / 10 + exponent
  if digits = 0 then withSign negative 0
  else if magnitude < -400 then withSign negative 0
  else if 400 < magnitude then infinity negative
  else if exponent < 0 then ofRatio negative digits (Nat.pow 10 (-exponent).toNat)
  else ofRatio negative (digits * Nat.pow 10 exponent.toNat) 1

/-- The number with its sign reversed. -/
def neg (x : Binary64) : Binary64 :=
  ⟨if Nat.pow 2 63 ≤ x.bits then x.bits - Nat.pow 2 63 else x.bits + Nat.pow 2 63⟩

/-- A finite value in units of `2 ^ (-1074)`. -/
def units? (x : Binary64) : Option Int :=
  match x.shape with
  | .finite negative mantissa exponent =>
    some (if negative then -((mantissa * Nat.pow 2 exponent : Nat) : Int)
      else (mantissa * Nat.pow 2 exponent : Nat))
  | _ => none

/-- The number nearest to a count of units of `2 ^ (-1074)`. -/
def ofUnits (n : Int) : Binary64 := ofRatio (n < 0) n.natAbs (Nat.pow 2 1074)

/-- The sum of two numbers; infinity wins over finite numbers, and the two
infinities have no sum. -/
def add (x y : Binary64) : Binary64 :=
  match x.units?, y.units? with
  | some a, some b => ofUnits (a + b)
  | some _, none => y
  | none, some _ => x
  | none, none => if x = y then x else nan

/-- The product with an integer. -/
def mulInt (x : Binary64) (n : Int) : Binary64 :=
  match x.units?, (ofInt n).units? with
  | some a, some b => ofRatio (a * b < 0) (a * b).natAbs (Nat.pow 2 2148)
  | _, _ => x

/-- Whether the number is finite. -/
def isFinite (x : Binary64) : Bool := x.units?.isSome

/-- Whether the number equals an integer. -/
def eqInt (x : Binary64) (n : Int) : Bool :=
  match x.units? with
  | some a => a = n * Nat.pow 2 1074
  | none => false

/-- Whether two numbers are equal, by their values: zeros are, and what is no
number equals nothing. -/
def eq (x y : Binary64) : Bool :=
  match x.shape, y.shape with
  | .infinite negative, .infinite negative' => negative = negative'
  | _, _ => x.units?.isSome && x.units? = y.units?

/-- The number, with bits of its own if it is no number, so that it can be told from
the others of that kind. -/
def own (x : Binary64) (mark : Nat) : Binary64 :=
  match x.shape with
  | .notANumber => ⟨nan.bits + 1 + mark⟩
  | _ => x

/-- Whether the number is a zero. -/
def isZero (x : Binary64) : Bool := x.units? = some 0

end Binary64

end ImportRepair
