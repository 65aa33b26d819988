import ImportRepair.Text.Basic

/-!
# Classes of characters

A class is given by the increasing list of the code points at which membership changes: the first
member of each run, and the first code point after it. Blanks and decimal digits are told here;
larger classes have modules of their own.
-/

namespace ImportRepair

/-- Whether an odd number of boundaries lies at or below `n`, so that `n` is inside a run. -/
def insideBoundaries : List Nat → Nat → Bool
  | [], _ => false
  | [first], n => first ≤ n
  | first :: past :: rest, n =>
    if n < first then false else if n < past then true else insideBoundaries rest n

/-! ## Blanks

The characters that are stripped from the ends of an answer: separators, the line and tabulation
controls and the four information separators. Zero-width characters and the byte order mark are not
among them.
-/

/-- A blank character. -/
def CodePoint.isBlank (c : CodePoint) : Bool :=
  (9 ≤ c.val && c.val ≤ 13) || (28 ≤ c.val && c.val ≤ 32) || c.val = 0x85 || c.val = 0xA0 ||
    c.val = 0x1680 || (0x2000 ≤ c.val && c.val ≤ 0x200A) || c.val = 0x2028 || c.val = 0x2029 ||
    c.val = 0x202F || c.val = 0x205F || c.val = 0x3000

/-- The text without the blanks at its two ends. -/
def Text.strip (t : Text) : Text :=
  dropRightWhile CodePoint.isBlank (t.dropWhile CodePoint.isBlank)

/-! ## Decimal digits

Each script's decimal digits stand in one run of ten, zero first, so a digit's value is its distance
from the start of its run.
-/

namespace CodePoint

/-- Where runs of decimal digits begin and end, in increasing order. -/
def digitBoundaries : List Nat :=
  [
   48, 58, 1632, 1642, 1776, 1786, 1984, 1994, 2406, 2416, 2534, 2544, 2662, 2672, 2790, 2800,
   2918, 2928, 3046, 3056, 3174, 3184, 3302, 3312, 3430, 3440, 3558, 3568, 3664, 3674, 3792, 3802,
   3872, 3882, 4160, 4170, 4240, 4250, 6112, 6122, 6160, 6170, 6470, 6480, 6608, 6618, 6784, 6794,
   6800, 6810, 6992, 7002, 7088, 7098, 7232, 7242, 7248, 7258, 42528, 42538, 43216, 43226, 43264,
   43274, 43472, 43482, 43504, 43514, 43600, 43610, 44016, 44026, 65296, 65306, 66720, 66730,
   68912, 68922, 69734, 69744, 69872, 69882, 69942, 69952, 70096, 70106, 70384, 70394, 70736,
   70746, 70864, 70874, 71248, 71258, 71360, 71370, 71472, 71482, 71904, 71914, 72016, 72026,
   72784, 72794, 73040, 73050, 73120, 73130, 92768, 92778, 92864, 92874, 93008, 93018, 120782,
   120832, 123200, 123210, 123632, 123642, 125264, 125274, 130032, 130042]

/-- A decimal digit of any script. -/
def isDigit (c : CodePoint) : Bool :=
  if c.val < 128 then c.isAsciiDigit else insideBoundaries digitBoundaries c.val

/-- The value of a decimal digit: its distance from the last boundary, modulo ten. -/
def digitValue? (c : CodePoint) : Option Nat :=
  if c.isDigit then
    ((digitBoundaries.takeWhile (· ≤ c.val)).getLast?).map fun start => (c.val - start) % 10
  else none

end CodePoint

end ImportRepair
