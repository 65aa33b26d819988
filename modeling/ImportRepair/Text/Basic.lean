/-!
# Text as a list of code points

Paths, modules and log lines may hold surrogates that no character encoding accepts, so text is a
list of code points and not of characters.

Results:
* `Text.mem_sortDistinct`: sorting without repetition keeps exactly the given texts.
* `Text.sortDistinct_sorted`: its result is strictly increasing by code point.
-/

namespace ImportRepair

/-- A Unicode code point. Surrogates are code points too. -/
abbrev CodePoint := Fin 0x110000

/-- Code points can be written as numbers. -/
instance CodePoint.neZero : @NeZero Nat (@Zero.ofOfNat0 Nat (instOfNatNat 0)) 0x110000 :=
  ⟨by decide⟩

/-- A text is the list of its code points. -/
abbrev Text := List CodePoint

namespace CodePoint

/-- The code point of a character. -/
def ofChar (c : Char) : CodePoint :=
  ⟨c.toNat, by
    have h := c.valid
    simp only [UInt32.isValidChar, Nat.isValidChar] at h
    show c.val.toNat < 0x110000
    omega⟩

/-- The code point at a number, the largest one if the number is too large. -/
def clamp (n : Nat) : CodePoint := ⟨min n 0x10FFFF, by omega⟩

/-- Surrogates are the code points that are no characters. -/
def isSurrogate (c : CodePoint) : Bool := 0xD800 ≤ c.val && c.val ≤ 0xDFFF

/-- The character of a code point, a replacement character for a surrogate. -/
def toChar (c : CodePoint) : Char := if c.isSurrogate then '\uFFFD' else Char.ofNat c.val

/-- An ASCII digit. -/
def isAsciiDigit (c : CodePoint) : Bool := 48 ≤ c.val && c.val ≤ 57

/-- An ASCII letter. -/
def isAsciiLetter (c : CodePoint) : Bool :=
  (65 ≤ c.val && c.val ≤ 90) || (97 ≤ c.val && c.val ≤ 122)

/-- The value of a hexadecimal digit. -/
def hexValue? (c : CodePoint) : Option Nat :=
  if 48 ≤ c.val ∧ c.val ≤ 57 then some (c.val - 48)
  else if 65 ≤ c.val ∧ c.val ≤ 70 then some (c.val - 55)
  else if 97 ≤ c.val ∧ c.val ≤ 102 then some (c.val - 87)
  else none

end CodePoint

namespace Text

/-- The code points of a string. -/
def ofString (s : String) : Text := s.toList.map CodePoint.ofChar

instance : Coe String Text := ⟨ofString⟩

instance : Coe Char CodePoint := ⟨CodePoint.ofChar⟩

/-- The string of a text; surrogates become replacement characters. -/
def toString (t : Text) : String := String.ofList (t.map CodePoint.toChar)

/-- Whether a text is free of surrogates, hence the text of some string. -/
def isScalar (t : Text) : Bool := t.all fun c => !c.isSurrogate

/-- The decimal digits of a number. -/
def ofNat (n : Nat) : Text := ofString (Nat.repr n)

/-- A whole number, with a minus sign if it is negative. -/
def ofInt : Int → Text
  | .ofNat n => ofNat n
  | .negSucc n => ofString "-" ++ ofNat (n + 1)

/-- The hexadecimal digits of a number, lowest first, as many as asked for. -/
def hexDigits : Nat → Nat → Text
  | 0, _ => []
  | k + 1, n =>
    let d := n % 16
    CodePoint.clamp (if d < 10 then 48 + d else 87 + d) :: hexDigits k (n / 16)

/-- A number in hexadecimal with the given number of digits. -/
def ofHex (width n : Nat) : Text := (hexDigits width n).reverse

/-- The text filled up with blanks on its right. -/
def padRight (width : Nat) (t : Text) : Text :=
  t ++ List.replicate (width - t.length) (' ' : CodePoint)

/-- The text filled up with the given code point on its left. -/
def padLeft (fill : CodePoint) (width : Nat) (t : Text) : Text :=
  List.replicate (width - t.length) fill ++ t

/-- Texts joined with a separator. -/
def join (sep : Text) : List Text → Text
  | [] => []
  | [t] => t
  | t :: ts => t ++ sep ++ join sep ts

/-- The text repeated a number of times. -/
def times (n : Nat) (t : Text) : Text := (List.replicate n t).flatten

/-- The pieces of a text between the occurrences of a code point, none dropped. -/
def splitAt (sep : CodePoint) : Text → List Text
  | [] => [[]]
  | c :: t =>
    if c = sep then [] :: splitAt sep t
    else
      match splitAt sep t with
      | [] => [[c]]
      | piece :: pieces => (c :: piece) :: pieces

/-- A text without the given code points at its end. -/
def dropRightWhile (p : CodePoint → Bool) (t : Text) : Text :=
  (t.reverse.dropWhile p).reverse

/-! ## Order -/

/-- Inserts a text into a strictly increasing list, unless it is there. -/
def insertDistinct (t : Text) : List Text → List Text
  | [] => [t]
  | u :: us => if t = u then u :: us else if t < u then t :: u :: us else u :: insertDistinct t us

/-- The distinct texts of a list, in increasing code-point order. -/
def sortDistinct (ts : List Text) : List Text := ts.foldr insertDistinct []

/-- The texts of a list in code-point order, repetitions kept. -/
def sort (ts : List Text) : List Text := ts.mergeSort fun t u => !decide (u < t)

theorem mem_insertDistinct {t u : Text} {us : List Text} :
    t ∈ insertDistinct u us ↔ t = u ∨ t ∈ us := by
  induction us with
  | nil => simp [insertDistinct]
  | cons v vs ih =>
    unfold insertDistinct
    split
    · next h => subst h; simp
    · split
      · simp
      · simp only [List.mem_cons, ih]
        constructor
        · rintro (h | h | h) <;> simp [h]
        · rintro (h | h | h) <;> simp [h]

theorem mem_sortDistinct {t : Text} {ts : List Text} : t ∈ sortDistinct ts ↔ t ∈ ts := by
  induction ts with
  | nil => simp [sortDistinct]
  | cons u us ih =>
    have : sortDistinct (u :: us) = insertDistinct u (sortDistinct us) := rfl
    rw [this, mem_insertDistinct, ih, List.mem_cons]

theorem insertDistinct_sorted (t : Text) {us : List Text} (h : us.Pairwise (· < ·)) :
    (insertDistinct t us).Pairwise (· < ·) := by
  induction us with
  | nil => simp [insertDistinct]
  | cons v vs ih =>
    obtain ⟨hv, hvs⟩ := List.pairwise_cons.1 h
    unfold insertDistinct
    split
    · exact h
    · next hne =>
      split
      · next hlt =>
        refine List.pairwise_cons.2 ⟨?_, h⟩
        intro w hw
        rcases List.mem_cons.1 hw with rfl | hw
        · exact hlt
        · exact List.lt_trans hlt (hv w hw)
      · next hnlt =>
        refine List.pairwise_cons.2 ⟨?_, ih hvs⟩
        intro w hw
        rcases mem_insertDistinct.1 hw with rfl | hw
        · exact Decidable.byContradiction fun hn =>
            hne (List.le_antisymm (List.not_lt.1 hn) (List.not_lt.1 hnlt))
        · exact hv w hw

theorem sortDistinct_sorted (ts : List Text) : (sortDistinct ts).Pairwise (· < ·) := by
  induction ts with
  | nil => simp [sortDistinct]
  | cons u us ih => exact insertDistinct_sorted u ih

end Text

end ImportRepair
