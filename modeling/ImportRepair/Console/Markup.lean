import ImportRepair.Text.Basic

/-!
# Markup

The drawn console reads its texts as markup. A tag is a lower-case word, or what starts with a
number sign, a slash or an at sign, in brackets; it is not shown. A backslash before a tag makes it
an ordinary text, and a backslash before such a backslash makes that one ordinary.
-/

namespace ImportRepair.Console.Markup

/-- The backslash. -/
def backslash : CodePoint := '\\'

/-- What a tag may start with. -/
def startsTag (c : CodePoint) : Bool :=
  (97 ≤ c.val && c.val ≤ 122) || ("#/@" : Text).contains c

/-- Whether a bracket is closed before another one is opened. -/
def isClosed : Text → Bool
  | [] => false
  | c :: t => c = (']' : CodePoint) || (c ≠ ('[' : CodePoint) && isClosed t)

/-- Whether the text after an opening bracket is that of a tag. -/
def isTag : Text → Bool
  | [] => false
  | c :: t => startsTag c && isClosed t

/-! ## Escaping -/

/-- Escapes the tags of a text that comes after a number of backslashes. -/
def escapeAfter : (backslashes : Nat) → Text → Text
  | _, [] => []
  | n, c :: t =>
    if c = backslash then c :: escapeAfter (n + 1) t
    else if c = ('[' : CodePoint) ∧ isTag t then
      List.replicate (n + 1) backslash ++ c :: escapeAfter 0 t
    else c :: escapeAfter 0 t

/-- The number of backslashes at the end of a text. -/
def finalBackslashes (t : Text) : Nat := (t.reverse.takeWhile (· = backslash)).length

/-- A text with its tags escaped. A lone backslash at its end is doubled, so that it does not
escape a tag that follows. -/
def escape (t : Text) : Text :=
  let escaped := escapeAfter 0 t
  if finalBackslashes escaped = 1 then escaped ++ [backslash] else escaped

/-! ## Showing -/

/-- Where a reader of markup stands. -/
inductive State
  /-- After a number of backslashes that are not shown yet. -/
  | after (backslashes : Nat)
  /-- Inside a tag. -/
  | inTag

/-- What is shown of markup from a state on. -/
def shownFrom : State → Text → Text
  | .after n, [] => List.replicate n backslash
  | .inTag, [] => []
  | .inTag, c :: t => shownFrom (if c = (']' : CodePoint) then .after 0 else .inTag) t
  | .after n, c :: t =>
    if c = backslash then shownFrom (.after (n + 1)) t
    else if c = ('[' : CodePoint) then
      if isTag t then
        List.replicate (n / 2) backslash ++
          if n % 2 = 1 then c :: shownFrom (.after 0) t else shownFrom .inTag t
      else List.replicate (n - 1) backslash ++ c :: shownFrom (.after 0) t
    else List.replicate n backslash ++ c :: shownFrom (.after 0) t

/-- The controls that are never shown. -/
def isDropped (c : CodePoint) : Bool :=
  c.val = 7 || c.val = 8 || c.val = 11 || c.val = 12 || c.val = 13

/-- What is shown of markup. -/
def shown (t : Text) : Text := (shownFrom (.after 0) t).filter (!isDropped ·)

/-- A tag. -/
def tag (name : Text) : Text := "[" ++ name ++ "]"

/-- A text between a tag and its counterpart. -/
def styled (name text : Text) : Text := tag name ++ escape text ++ tag ("/" ++ name)

end ImportRepair.Console.Markup
