import ImportRepair.Text.Classes
import ImportRepair.Text.Lines
import ImportRepair.Text.Search
import ImportRepair.Text.Word

/-!
# Error lines of a build log

An error line names a file, a position in it, and a type that the compiler does not find:

    /path/Name.ext:LINE:COLUMN: error: cannot find 'Type' in scope

The path may itself hold colons, digits and whole messages, so of all the ways to read a line the
one with the longest path counts. What follows the message is ignored.
-/

namespace ImportRepair

/-- A type that is missing in a file. -/
structure Reference where
  type : Text
  path : Text
deriving DecidableEq, Repr

namespace ErrorLine

/-- The words between the position and the type's name. -/
def complaint : Text := ": error: cannot find '"

/-- The words after the type's name. -/
def ending : Text := "' in scope"

/-- An extension as a path ends with it: without the points at its start. -/
def bareExtension (extension : Text) : Text := extension.dropWhile (· = ('.' : CodePoint))

/-- Whether a text is a path with the extension: a slash, at least one character on the same line,
a point, and the extension. -/
def isPath (extension path : Text) : Bool :=
  let suffix : Text := ('.' : CodePoint) :: extension
  let stem := path.take (path.length - suffix.length)
  path.drop stem.length = suffix && stem.head? = some ('/' : CodePoint) && 2 ≤ stem.length &&
    !stem.contains Text.lf

/-- The rest of a list after a word that it starts with. -/
def after? (word s : Text) : Option Text :=
  if startsWith word s then some (s.drop word.length) else none

/-- A colon and at least one digit: the rest after them. -/
def afterNumber? (s : Text) : Option Text := do
  let s ← after? ":" s
  if s.takeWhile CodePoint.isDigit = [] then none else some (s.dropWhile CodePoint.isDigit)

/-- The type's name in what follows the path of an error line. -/
def typeAfterPath? (s : Text) : Option Text := do
  let s ← afterNumber? s
  let s ← afterNumber? s
  let s ← after? complaint s
  let name := s.takeWhile CodePoint.isWord
  if name = [] then none
  else
    let _ ← after? ending (s.drop name.length)
    some name

/-- The reading with the longest path, of a line given by the reverse of its first part and by the
rest. -/
def readFrom (extension : Text) : (before rest : Text) → Option Reference
  | _, [] => none
  | before, c :: rest =>
    match readFrom extension (c :: before) rest with
    | some r => some r
    | none =>
      match typeAfterPath? (c :: rest) with
      | some name =>
        if isPath extension before.reverse then some ⟨name, before.reverse⟩ else none
      | none => none

/-- The reference that a line reports, if it is an error line for files with the extension.
Line ends do not count. -/
def read (extension line : Text) : Option Reference :=
  readFrom (bareExtension extension) [] (Text.chomp line)

end ErrorLine

end ImportRepair
