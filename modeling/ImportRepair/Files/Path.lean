import ImportRepair.Text.Utf8

/-!
# Paths

A path is a text. Split at its slashes it is a list of names, in which empty names and single points
stand for nothing and double points for the directory above. The plain form of a path drops what
stands for nothing; it keeps the double points, since links decide what they mean.
-/

namespace ImportRepair

namespace Path

/-- The slash. -/
def slash : CodePoint := '/'

/-- The name that stands for the directory itself. -/
def here : Text := "."

/-- The name that stands for the directory above. -/
def above : Text := ".."

/-- Whether a path starts at the root. -/
def isAbsolute (path : Text) : Bool := path.head? = some slash

/-- The names of a path, those that stand for nothing included. -/
def names (path : Text) : List Text := Text.splitAt slash path

/-- A path with another one after it. One that starts with a slash counts alone. -/
def joined (path rest : Text) : Text :=
  if isAbsolute rest then rest
  else if path = [] ∨ path.getLast? = some slash then path ++ rest
  else path ++ slash :: rest

/-- Whether a name stands for nothing. -/
def isIdle (name : Text) : Bool := name.isEmpty || name = here

/-- The code points that no byte of a file name stands for. -/
def isForbidden (c : CodePoint) : Bool := c.isSurrogate && !(0xDC80 ≤ c.val && c.val ≤ 0xDCFF)

/-- The first run of surrogates that keeps a path from naming a file, without the
escaped bytes before it. -/
def encodingFault? (path : Text) : Option Utf8.EncodeError :=
  (path.findIdx? isForbidden).map fun k =>
    ⟨(path.drop k).headD 0, k, ((path.drop k).takeWhile CodePoint.isSurrogate).length⟩

/-- The number of bytes of a name. A surrogate stands for one byte. -/
def byteLength (name : Text) : Nat :=
  name.foldr (fun c n => (if c.isSurrogate then 1 else (Utf8.encodePoint c).length) + n) 0

/-- The largest number of bytes of a name. -/
def maxName : Nat := 255

/-- The number of bytes from which on a path is too long. -/
def maxPath : Nat := 4096

end Path

/-- A path in its plain form: what it starts with, nothing, one or two slashes, and its names. -/
structure PlainPath where
  root : Text
  names : List Text
deriving DecidableEq

namespace PlainPath

/-- The plain form of a path. Exactly two slashes at the start are kept apart from one. -/
def of (path : Text) : PlainPath :=
  let slashes := (path.takeWhile (· = Path.slash)).length
  { root := List.replicate (if slashes = 2 then 2 else min slashes 1) Path.slash
    names := (Path.names path).filter fun name => !Path.isIdle name }

/-- The text of a plain path; the empty one is a point. -/
def display (p : PlainPath) : Text :=
  if p.root = [] ∧ p.names = [] then Path.here else p.root ++ Text.join [Path.slash] p.names

/-- The directory that holds a path; a root holds itself. -/
def parent (p : PlainPath) : PlainPath := { p with names := p.names.dropLast }

/-- The last name of a path, empty for a root. -/
def name (p : PlainPath) : Text := (p.names.getLast?).getD []

/-- A path taken from another one, unless it starts at the root. -/
def append (p q : PlainPath) : PlainPath :=
  if q.root = [] then { p with names := p.names ++ q.names } else q

end PlainPath

namespace Path

/-- The plain text of a path. -/
def plain (path : Text) : Text := (PlainPath.of path).display

end Path

end ImportRepair
