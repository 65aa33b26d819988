import ImportRepair.Failure
import ImportRepair.Text.Stream
import ImportRepair.Yaml.Node
import ImportRepair.Yaml.Unrolled

/-!
# Documents

The value of a document that is given as bytes: the bytes have to be text, the text has to be free
of control characters and has to hold at most one document. The text is read in portions, each only
when those before it are used up, so an error in what they hold comes first.
-/

namespace ImportRepair.Yaml

/-- A character that a document may hold. -/
def isAllowed (c : CodePoint) : Bool :=
  c.val = 9 || c.val = 10 || c.val = 13 || (0x20 ≤ c.val && c.val ≤ 0x7E) || c.val = 0x85 ||
    (0xA0 ≤ c.val && c.val ≤ 0xD7FF) || (0xE000 ≤ c.val && c.val ≤ 0xFFFD) || 0x10000 ≤ c.val

/-- The text of a document as far as it can be read, and the failure that it is cut off with. -/
structure Source where
  text : Text
  fault : Option Failure

namespace Source

/-- The number of characters of a portion. -/
def portionLength : Nat := 4096

/-- The portions as they are read: the first two at once. -/
def joinFirst (fails : Bool) : List Text → List Text
  | first :: second :: rest => (first ++ second) :: rest
  | [first] => if fails then [] else [first]
  | [] => []

/-- The portions in a row, up to one that holds a character that is not allowed. -/
def ofPortions (fault : Option Failure) : List Text → Source
  | [] => ⟨[], fault⟩
  | portion :: rest =>
    if portion.all isAllowed then
      let after := ofPortions fault rest
      ⟨portion ++ after.text, after.fault⟩
    else ⟨[], some (.document .malformed)⟩

/-- The text of a document that is given as bytes. -/
def ofBytes (bytes : List UInt8) : Source :=
  let (portions, e) := (TextStream.start bytes).portions portionLength (bytes.length + 1)
  ofPortions (e.map fun e => .file (.undecodable e)) (joinFirst e.isSome portions)

/-- The value of a document that may be cut off. An empty one is nothing. -/
def readText (cut : Bool) (t : Text) : Except Error Value := do
  let (tokens, error) := Token.scan cut t
  match ← Node.ofTokens tokens error with
  | none => return .null
  | some (root, graph) => return (← graph.contents root).value root

/-- The value of a document. -/
def value (s : Source) : Except Failure Value :=
  match s.fault, readText s.fault.isSome s.text with
  | some fault, .error .unclosed => .error fault
  | _, result => result.mapError .document

end Source

/-- The value of a document that is given as bytes. -/
def readBytes (bytes : List UInt8) : Except Failure Value := (Source.ofBytes bytes).value

end ImportRepair.Yaml
