import ImportRepair.Text.Lines
import ImportRepair.World

/-!
# Reading files and creating directories

Questions about a path, its lines, and its text. Lines are read leniently, texts strictly. A
directory is created with the directories above it that are missing.
-/

namespace ImportRepair

/-! ## Reading -/

namespace Files

/-- The result of an operation on files, as a job that fails with it. -/
def run {α : Type} : Except FileError α → Job α
  | .ok a => pure a
  | .error e => throw (.file e)

/-- Whether a path names a file that can be opened. -/
def isOpenable (path : Text) : Job Bool := do
  run ((((← get).tree.isOpenableFile path)).mapError .system)

/-- Whether a path names a file that can be read. -/
def isReadable (path : Text) : Job Bool := isOpenable path

/-- Whether a path names a file that can be written. -/
def isWritable (path : Text) : Job Bool := do
  if (← get).mishaps.unwritable.contains path then return false
  isOpenable path

/-- The lines of the bytes of a file: whatever is no text is replaced, every line ends with a line
feed. -/
def linesOf (bytes : List UInt8) : List Text :=
  Text.lines (Text.unifyLineEnds (Utf8.decodeLenient bytes))

/-- The lines of a file. -/
def readLines (path : Text) : Job (List Text) := do
  return linesOf (← run ((← get).tree.readBytes path))

/-- The text of the bytes of a file, with its line ends as they are. -/
def textOf (bytes : List UInt8) : Except FileError Text :=
  (Utf8.decode bytes).mapError .undecodable

/-- The text of a file. A failure is recorded. -/
def readText (path : Text) : Job Text := do
  let w ← get
  match w.mishaps.unreadable.lookup path with
  | some reason => throw (.file (.system (.device reason)))
  | none =>
    match w.tree.readBytes path >>= textOf with
    | .ok text => return text
    | .error e =>
      note .error .files ("Error reading file " ++ path ++ ": " ++ e.message)
      throw (.file e)

end Files

/-! ## Creating directories -/

/-- The tree with a directory created at a path. -/
def FileTree.makeDirectory (tree : FileTree) (path : Text) : Except FileError FileTree := do
  checkPath path
  match tree.locate false path with
  | .ok (.free directory name) => .ok (tree.put (name :: directory) .directory)
  | .ok (.node _ _) => .error (.system (.onPath .exists_ path))
  | .error code => .error (.system (.onPath code path))

namespace Files

/-- Creates a directory that may exist already. -/
def makeOne (path : PlainPath) : Job Unit := do
  match (← get).tree.makeDirectory path.display with
  | .ok tree => modify fun w => { w with tree }
  | .error (.system (.onPath .missing p)) => throw (.file (.system (.onPath .missing p)))
  | .error (.system e) =>
    if (← get).tree.isDirectory path.display then return
    else throw (.file (.system e))
  | .error e => throw (.file e)

/-- Whether a failure says that a directory on the way is missing. -/
def isMissing : Failure → Bool
  | .file (.system (.onPath .missing _)) => true
  | _ => false

/-- Creates a directory and at most `levels` directories above it. -/
def makeAllWithin : (levels : Nat) → PlainPath → Job Unit
  | 0, path => makeOne path
  | levels + 1, path =>
    tryCatch (makeOne path) fun e => do
      if isMissing e && path.parent ≠ path then
        makeAllWithin levels path.parent
        makeOne path
      else throw e

/-- Creates a directory and those above it. -/
def makeDirectories (path : PlainPath) : Job Unit := makeAllWithin path.names.length path

end Files

end ImportRepair
