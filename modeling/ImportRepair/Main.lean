import ImportRepair.Command.Needs
import ImportRepair.Console.Session
import Std.Time

/-!
# The program

Reads the files that the command needs, runs the command again with every further answer until no
question is left, and writes the files that the last run changed.
-/

namespace ImportRepair.Main

/-! ## Files -/

/-- The place of an absolute path. -/
def placeOf (path : Text) : Place := Place.follow [] (Path.names path)

/-- What an action gives, if it does not fail. -/
def attempt {α : Type} (action : IO α) : IO (Option α) := do
  match ← action.toBaseIO with
  | .ok a => return some a
  | .error _ => return none

/-- The tree with what stands at a real place. -/
def loadNode (tree : FileTree) (place : Place) : IO FileTree := do
  if (tree.node? place).isSome then return tree
  match ← attempt (IO.FS.readBinFile place.path.toString) with
  | none => return tree.put place .directory
  | some bytes =>
    let (content, tree) := tree.addContent ⟨bytes.toList, FileTree.defaultMode⟩
    return tree.put place (.file content)

/-- The tree with what stands on the way along names. -/
def loadAlong (tree : FileTree) (place : Place) : List Text → IO FileTree
  | [] => return tree
  | name :: rest => do
    if Path.isIdle name then loadAlong tree place rest
    else if name = Path.above then loadAlong tree place.tail rest
    else
      let here : Place := name :: place
      match ← attempt (IO.FS.realPath here.path.toString) with
      | none => return tree
      | some real =>
        let real := placeOf (Text.ofString (toString real))
        let tree := if real = here then tree else tree.put here (.link real.path)
        loadAlong (← loadNode tree real) real rest

/-- The tree with the file that a path names. -/
def load (tree : FileTree) (path : Text) : IO FileTree :=
  if path.isScalar then loadAlong tree (tree.start path) (Path.names path) else return tree

/-- Whether a file may be written. -/
def isWritable (path : Text) : IO Bool := do
  return (← attempt (IO.FS.Handle.mk path.toString .append)).isSome

/-- The world that a command needs. -/
def loadWorld (arguments : List Text) (w : World) : Nat → IO World
  | 0 => do
    let there := (Command.files arguments w).filter fun path =>
      (w.tree.isFile path).toOption = some true
    let unwritable ← there.filterM fun path => return !(← isWritable path)
    return { w with mishaps := { w.mishaps with unwritable } }
  | rounds + 1 => do
    loadWorld arguments { w with tree := ← (Command.files arguments w).foldlM load w.tree } rounds

/-- Writes what a command changed. -/
def store (before after : FileTree) : IO Unit := do
  for (place, node) in after.nodes.reverse do
    match node with
    | .directory =>
      if (before.node? place).isNone then IO.FS.createDirAll place.path.toString
    | .file content =>
      let old := (before.readBytes place.path).toOption
      let new := ((after.content? content).map (·.bytes)).getD []
      if old ≠ some new then
        IO.FS.writeBinFile place.path.toString (ByteArray.mk new.toArray)
    | .link _ => pure ()

/-! ## Questions -/

/-- Writes a text to the output. -/
def print (t : Text) : IO Unit := do
  IO.print t.toString
  (← IO.getStdout).flush

/-- Runs the command, and runs it again whenever a question is answered. `written` is the length of
the output written so far. -/
partial def converse (terminal : Console.Terminal) (arguments : List Text) (w : World)
    (written : Nat) : IO Command.Ending := do
  let ending := Command.run terminal arguments w
  match Command.waiting? terminal w.answers.length ending with
  | none =>
    print (ending.output.drop written)
    return ending
  | some output =>
    print (output.drop written)
    let input := Text.ofString (← (← IO.getStdin).getLine)
    let answers : List (Option Text) :=
      match Console.Answers.chomped (Text.unifyLineEnds input) with
      | [] => [none]
      | lines => lines.map some
    converse terminal arguments { w with answers := w.answers ++ answers } output.length

/-- The width of the console. -/
def consoleWidth : IO Nat := do
  return ((← IO.getEnv "COLUMNS").bind String.toNat?).getD Console.Plain.usualWidth

/-- The time as records show it. -/
def time : IO Text := do
  let now ← attempt Std.Time.PlainDateTime.now
  return (now.map fun t => Text.ofString (t.format "uuuu-MM-dd HH:mm:ss,SSS")).getD []

/-- Runs a command line in the current directory. -/
def run (arguments : List Text) : IO UInt32 := do
  let here := placeOf (Text.ofString (toString (← IO.currentDir)))
  let w := World.new (.empty here) Journal.defaultThreshold [] {}
  let journal := { w.journal with
    handlers := [⟨.stream, Journal.messageOnly⟩], time := ← time }
  let w ← loadWorld arguments { w with journal } Command.rounds
  let ending ← converse ⟨← consoleWidth, false⟩ arguments w 0
  store w.tree ending.world.tree
  IO.eprint ending.errors.toString
  match ending.code with
  | .ok code => return code.toUInt32
  | .error e =>
    IO.eprintln e.message.toString
    return Command.failureCode.toUInt32

end ImportRepair.Main

/-- Adds the imports that a build log shows to be missing. -/
def main (arguments : List String) : IO UInt32 :=
  ImportRepair.Main.run (arguments.map ImportRepair.Text.ofString)
