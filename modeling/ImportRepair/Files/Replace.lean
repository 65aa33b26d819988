import ImportRepair.Files.Access

/-!
# Replacing files

New content is written to a temporary file beside the target, which then takes the target's
permission bits and its name. So other names of the old content keep it. A link that has the name
itself makes way for the file: a real path ends in a link only if its names were left as they are
past a circle. Where no temporary file can be created, the target is overwritten in place.

Results:
* `FileTree.discard_addTemporary`: a discarded temporary file leaves no trace.
-/

namespace ImportRepair

namespace Temporary

/-- The number of names that are tried for a temporary file. -/
def maxTries : Nat := 10000

/-- The part of a temporary file's name that is tried at the given attempt. -/
def tag : Nat → Text
  | 0 => "XXXXXXXX"
  | n => Text.padLeft '0' 8 (Text.ofNat n)

/-- The name of a temporary file for a target. -/
def name (target tag : Text) : Text := "." ++ target ++ "." ++ tag ++ ".tmp"

/-- The name of a temporary file for a target, as messages show it. -/
def shownName (target : Text) : Text := name target (tag 0)

/-- The first free name for a temporary file in a directory. -/
def freeName? (tree : FileTree) (directory : Place) (target : Text) : Option Text :=
  ((List.range maxTries).map fun n => name target (tag n)).find? fun candidate =>
    (tree.node? (candidate :: directory)).isNone

end Temporary

namespace FileTree

/-- The tree with a temporary file at a free place, which takes all the bytes (see `Mishaps`). -/
def addTemporary (place : Place) (data : List UInt8) (tree : FileTree) : Nat × FileTree :=
  let (content, tree) := tree.addContent ⟨data, 0o600⟩
  (content, tree.put place (.file content))

/-- The tree without the file that was created last. -/
def discard (place : Place) (content : Nat) (tree : FileTree) : FileTree :=
  { tree.remove place with contents := tree.contents.take content }

/-- The path of a temporary file beside the target, as messages show it. -/
def shownTemporary (target : PlainPath) : Text :=
  (target.parent.child (Temporary.shownName target.name)).display

/-- Creates a temporary file beside the target: its place, its content and the tree with it. -/
def createTemporary (tree : FileTree) (target : PlainPath) (data : List UInt8) :
    Except FileError (Place × Nat × FileTree) := do
  let path := shownTemporary target
  checkPath path
  if Path.maxPath ≤ Path.byteLength path then .error (.system (.onPath .nameTooLong path))
  else
    match tree.locate true target.parent.display with
    | .error code => .error (.system (.onPath code path))
    | .ok (.free _ _) => .error (.system (.onPath .missing path))
    | .ok (.node directory .directory) =>
      if Path.maxName < Path.byteLength (Temporary.shownName target.name) then
        .error (.system (.onPath .nameTooLong path))
      else
        match Temporary.freeName? tree directory target.name with
        | none => .error (.system .noFreeName)
        | some free =>
          let (content, tree) := tree.addTemporary (free :: directory) data
          .ok (free :: directory, content, tree)
    | .ok (.node _ _) => .error (.system (.onPath .notDirectory path))

/-- The permission bits of a directory. -/
def directoryMode : Nat := 0o755

/-- The permission bits that a node gives away. -/
def modeOf (tree : FileTree) : Node → Nat
  | .file content => ((tree.content? content).map (·.mode)).getD defaultMode
  | _ => directoryMode

/-- Gives a temporary file the permission bits of what its target leads to, and the name of the
target. No other path leads to a temporary file. -/
def commit (tree : FileTree) (mishaps : Mishaps) (temporary : Place) (content : Nat)
    (target : PlainPath) : Except OsError FileTree :=
  let path := target.display
  let others := tree.remove temporary
  match others.lookUp path with
  | .error code => .error (.onPath code path)
  | .ok (_, node) =>
    match mishaps.renameFault with
    | some reason => .error (.device reason)
    | none =>
      let given := others.modifyContent content fun c => { c with mode := others.modeOf node }
      match others.locate false path with
      | .error code => .error (.onRename code (shownTemporary target) path)
      | .ok (.free directory name) => .ok (given.put (name :: directory) (.file content))
      | .ok (.node place .directory) =>
        .error (.onRename (if place = [] then .busy else .isDirectory) (shownTemporary target) path)
      | .ok (.node place _) => .ok (given.put place (.file content))

theorem filter_of_lookup_eq_none {tree : FileTree} {place : Place}
    (h : tree.nodes.lookup place = none) :
    (tree.nodes.filter fun entry => entry.1 ≠ place) = tree.nodes := by
  rw [List.filter_eq_self]
  intro entry he
  exact decide_eq_true (Ne.symm (bne_iff_ne.1 (List.lookup_eq_none_iff.1 h entry he)))

theorem discard_addTemporary {tree : FileTree} {place : Place} {data : List UInt8}
    (h : tree.nodes.lookup place = none) :
    (tree.addTemporary place data).2.discard place (tree.addTemporary place data).1 = tree := by
  have hf := filter_of_lookup_eq_none h
  simp only [ne_eq, decide_not] at hf
  simp [addTemporary, addContent, put, discard, remove, hf]

end FileTree

namespace Files

/-- Overwrites a file in place, or creates it. A failure to open it is recorded; once opened, it is
emptied and takes all the bytes (see `Mishaps`), so it is never left cut short. -/
def overwrite (path : Text) (data : List UInt8) : Job Unit := do
  match (← get).tree.openForWriting path with
  | .ok (content, tree) =>
    modify fun w => { w with tree := tree.modifyContent content fun c => { c with bytes := data } }
  | .error e =>
    note .error .files ("Error writing file " ++ path ++ ": " ++ e.message)
    throw (.file e)

/-- What is done about a temporary file that could not be renamed. -/
def cleanUp (vanishing : Bool) (path : Text) (temporary : Place) (content : Nat) (e : OsError) :
    Job Unit := do
  let discard : Job Unit := modify fun w => { w with tree := w.tree.discard temporary content }
  if vanishing then discard
  note .error .files ("Error writing file " ++ path ++ ": " ++ e.message)
  discard
  throw (.file (.system e))

/-- Renames a temporary file to the target. -/
def rename (path : Text) (temporary : Place) (content : Nat) (target : PlainPath) : Job Unit := do
  let w ← get
  match w.tree.commit w.mishaps temporary content target with
  | .ok tree => set { w with tree }
  | .error e => cleanUp w.mishaps.vanishing path temporary content e

/-- Replaces the content of the file that a path leads to. -/
def replace (path : Text) (data : List UInt8) : Job Unit := do
  let w ← get
  if let some reason := w.mishaps.irreplaceable.lookup path then
    throw (.file (.system (.device reason)))
  let target ← run (w.tree.realPath path)
  if w.mishaps.noTemporary then
    note .debug .files ("Cannot create a temporary file next to " ++ target.display ++
      " (directory not writable); writing in place")
    overwrite target.display data
  else
    let (temporary, content, tree) ← run (w.tree.createTemporary target data)
    set { w with tree }
    rename path temporary content target

end Files

end ImportRepair
