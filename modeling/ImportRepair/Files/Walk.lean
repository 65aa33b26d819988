import ImportRepair.Files.Error
import ImportRepair.Files.Tree

/-!
# Finding what a path names

The system follows a path name by name, and the links on the way, up to a limit. Every name but the
last has to lead to a directory.
-/

namespace ImportRepair.FileTree

/-- Where a path leads: to something that exists, or to a free name in a directory. -/
inductive Found
  | node (place : Place) (node : Node)
  | free (directory : Place) (name : Text)
deriving DecidableEq, Repr

/-- The part of a walk up to the next link that has to be followed. -/
inductive Stretch
  | finished (result : Except ErrorCode Found)
  | link (base : Place) (target : Text) (rest : List Text)

/-- Follows names from a directory up to the next link. A link at the end is followed only if
`followLast` holds. -/
def stretch (tree : FileTree) (followLast : Bool) : Place → List Text → Stretch
  | current, [] => .finished (.ok (.node current .directory))
  | current, name :: rest =>
    if Path.isIdle name then stretch tree followLast current rest
    else if name = Path.above then stretch tree followLast current.tail rest
    else if Path.maxName < Path.byteLength name then .finished (.error .nameTooLong)
    else
      match tree.node? (name :: current) with
      | none =>
        if rest = [] then .finished (.ok (.free current name)) else .finished (.error .missing)
      | some .directory => stretch tree followLast (name :: current) rest
      | some (.file content) =>
        if rest = [] then .finished (.ok (.node (name :: current) (.file content)))
        else .finished (.error .notDirectory)
      | some (.link target) =>
        if rest = [] ∧ followLast = false then
          .finished (.ok (.node (name :: current) (.link target)))
        else .link current target rest

/-- Follows names from a directory, and at most the given number of links. -/
def walk (tree : FileTree) (followLast : Bool) : Nat → Place → List Text → Except ErrorCode Found
  | links, current, names =>
    match tree.stretch followLast current names with
    | .finished result => result
    | .link base target rest =>
      match links with
      | 0 => .error .linkLoop
      | links + 1 =>
        walk tree followLast links (Place.startOf target base) (Path.names target ++ rest)

/-- The number of links that the system follows on the way to one file. -/
def maxLinks : Nat := 40

/-- Where a path leads. -/
def locate (tree : FileTree) (followLast : Bool) (path : Text) : Except ErrorCode Found :=
  if path = [] then .error .missing
  else if Path.maxPath ≤ Path.byteLength path then .error .nameTooLong
  else tree.walk followLast maxLinks (tree.start path) (Path.names path)

/-- What a path names, and where it stands. -/
def lookUp (tree : FileTree) (path : Text) : Except ErrorCode (Place × Node) :=
  match tree.locate true path with
  | .ok (.node place node) => .ok (place, node)
  | .ok (.free _ _) => .error .missing
  | .error code => .error code

/-- Refuses the texts that are no paths. -/
def checkPath (path : Text) : Except FileError Unit :=
  match Path.encodingFault? path with
  | some e => .error (.unencodable e)
  | none => if path.contains 0 then .error .nullInPath else .ok ()

/-- The number of the content that a path names. -/
def contentAt (tree : FileTree) (path : Text) : Except FileError Nat := do
  checkPath path
  match tree.lookUp path with
  | .ok (_, .file content) => .ok content
  | .ok _ => .error (.system (.onPath .isDirectory path))
  | .error code => .error (.system (.onPath code path))

/-- The bytes of the file that a path names. -/
def readBytes (tree : FileTree) (path : Text) : Except FileError (List UInt8) := do
  let content ← tree.contentAt path
  .ok (((tree.content? content).map (·.bytes)).getD [])

/-- Whether a path, in its plain form, names a file. -/
def isFile (tree : FileTree) (path : Text) : Except OsError Bool :=
  let path := Path.plain path
  match checkPath path with
  | .error _ => .ok false
  | .ok () =>
    match tree.lookUp path with
    | .ok (_, .file _) => .ok true
    | .ok _ => .ok false
    | .error code => if code.isQuiet then .ok false else .error (.onPath code path)

/-- Whether a path, in its plain form, names a directory. -/
def isDirectory (tree : FileTree) (path : Text) : Bool :=
  match tree.lookUp path with
  | .ok (_, .directory) => true
  | _ => false

/-- Whether a path can be opened. Permissions never stand in the way. -/
def isAccessible (tree : FileTree) (path : Text) : Bool :=
  match checkPath path, tree.lookUp path with
  | .ok (), .ok _ => true
  | _, _ => false

/-- Whether a path names a file that can be opened. -/
def isOpenableFile (tree : FileTree) (path : Text) : Except OsError Bool :=
  match tree.isFile path with
  | .ok true => .ok (tree.isAccessible path)
  | other => other

/-- The permission bits of a file that is created without a wish of its own. -/
def defaultMode : Nat := 0o644

/-- Opens a path for writing, and creates the file if its name is free. -/
def openForWriting (tree : FileTree) (path : Text) : Except FileError (Nat × FileTree) := do
  checkPath path
  match tree.locate true path with
  | .ok (.node _ (.file content)) => .ok (content, tree)
  | .ok (.node _ _) => .error (.system (.onPath .isDirectory path))
  | .ok (.free directory name) =>
    let (content, tree) := tree.addContent ⟨[], defaultMode⟩
    .ok (content, tree.put (name :: directory) (.file content))
  | .error code => .error (.system (.onPath code path))

end ImportRepair.FileTree
