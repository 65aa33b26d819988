import ImportRepair.Settings.Basic
import ImportRepair.World

/-!
# Paths in settings

A path in the settings is taken from a root directory and replaced by its real path.
-/

namespace ImportRepair.Settings

/-- The real path of a path that is taken from a root. The names after a circle of links are looked
at last. -/
def realPathFrom (tree : FileTree) (root path : Text) : Except Failure Text :=
  let path := ((PlainPath.of root).append (PlainPath.of path)).display
  match tree.realPath path with
  | .error e => .error (.file e)
  | .ok real =>
    match FileTree.checkPath real.display with
    | .error e => .error (.file e)
    | .ok () => if tree.isCircle real then .error (.linkCircle real.display) else .ok real.display

/-- The real path that a value stands for; none if the value counts as not set. -/
def resolveValue (tree : FileTree) (root : Text) (v : Value) : Except Failure (Option Text) :=
  if !v.isTruthy then .ok none
  else
    match v with
    | .text path => (realPathFrom tree root path).map some
    | v => .error (.notAppendable v.kindName)

/-- Replaces the path at the end of a way of keys; `way` is the whole way, for the records. -/
def resolveAt (root : Text) (way : List Text) : List Text → Entries → Job Entries
  | [], _ => throw .emptyWay
  | [key], settings => do
    let v := (Entries.get? settings key).getD .null
    match resolveValue (← get).tree root v with
    | .error e => throw e
    | .ok none => return settings
    | .ok (some path) =>
      note .debug .settings ("Resolved config path '" ++ Text.join "." way ++ "': " ++ v.display ++
        " -> " ++ path)
      return Entries.set settings key (.text path)
  | key :: rest, settings => do
    match Entries.get? settings key with
    | some (.map inner) =>
      let inner ← resolveAt root way rest inner
      return Entries.set settings key (.map inner)
    | _ =>
      note .warning .settings ("Config path " ++ Text.join "->" way ++
        " structure invalid; leaving it unresolved.")
      return settings

/-- Replaces the path at the end of a way of keys. -/
def resolvePath (root : Text) (way : List Text) (settings : Entries) : Job Entries :=
  resolveAt root way way settings

/-- Replaces the path at the end of a way of keys in a value that has to be a mapping. -/
def resolvePathIn (root : Text) (way : List Text) : Value → Job Value
  | .map settings => .map <$> resolvePath root way settings
  | v => throw (if way.isEmpty then .emptyWay else .lacks v.kindName "get")

end ImportRepair.Settings
