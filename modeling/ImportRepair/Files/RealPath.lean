import ImportRepair.Files.Walk

/-!
# Real paths

The real path of a path has no links and no names that stand for nothing. Names that do not
exist are kept, so every path has one. If links run in a circle, the part of the path from the
first link met for the second time is left as it is; a rest of it that starts with a slash of
its own counts from the root.
-/

namespace ImportRepair.FileTree

/-- Why a path cannot be traced to its end. -/
inductive Impasse
  /-- Links run in a circle from this path on, which the names still to follow are a part of. -/
  | circle (path : Text)
  /-- A path on the way is no path. -/
  | faulty (e : FileError)

/-- An impasse with the names still to follow on the outer path. -/
def Impasse.before (rest : List Text) : Impasse → Impasse
  | .circle path => .circle (Path.joined path (Text.join [Path.slash] rest))
  | .faulty e => .faulty e

/-- Follows names; `followLink` traces a link, given by its path and its target. A path that does
not start at the root is kept like that. -/
def traceNames (tree : FileTree) (followLink : PlainPath → Text → Except Impasse PlainPath) :
    PlainPath → List Text → Except Impasse PlainPath
  | current, [] => .ok current
  | current, name :: rest =>
    if Path.isIdle name then traceNames tree followLink current rest
    else if name = Path.above then traceNames tree followLink current.above rest
    else
      let next := current.child name
      match checkPath next.display with
      | .error e => .error (.faulty e)
      | .ok () =>
        match tree.link? (tree.placeOf next) with
        | none => traceNames tree followLink next rest
        | some target =>
          match followLink next target with
          | .ok path => traceNames tree followLink path rest
          | .error e => .error (e.before rest)

/-- Follows names and all links but the active ones. There are at most `links` others. -/
def trace (tree : FileTree) :
    (links : Nat) → (active : List PlainPath) → PlainPath → List Text → Except Impasse PlainPath
  | 0, _ => tree.traceNames fun link _ => .error (.circle link.display)
  | links + 1, active =>
    tree.traceNames fun link target =>
      if link ∈ active then .error (.circle link.display)
      else
        let start := if Path.isAbsolute target then PlainPath.ofPlace [] else link.parent
        trace tree links (link :: active) start (Path.names target)

/-- The real path of a path. A link may be met on an absolute and on a relative path. -/
def realPath (tree : FileTree) (path : Text) : Except FileError PlainPath :=
  let start : PlainPath := if Path.isAbsolute path then .ofPlace [] else ⟨[], []⟩
  match tree.trace (2 * tree.linkCount) [] start (Path.names path) with
  | .ok real => .ok (.ofPlace (tree.placeOf real))
  | .error (.circle path) => .ok (.of (tree.absolute path))
  | .error (.faulty e) => .error e

/-- Whether a real path is a circle of links. -/
def isCircle (tree : FileTree) (path : PlainPath) : Bool :=
  match tree.lookUp path.display with
  | .error .linkLoop => true
  | _ => false

end ImportRepair.FileTree
