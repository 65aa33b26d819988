import ImportRepair.Files.Path

/-!
# File trees

A place is a chain of names from the root, written from the inside out. A tree says which places are
directories, links and files. A file's content has a life of its own, so that one content can have
several names and outlive them.

Results:
* `node?_put`: what stands where after something was put at a place.
-/

namespace ImportRepair

/-- A place in the tree: the names from the innermost to the outermost one. -/
abbrev Place := List Text

namespace Place

/-- The absolute path of a place. -/
def path (place : Place) : Text := Path.slash :: Text.join [Path.slash] place.reverse

/-- The place that an absolute or relative path starts from. -/
def startOf (path : Text) (current : Place) : Place :=
  if Path.isAbsolute path then [] else current

/-- Follows names without looking at any file. -/
def follow (place : Place) : List Text → Place
  | [] => place
  | name :: rest =>
    if Path.isIdle name then follow place rest
    else if name = Path.above then follow place.tail rest
    else follow (name :: place) rest

/-- A place and all places around it. -/
def enclosing : Place → List Place
  | [] => []
  | name :: place => (name :: place) :: enclosing place

end Place

namespace PlainPath

/-- The path of a place. -/
def ofPlace (place : Place) : PlainPath := ⟨[Path.slash], place.reverse⟩

/-- The place that an absolute path names if there are no links. -/
def place (p : PlainPath) : Place := Place.follow [] p.names

/-- An absolute path without double points, as if there were no links. -/
def flat (p : PlainPath) : PlainPath := { p with names := p.place.reverse }

/-- The path of the directory above. -/
def above (p : PlainPath) : PlainPath :=
  if p.root = [] ∧ (p.names = [] ∨ p.names.getLast? = some Path.above) then
    { p with names := p.names ++ [Path.above] }
  else p.parent

/-- The path of a name in a directory. -/
def child (p : PlainPath) (name : Text) : PlainPath := { p with names := p.names ++ [name] }

end PlainPath

/-- What stands at a place. -/
inductive Node
  | directory
  | file (content : Nat)
  | link (target : Text)
deriving DecidableEq, Repr

/-- The content of a file and its permission bits. -/
structure Content where
  bytes : List UInt8
  mode : Nat
deriving DecidableEq, Repr

/-- The working directory, the places of a tree below the root, and the contents by their
numbers. -/
structure FileTree where
  working : Place
  nodes : List (Place × Node)
  contents : List Content

namespace FileTree

/-- The tree with nothing but a working directory and the directories around it. -/
def empty (working : Place) : FileTree :=
  ⟨working, working.enclosing.map fun place => (place, .directory), []⟩

/-- The place that a path starts from. -/
def start (tree : FileTree) (path : Text) : Place := Place.startOf path tree.working

/-- The place that a path names if there are no links on it. -/
def placeOf (tree : FileTree) (path : PlainPath) : Place :=
  Place.follow (if path.root = [] then tree.working else []) path.names

/-- The absolute path that a path spells by its names alone. -/
def absolute (tree : FileTree) (path : Text) : Text :=
  ((PlainPath.ofPlace tree.working).append (PlainPath.of path)).flat.display

/-- What stands at a place. The root is a directory. -/
def node? (tree : FileTree) (place : Place) : Option Node :=
  if place = [] then some .directory else tree.nodes.lookup place

/-- The tree with a node put at a place. -/
def put (place : Place) (node : Node) (tree : FileTree) : FileTree :=
  { tree with nodes := (place, node) :: tree.nodes.filter fun entry => entry.1 ≠ place }

/-- The tree with nothing at a place. -/
def remove (place : Place) (tree : FileTree) : FileTree :=
  { tree with nodes := tree.nodes.filter fun entry => entry.1 ≠ place }

/-- The content with a number. -/
def content? (tree : FileTree) (content : Nat) : Option Content := tree.contents[content]?

/-- The tree with a new content, and its number. -/
def addContent (c : Content) (tree : FileTree) : Nat × FileTree :=
  (tree.contents.length, { tree with contents := tree.contents ++ [c] })

/-- The tree with a content changed. -/
def modifyContent (content : Nat) (change : Content → Content) (tree : FileTree) : FileTree :=
  { tree with contents := tree.contents.modify content change }

/-- The number of links in the tree. -/
def linkCount (tree : FileTree) : Nat :=
  (tree.nodes.filter fun entry => match entry.2 with | .link _ => true | _ => false).length

/-- The target of a link. -/
def link? (tree : FileTree) (place : Place) : Option Text :=
  match tree.node? place with
  | some (.link target) => some target
  | _ => none

theorem lookup_filter_ne {nodes : List (Place × Node)} {p q : Place} (h : q ≠ p) :
    (nodes.filter fun entry => entry.1 ≠ p).lookup q = nodes.lookup q := by
  induction nodes with
  | nil => rfl
  | cons entry nodes ih =>
    obtain ⟨r, node⟩ := entry
    by_cases hr : r = p
    · subst hr
      have : (q == r) = false := by simpa using h
      rw [List.filter_cons_of_neg (by simp), ih, List.lookup_cons, this]
    · rw [List.filter_cons_of_pos (by simpa using hr), List.lookup_cons, List.lookup_cons, ih]

theorem node?_put {tree : FileTree} {p q : Place} {node : Node} (h : p ≠ []) :
    (tree.put p node).node? q = if q = p then some node else tree.node? q := by
  unfold node? put
  by_cases hq : q = p
  · subst hq; simp [h]
  · by_cases hr : q = []
    · simp [hr, Ne.symm h]
    · have : (q == p) = false := by simpa using hq
      rw [if_neg hr, if_neg hr, if_neg hq, List.lookup_cons, this]
      exact lookup_filter_ne hq

end FileTree

end ImportRepair
