import ImportRepair.Yaml.Error
import ImportRepair.Yaml.Graph

/-!
# Merged mappings

The value of a merge key is a mapping, or a sequence of mappings, whose entries a mapping takes
over. They come before its own entries, and of several mappings the first one comes last, so
that what is nearer wins.
-/

namespace ImportRepair.Yaml

/-- A computation that changes the nodes of a graph. -/
abbrev Change := StateT Graph (Except Error)

namespace Graph

/-- The entries that the value of a merge key gives, which take over their own sources first. -/
def source (takeOver : Nat → Change Unit) (value : Nat) : Change (List (Nat × Nat)) := do
  let entriesOf (number : Nat) : Change (List (Nat × Nat)) := do
    match (← get).node number with
    | .mapping _ _ =>
      takeOver number
      return ((← get).node number).entries
    | _ => throw .malformed
  match (← get).node value with
  | .sequence _ items => return (← items.mapM entriesOf).reverse.flatten
  | _ => entriesOf value

/-- Takes the merge keys out of a mapping from an entry on, and gives the entries that they stand
for. A key that asks for the plain value becomes a text. -/
def takeSources (takeOver : Nat → Change Unit) (number : Nat) :
    (steps index : Nat) → Change (List (Nat × Nat))
  | 0, _ => return []
  | steps + 1, index => do
    let g ← get
    match (g.node number).entries[index]? with
    | none => return []
    | some (key, value) =>
      if g.hasTag key .merge then
        set (g.change number fun node => .mapping node.tag (node.entries.eraseIdx index))
        let taken ← source takeOver value
        return taken ++ (← takeSources takeOver number steps index)
      else
        if g.hasTag key .value then set (g.change key (Node.withTag (.standard .str)))
        takeSources takeOver number steps (index + 1)

/-- Lets a mapping take over what its merge keys stand for. Each step down takes a merge key out of
the graph, so the number of entries bounds them. -/
def takeOver : (depth : Nat) → (number : Nat) → Change Unit
  | 0, _ => return
  | depth + 1, number => do
    let steps := ((← get).node number).entries.length
    let taken ← takeSources (takeOver depth) number steps 0
    if !taken.isEmpty then
      modify (·.change number fun node => .mapping node.tag (taken ++ node.entries))

end Graph

end ImportRepair.Yaml
