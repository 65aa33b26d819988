import ImportRepair.Yaml.Content

/-!
# From contents to values

A value has no numbers to name its parts by: a part that several collections share is repeated, and
a collection within itself is cut off there. The root and its parts are given in full once more,
since a question about settings may begin at any of them.
-/

namespace ImportRepair.Yaml

/-- The values found so far that are cut off nowhere. -/
abbrev Unroll := StateM (Array (Option Value))

namespace Contents

/-- The level down to which a collection within itself is not cut off. -/
def fullLevels : Nat := 2

/-- The value of a node within others, and whether it is cut off nowhere. A path of nodes without a
repetition is no longer than there are nodes, which bounds the depth. -/
def unroll (s : Contents) :
    (depth : Nat) → (full : Nat) → (path : List Nat) → (number : Nat) → Unroll (Value × Bool)
  | 0, _, _, _ => return (.null, false)
  | depth + 1, full, path, number => do
    if let some v := ((← get)[number]?).join then return (v, true)
    let inner := if full = 0 then number :: path else path
    let part (number : Nat) : Unroll (Value × Bool) := s.unroll depth (full - 1) inner number
    let pairOf (entry : Nat × Nat) : Unroll ((Value × Value) × Bool) := do
      let (k, wholeKey) ← part entry.1
      let (v, wholeValue) ← part entry.2
      return ((k, v), wholeKey && wholeValue)
    let (v, whole) ← match s.content? number with
      | none => pure (Value.null, false)
      | some (.scalar v) => pure (v, true)
      | some (.list items) =>
        if path.contains number then pure (.again false, false)
        else
          let parts ← items.mapM part
          pure (.list (parts.map (·.1)), parts.all (·.2))
      | some (.pairs items) =>
        if path.contains number then pure (.again false, false)
        else
          let parts ← items.mapM pairOf
          pure (.list (parts.map fun ((k, v), _) => .pair k v), parts.all (·.2))
      | some (.set keys) =>
        let parts ← keys.mapM part
        pure (.set (parts.map (·.1)), true)
      | some (.map entries) =>
        if path.contains number then pure (.again true, false)
        else
          let parts ← entries.mapM pairOf
          pure (.map (parts.map (·.1)), parts.all (·.2))
    if whole then modify fun known => known.setIfInBounds number (some v)
    return (v, whole)

/-- The value of a root. -/
def value (s : Contents) (root : Nat) : Value :=
  let known := Array.replicate s.graph.size none
  ((s.unroll (s.graph.size + fullLevels + 1) fullLevels [] root).run known).run.1.1

end Contents

end ImportRepair.Yaml
