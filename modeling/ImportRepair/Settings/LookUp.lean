import ImportRepair.Failure
import ImportRepair.Settings.Basic

/-!
# Looking settings up

Settings that were not loaded from a file need not have the shape they should have.
-/

namespace ImportRepair.Settings

/-- The value at a text in a value that has to be a mapping. -/
def lookUp (v : Value) (key : Text) : Except Failure (Option Value) :=
  match v with
  | .map entries => .ok (Entries.get? entries key)
  | v => .error (.lacks v.kindName "get")

/-- A section of settings. One that is not there is empty. -/
def sectionAt (settings : Value) (name : Text) : Except Failure Value :=
  (lookUp settings name).map (·.getD (.map []))

/-- Why a text leads to nothing in a value that is no mapping. -/
def itemFailure : Value → Failure
  | .list _ => .numberedPlaces "list"
  | .again false => .numberedPlaces "list"
  | .pair _ _ => .numberedPlaces "tuple"
  | .bytes _ => .numberedPlaces "byte"
  | .text _ => .placesOfText
  | v => .noItems v.kindName

/-- The value that a text leads to in a value, which has to be a mapping that has it. -/
def itemOf (v : Value) (key : Text) : Except Failure Value :=
  match v with
  | .map entries =>
    match Entries.get? entries key with
    | some value => .ok value
    | none => .error (.missing key)
  | v => .error (itemFailure v)

/-- The value at a key of a section. Both have to be there. -/
def item (settings : Entries) (name key : Text) : Except Failure Value := do
  itemOf (← itemOf (.map settings) name) key

/-- Why nothing can be put at a text in a value that is no mapping. -/
def placeFailure : Value → Failure
  | .list _ => .numberedPlaces "list"
  | .again false => .numberedPlaces "list"
  | v => .noPlaces v.kindName

/-- Puts a value at a key of a section, which has to be there and to be a mapping. -/
def setItem (settings : Entries) (name key : Text) (value : Value) : Except Failure Entries := do
  match ← itemOf (.map settings) name with
  | .map _ => return set settings name key value
  | base => throw (placeFailure base)

/-- Why an entry cannot be merged into a value that is no mapping. -/
def putFailure (base added : Value) : Failure :=
  match added with
  | .map _ => .lacks base.kindName "get"
  | _ => placeFailure base

/-- A value merged over a base. Both have to be mappings, but nothing can be
merged over anything. -/
def mergeOver (base : Value) : Value → Except Failure Value
  | .map added =>
    match base, added with
    | .map entries, added => .ok (.map (merge entries added))
    | base, [] => .ok base
    | base, (_, value) :: _ => .error (putFailure base value)
  | v => .error (.lacks v.kindName "items")

end ImportRepair.Settings
