import ImportRepair.Files.Access
import ImportRepair.Resolution
import ImportRepair.Yaml.Document

/-!
# Module mappings

A mapping from types to modules is read from a document. Its keys may be of any kind, since a name
can look like a number or a truth value; each counts as the text that shows it. Its modules have to
be texts that are not blank.
-/

namespace ImportRepair.Mapping

/-- The mapping with a module put at a type: a type keeps its place. -/
def put (type module : Text) : Mapping → Mapping
  | [] => [(type, module)]
  | (t, m) :: rest => if t = type then (t, module) :: rest else (t, m) :: put type module rest

/-- The module that a value tells: a text that is not blank, without the blanks around it. -/
def module? (v : Value) : Option Text :=
  match v with
  | .text t => if Text.strip t = [] then none else some (Text.strip t)
  | _ => none

/-- A mapping extended by the entries of a document. The first entry without a module is an
error. -/
def extend (path : Text) : Mapping → Entries → Except Failure Mapping
  | mapping, [] => .ok mapping
  | mapping, (key, value) :: rest =>
    match key.shown, module? value with
    | .error e, _ => .error e
    | .ok type, none => .error (.mapping (.badModule type path))
    | .ok type, some module => extend path (mapping.put type module) rest

/-- The mapping of a document's value. A document without a value has none. -/
def ofValue (path : Text) (v : Value) : Except Failure (Option Mapping) :=
  match v with
  | .null => .ok none
  | .map entries => (extend path [] entries).map some
  | _ => .error (.mapping (.notMapping path))

/-- The mapping in the bytes of a file. -/
def ofBytes (path : Text) (bytes : List UInt8) : Except Failure (Option Mapping) :=
  match Yaml.readBytes bytes with
  | .error (.document e) =>
    .error (if e.isOfFormat then .mapping (.malformed path) else .document e)
  | .error e => .error e
  | .ok v => ofValue path v

/-- The mapping in a file of a tree. -/
def ofTree (tree : FileTree) (path : Text) : Except Failure (Option Mapping) :=
  match tree.readBytes path with
  | .error (.system e) => .error (.mapping (.unreadable path e))
  | .error e => .error (.file e)
  | .ok bytes => ofBytes path bytes

/-- Loads the mapping in a file, with a record. A file without one stands for the empty mapping. -/
def load (path : Text) : Job Mapping := do
  let path := Path.plain path
  match ofTree (← get).tree path with
  | .error e => throw e
  | .ok none => return []
  | .ok (some mapping) =>
    note .info .mapping
      ("Loaded " ++ Text.ofNat mapping.length ++ " module assignments from " ++ path)
    return mapping

end ImportRepair.Mapping
