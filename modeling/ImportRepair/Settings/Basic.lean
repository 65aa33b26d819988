import ImportRepair.Value.Display

/-!
# Settings

Settings are nested mappings. Those of a file are merged over the defaults: where both have a
mapping the mappings are merged, elsewhere the file's value wins.
-/

namespace ImportRepair.Settings

/-- A mapping with texts as keys. -/
def table (entries : List (Text × Value)) : Value := .map (entries.map fun (k, v) => (.text k, v))

/-- The format of records as long as nothing else is set. -/
def usualFormat : Text := "%(asctime)s - %(name)s - %(levelname)s - %(message)s"

/-- The settings that hold as long as nothing else is set. -/
def defaults : Entries :=
  [(.text "build_log",
    table [("default_path", .text "output.txt"), ("file_extension", .text "swift")]),
    (.text "patching", table [("dry_run", .bool false)]),
    (.text "ui",
      table [("type", .text "rich"), ("progress_style", .text "spinner"),
        ("enhanced_logging", .bool true)]),
    (.text "logging",
      table [("level", .text "WARNING"),
        ("format", .text usualFormat),
        ("log_file", .null)])]

/-- The names of the sections, each of which has to be a mapping. -/
def sections : List Text := ["build_log", "patching", "ui", "logging"]

mutual

/-- A value merged over another one, if there is one. -/
def mergeValue (base : Option Value) : Value → Value
  | .map added =>
    match base with
    | some (.map entries) => .map (merge entries added)
    | _ => .map added
  | v => v

/-- Entries merged over others. A key that both have keeps its place. -/
def merge (base : Entries) : Entries → Entries
  | [] => base
  | (key, value) :: rest =>
    merge (Entries.put key (mergeValue (Entries.find? key base) value) base) rest

end

/-- The entries of a section; none if it is no mapping. -/
def sectionOf (settings : Entries) (name : Text) : Entries :=
  ((Entries.get? settings name).bind Value.entries?).getD []

/-- The value at a key of a section. -/
def get? (settings : Entries) (section_ key : Text) : Option Value :=
  Entries.get? (sectionOf settings section_) key

/-- The settings with a value put at a key of a section. -/
def set (settings : Entries) (section_ key : Text) (value : Value) : Entries :=
  Entries.set settings section_ (.map (Entries.set (sectionOf settings section_) key value))

end ImportRepair.Settings
