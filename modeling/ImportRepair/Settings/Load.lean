import ImportRepair.Arguments.Basic
import ImportRepair.Files.Access
import ImportRepair.Reference.ErrorLine
import ImportRepair.Settings.LookUp
import ImportRepair.Settings.Path
import ImportRepair.Yaml.Document

/-!
# Loading settings

Settings come from the defaults, from a file over them, and from the command line over both.
-/

namespace ImportRepair.Settings

/-- The file with settings that is read unless another one is asked for. -/
def defaultFile : Text := "config/application.yml"

/-- Tells that settings cannot be used, and ends the program. -/
def refuse {α : Type} (message : Text) : Job α := do
  note .critical .settings message
  throw (.exit 1)

/-- The value of a settings file. -/
def readFile (path : Text) : Job Value := do
  match (← get).tree.readBytes path with
  | .error (.system e) => refuse ("Error loading configuration from " ++ path ++ ": " ++ e.message)
  | .error e => throw (.file e)
  | .ok bytes =>
    match Yaml.readBytes bytes with
    | .ok v => return v
    | .error (.document e) =>
      if e.isOfFormat then refuse ("Error loading configuration from " ++ path)
      else throw (.document e)
    | .error e => throw e

/-- The settings of a file. A file that was not asked for may be missing. -/
def readSettings (path : Text) (asked : Bool) : Job Entries := do
  match (← get).tree.isFile path with
  | .error e => throw (.file (.system e))
  | .ok true =>
    let v ← readFile path
    if !v.isTruthy then return []
    match v with
    | .map entries => return entries
    | _ => refuse ("Configuration in " ++ path ++ " must be a mapping.")
  | .ok false =>
    if asked then refuse ("Configuration file not found at " ++ path)
    note .debug .settings "No configuration file found, using defaults."
    return []

/-- Checks that every section is a mapping. -/
def checkSections (path : Text) (settings : Entries) : List Text → Job Unit
  | [] => return
  | name :: rest => do
    match Entries.get? settings name with
    | some (.map _) => checkSections path settings rest
    | _ =>
      refuse ("Configuration section '" ++ name ++ "' in " ++ path ++ " must be a mapping.")

/-- The path of the settings file, taken from a root. An empty path stands for the usual file. -/
def fileIn (root : Text) (file : Option Text) : Text :=
  let relative := (file.filter (! ·.isEmpty)).getD defaultFile
  ((PlainPath.of root).append (PlainPath.of relative)).display

/-- Loads settings from a file, taken from a root, over the defaults. An empty path counts as asked
for. -/
def load (root : Text) (file : Option Text) : Job Entries := do
  let path := fileIn root file
  note .debug .settings ("Attempting to load configuration from: " ++ path)
  let loaded ← readSettings path file.isSome
  let settings := merge defaults loaded
  checkSections path settings sections
  let settings ← resolvePath root ["build_log", "default_path"] settings
  let settings ← resolvePath root ["logging", "log_file"] settings
  note .debug .settings ("Configuration resolved from " ++
    if loaded.isEmpty then ("defaults" : Text) else path)
  return settings

/-- The build log: the one that options ask for, or else that of the settings. -/
def findBuildLog (root : Text) (o : Arguments.Options) (settings : Entries) : Job Value := do
  match o.buildFile.bind Arguments.Given.text? with
  | some path => return .text (← MonadExcept.ofExcept (realPathFrom (← get).tree root path))
  | none => MonadExcept.ofExcept (item settings "build_log" "default_path")

/-- The extension that options ask for. -/
def extensionOf (o : Arguments.Options) : Option Value :=
  (o.extension.bind Arguments.Given.text?).map fun extension =>
    .text (ErrorLine.bareExtension extension)

/-- The level that options ask for. -/
def levelOf (o : Arguments.Options) : Option Value :=
  (o.logLevel.bind Arguments.Given.text?).map .text

/-- Puts a value at a key of a section, if there is one to put. -/
def putItem (settings : Entries) (name key : Text) (v? : Option Value) : Job Entries :=
  match v? with
  | some v => MonadExcept.ofExcept (setItem settings name key v)
  | none => return settings

/-- Puts the options of the command line over the settings. -/
def override (root : Text) (o : Arguments.Options) (settings : Entries) : Job Entries := do
  let buildFile ← findBuildLog root o settings
  let settings ← putItem settings "build_log" "build_file" (some buildFile)
  let settings ← putItem settings "build_log" "file_extension" (extensionOf o)
  let settings ← putItem settings "patching" "dry_run"
    (if o.dryRun then some (.bool true) else none)
  putItem settings "logging" "level" (levelOf o)

/-- Creates the directory of the log file, if there is to be one. A failure is only recorded. -/
def ensureDirectories (settings : Entries) : Job Unit := do
  let v := (get? settings "logging" "log_file").getD .null
  if !v.isTruthy then return
  match v with
  | .text path =>
    let directory := (PlainPath.of path).parent
    tryCatch
      (do
        Files.makeDirectories directory
        note .debug .settings ("Ensured directory exists: " ++ directory.display))
      fun e =>
        match e with
        | .file (.system cause) =>
          note .error .settings ("Failed to create directory " ++ directory.display ++ ": " ++
            cause.message)
        | e => throw e
  | v => throw (.notPath v.kindName)

end ImportRepair.Settings
