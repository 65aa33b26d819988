import ImportRepair.Files.Replace
import ImportRepair.Patch.Result
import ImportRepair.Text.Basic
import ImportRepair.Text.Search

/-!
# Patching files

One import line for one file, or for several files in the order of their paths. The line goes before
the first occurrence of the word "import"; a text that holds the line already stays as it is.
Whatever happens to a file is told by its outcome, and the next file is handled all the same.
-/

namespace ImportRepair

/-! ## Putting an import line into a text -/

namespace Insertion

/-- The word before which an import line is put. -/
def anchor : Text := "import"

/-- The line that imports a module. -/
def line (module : Text) : Text := ("import " : Text) ++ module ++ [10]

/-- The text with the line before its first anchor, or as it is if it holds the line; nothing if
there is no anchor. -/
def insert? (text line : Text) : Option Text :=
  if occursIn line text then some text
  else (firstIndex? anchor text).map fun k => splice k line text

end Insertion

/-! ## Files -/

namespace Patch

/-- An outcome that leaves the file out, with a record of the given severity. -/
def leave (severity : Severity) (path module : Text) (status : Status) (message : Text) :
    Job Result := do
  note severity .patching message
  return ⟨path, module, status, message⟩

/-- The failures to read or write that count as an outcome. -/
def isOutcome : Failure → Bool
  | .file (.system _) => true
  | .file (.undecodable _) => true
  | _ => false

/-- The failures to replace a file that count as an outcome. -/
def isWriteOutcome : Failure → Bool
  | .file (.system _) => true
  | _ => false

/-- The result of a job, or its failure if that counts as an outcome. -/
def attempt {α : Type} (counts : Failure → Bool) (job : Job α) : Job (Except Failure α) :=
  tryCatch (.ok <$> job) fun e => if counts e then return .error e else throw e

/-- Writes the new text of a file, unless this is a trial run. -/
def writeBack (trial : Bool) (path module text : Text) : Job Result := do
  match Utf8.encode text with
  | .error e =>
    leave .warning path module .encodeFailed
      ("Failed to convert file contents to data (" ++ e.message ++ "). Skipping: " ++ path)
  | .ok data =>
    if trial then
      note .info .patching ("Would add 'import " ++ module ++ "' to " ++ path)
      return ⟨path, module, .wouldPatch, "Would fix " ++ path⟩
    match ← attempt isWriteOutcome (Files.replace path data) with
    | .error e =>
      leave .error path module .failed ("Failed to write " ++ path ++ ": " ++ e.message)
    | .ok () =>
      note .info .patching ("Fixed " ++ path)
      return ⟨path, module, .patched, "Fixed " ++ path⟩

/-- Adds the import of a module to a file with a text. -/
def amend (trial : Bool) (module path text : Text) : Job Result := do
  let line := Insertion.line module
  if occursIn line text then
    note .debug .patching (path ++ " already imports " ++ module)
    return ⟨path, module, .alreadyPresent, "Already imports " ++ module ++ ": " ++ path⟩
  match Insertion.insert? text line with
  | none =>
    leave .warning path module .noAnchor
      ("One import stmt is needed in file to know where to add the new import stmt. Skipping: " ++
        path)
  | some newText => writeBack trial path module newText

/-- Adds the import of a module to a file. -/
def file (trial : Bool) (module path : Text) : Job Result := do
  if !(← Files.isWritable path) then
    return ← leave .warning path module .unwritable
      ("Failed to open file for writing. Skipping: " ++ path)
  match ← attempt isOutcome (Files.readText path) with
  | .error e =>
    leave .error path module .failed ("Failed to read " ++ path ++ ": " ++ e.message)
  | .ok text => amend trial module path text

/-- Adds the import of a module to each of the files, in the order of their paths. -/
def files (trial : Bool) (module : Text) (paths : List Text) : Job (List Result) :=
  (Text.sort paths).mapM (file trial module)

end Patch

end ImportRepair
