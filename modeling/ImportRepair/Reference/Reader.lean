import ImportRepair.Reference.Index
import ImportRepair.Settings.LookUp
import ImportRepair.World

/-!
# Reading references from a build log

A reader is set up for the files with one extension. It reads the references line by line, and the
index gathers them.
-/

namespace ImportRepair

/-- Reads references to files with an extension. -/
structure Reader where
  extension : Text
deriving DecidableEq

namespace Reader

/-- The extension that is read as long as nothing else is set. -/
def defaultExtension : Text := "swift"

/-- The reader that settings ask for. -/
def ofSettings (settings : Value) : Except Failure Reader := do
  let settings := if settings.isTruthy then settings else .map []
  let section_ ← Settings.sectionAt settings "build_log"
  match (← Settings.lookUp section_ "file_extension").getD (.text defaultExtension) with
  | .text extension => .ok ⟨extension⟩
  | .bytes _ => .error .textInBytes
  | v => .error (.lacks v.kindName "lstrip")

/-- Sets up the reader that settings ask for. -/
def create (settings : Value) : Job Reader := do
  match ofSettings settings with
  | .error e => throw e
  | .ok reader =>
    note .debug .errorLines ("RegexErrorParserAdapter initialized for '." ++
      ErrorLine.bareExtension reader.extension ++ "' files.")
    return reader

/-- The reference of a line. -/
def readLine (reader : Reader) (line : Text) : Option Reference :=
  ErrorLine.read reader.extension line

/-- The references of lines, each with a record. -/
def scan (reader : Reader) (lines : List Text) : Job (List Reference) := do
  let references := lines.filterMap reader.readLine
  references.forM fun r =>
    note .info .errorLines ("Broken reference of " ++ r.type ++ " found in: " ++ r.path)
  return references

end Reader

/-- The index of references, with a record. -/
def Index.gather (references : List Reference) : Job Index := do
  let index := Index.ofList references
  note .debug .aggregation ("Aggregated " ++ Text.ofNat references.length ++ " references into " ++
    Text.ofNat index.size ++ " missing types.")
  return index

end ImportRepair
