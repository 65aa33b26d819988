import ImportRepair.Patch.File
import ImportRepair.Reference.Reader
import ImportRepair.Report
import ImportRepair.Resolution

/-!
# A run

A run reads a build log, finds the module of each missing type in code-point order, and patches the
files of one type before it asks for the next.
-/

namespace ImportRepair

/-- How a run ends if nothing fails. -/
inductive Outcome
  /-- Every type was handled. -/
  | finished (report : Report)
  /-- Nobody knew the module of a type. The report covers the types before it. -/
  | inputEnded (type : Text) (report : Report)

/-- Whoever is asked for the module of a type that is missing in a number of files. -/
abbrev Adviser := Text → Nat → Job (Option Text)

instance : Coe Resolver Adviser := ⟨Resolver.resolve⟩

/-- What a run works with. -/
structure Run where
  reader : Reader
  resolver : Adviser
  /-- Whether nothing is to be written. -/
  trial : Bool

namespace Run

/-- The wording of the end of input. -/
def inputEndedMessage (type : Text) : Text :=
  "Input ended before a module was given for " ++ type

/-- The tone in which an outcome is told. -/
def tone : Patch.Status → Console.Tone
  | .patched | .wouldPatch => .success
  | .alreadyPresent => .info
  | .noAnchor | .unwritable | .encodeFailed => .warning
  | .failed => .error

/-- Tells an outcome. -/
def tell (result : Patch.Result) : Job Unit :=
  display (.message (tone result.status) result.message)

/-- Handles the given types in their order. -/
def handleTypes (run : Run) : List Text → Report → Job Outcome
  | [], report => return .finished report
  | type :: rest, report => do
    let paths := report.index.pathsFor type
    match ← run.resolver type paths.length with
    | none => return .inputEnded type report
    | some module =>
      let results ← Patch.files run.trial module paths
      results.forM tell
      handleTypes run rest (report.add type module results)

/-- The references of a build log. An indicator runs meanwhile. -/
def collect (run : Run) (log : Text) : Job Index := do
  display (.started [] "Searching build log for broken references...")
  try
    Index.gather (← run.reader.scan (← Files.readLines log))
  finally
    display (.stopped [])

/-- Handles all references of a build log. -/
def execute (run : Run) (log : Text) : Job Outcome := do
  if !(← Files.isReadable log) then throw (.logMissing log)
  note .info .run ("Scanning build log " ++ log)
  let index ← run.collect log
  if index.isEmpty then
    display (.message .success "No 'cannot find in scope' errors found in the build log.")
    return .finished (.start index)
  display (.message .info ("Found " ++ Text.ofNat index.size ++ " types that are not found: " ++
    Text.join ", " index.types))
  run.handleTypes index.types (.start index)

end Run

end ImportRepair
