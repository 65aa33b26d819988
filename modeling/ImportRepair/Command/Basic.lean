import ImportRepair.Arguments.Usage
import ImportRepair.Journal.Setup
import ImportRepair.Mapping
import ImportRepair.Run
import ImportRepair.Settings.Load
import ImportRepair.Settings.LookUp
import ImportRepair.Text.Case
import ImportRepair.World

/-!
# The command

A command line is read, settings are loaded, the journal is set up and a console chosen; then the
files are patched and a summary is shown. The exit code tells how that went.
-/

namespace ImportRepair

/-! ## Choosing a console -/

namespace Console.Kind

/-- The drawn console that settings ask for. -/
def drawnOf (settings : Value) : Except Failure Kind := do
  let section_ ← Settings.sectionAt (if settings.isTruthy then settings else .map []) "ui"
  let style := (← Settings.lookUp section_ "progress_style").getD (.text "spinner")
  return .drawn ((← style.shown).toLower = ("spinner" : Text))

/-- Chooses the console that settings ask for. The drawn one stands in for one that does not
exist. -/
def choose (settings : Value) : Job Kind := do
  let section_ ← MonadExcept.ofExcept (Settings.sectionAt settings "ui")
  let wish := (← MonadExcept.ofExcept (Settings.lookUp section_ "type")).getD (.text "rich")
  let name := (← MonadExcept.ofExcept wish.shown).toLower
  if name = ("tqdm" : Text) then return .plain
  if name ≠ ("rich" : Text) then
    note .warning .consoleChoice ("Unknown ui.type '" ++ name ++ "', using rich.")
  MonadExcept.ofExcept (drawnOf settings)

end Console.Kind

namespace Command

/-! ## Exit codes -/

/-- Every type got its module and no file failed. -/
def successCode : Nat := 0

/-- The run did not come to its end. -/
def failureCode : Nat := 1

/-- The run came to its end, but some file could not be updated. -/
def incompleteCode : Nat := 3

/-! ## Preparations -/

/-- The settings file that is asked for. -/
def settingsFile (o : Arguments.Options) : Option Text :=
  o.config.map fun
    | .text path => path
    | .nothing => []

/-- The settings: those of the file, with the options of the command line over them. -/
def settings (o : Arguments.Options) : Job Entries := do
  let root := (← get).tree.working.path
  let loaded ← Settings.load root (settingsFile o)
  Settings.override root o loaded

/-- Loads the settings, sets up the journal and chooses the console. -/
def prepare (o : Arguments.Options) : Job (Entries × Console.Kind) := do
  let settings ← settings o
  Settings.ensureDirectories settings
  Journal.setUp (.map settings)
  note .info .entry "--- Starting Import Fixer ---"
  return (settings, ← Console.Kind.choose (.map settings))

/-! ## The run -/

/-- Whether settings ask for a trial run. -/
def isTrial (settings : Entries) : Bool :=
  ((Settings.get? settings "patching" "dry_run").getD .null).isTruthy

/-- The build log that settings name. -/
def buildLog (settings : Entries) : Value :=
  (Settings.get? settings "build_log" "build_file").getD .null

/-- Sets up what a run works with. -/
def assemble (o : Arguments.Options) (settings : Entries) : Job Run := do
  note .debug .construction "Creating FileSystemAdapter"
  let reader ← Reader.create (.map settings)
  let mappings ← match o.modules.bind Arguments.Given.text? with
    | some path => (fun mapping => [mapping]) <$> Mapping.load path
    | none => pure []
  let resolver : Resolver := { mappings, interactive := true }
  return { reader, resolver, trial := isTrial settings }

/-- Sets up a run and executes it. -/
def execute (o : Arguments.Options) (settings : Entries) : Job Outcome := do
  let run ← assemble o settings
  match buildLog settings with
  | .text log => run.execute log
  | .bytes _ => throw .pathOfBytes
  | v => throw (.notPath v.kindName)

/-! ## What is shown -/

/-- The names of the summary's columns. -/
def summaryColumns : List Text := ["Type", "Module", "File", "Outcome"]

/-- The rows of the summary: the files of each type, the types in their order. -/
def summaryRows (report : Report) : List (List Text) :=
  report.types.flatMap fun type =>
    (report.resultsOf type).map fun r => [type, r.module, r.path, r.status.name]

/-- Shows the summary, unless there is nothing in it. -/
def summarise (report : Report) : Job Unit := do
  if !report.results.isEmpty then
    display (.table [] summaryColumns "Summary")
    (summaryRows report).forM fun cells => display (.row [] cells)
    display (.shown [])

/-- Shows an error and records it. -/
def tell (severity : Severity) (shown recorded : Text) : Job Unit := do
  display (.message .error shown)
  note severity .command recorded

/-- Whether a failure is expected, so that it speaks for itself. -/
def isExpected : Failure → Bool
  | .logMissing _ => true
  | .mapping _ => true
  | _ => false

/-- Tells that a run failed. -/
def tellFailure (e : Failure) : Job Unit :=
  if isExpected e then tell .error e.message e.message
  else
    let text := ("An error occurred while fixing imports: " : Text) ++ e.message
    tell .critical text text

/-- Patches the files that the build log names, and gives the exit code. -/
def fix (o : Arguments.Options) (settings : Entries) : Job Nat := do
  display (.panel ("Fixing missing imports from " ++ (buildLog settings).display ++
    if isTrial settings then (" (dry run)" : Text) else []) "Import Fixer")
  match ← Patch.attempt (fun _ => true) (execute o settings) with
  | .error e =>
    tellFailure e
    return failureCode
  | .ok (.inputEnded type report) =>
    summarise report
    let text := Run.inputEndedMessage type
    tell .error (text ++ ". Stopping.") text
    return failureCode
  | .ok (.finished report) =>
    summarise report
    if report.hasFailures then
      display (.message .error "Some files could not be updated.")
      return incompleteCode
    return successCode

/-! ## From the command line to the exit code -/

/-- How a command ends. -/
structure Ending where
  /-- The console, once it is chosen. -/
  console : Option Console.Kind
  /-- The exit code, unless something failed that the command does not handle. -/
  code : Except Failure Nat
  /-- The output. -/
  output : Text
  /-- The error stream. -/
  errors : Text
  /-- The world that the command leaves. -/
  world : World

/-- The code of a failed command. A failure that asks for an exit code gets it. -/
def codeOf : Failure → Except Failure Nat
  | .exit code => .ok code
  | e => .error e

/-- The output of a world's console. -/
def outputOf (w : World) : Text := (w.console.map (·.output)).getD []

/-- Runs a command line on a terminal. -/
def run (terminal : Console.Terminal) (arguments : List Text) (w : World) : Ending :=
  match Arguments.parse arguments with
  | .help => ⟨none, .ok successCode, Arguments.help terminal.width, w.journal.stream, w⟩
  | .mistake text =>
    ⟨none, .ok Arguments.mistakeCode, [],
      w.journal.stream ++ Arguments.complaint terminal.width text, w⟩
  | .options o =>
    match (prepare o).run w with
    | .error e w => ⟨none, codeOf e, [], w.journal.stream, w⟩
    | .ok (settings, console) w =>
      match (fix o settings).run { w with console := some (.new console terminal) } with
      | .error e w => ⟨console, codeOf e, outputOf w, w.journal.stream, w⟩
      | .ok code w => ⟨console, .ok code, outputOf w, w.journal.stream, w⟩

end Command

end ImportRepair
