import ImportRepair.Command.Basic

/-!
# What a command needs

The files that a command reads, and where it waits for an answer. The files that it reads later are
known once those that it reads first are there.
-/

namespace ImportRepair.Command

/-! ## Files -/

/-- The files that settings name. -/
def filesOfSettings (settings : Entries) : List Text :=
  [Settings.get? settings "build_log" "build_file",
    Settings.get? settings "logging" "log_file"].filterMap
    fun v => v.bind Value.text?

/-- The files that the build log names. -/
def filesOfLog (settings : Entries) (w : World) : List Text :=
  match Reader.ofSettings (.map settings), buildLog settings with
  | .ok reader, .text log =>
    match w.tree.readBytes log with
    | .ok bytes => ((Files.linesOf bytes).filterMap reader.readLine).map (·.path)
    | .error _ => []
  | _, _ => []

/-- The files that a command is known to need. -/
def files (arguments : List Text) (w : World) : List Text :=
  match Arguments.parse arguments with
  | .options o =>
    let first := [Settings.fileIn w.tree.working.path (settingsFile o)] ++
      (o.modules.bind Arguments.Given.text?).toList
    match (settings o).run w with
    | .ok settings _ => first ++ filesOfSettings settings ++ filesOfLog settings w
    | .error _ _ => first
  | _ => []

/-- How often the needed files have to be looked for: the settings name the log, the log names the
files to patch. -/
def rounds : Nat := 3

/-! ## Answers -/

/-- The requests up to a question, if there are that many questions; `before` come before it. -/
def upToQuestion : (before : Nat) → List Console.Event → Option (List Console.Event)
  | _, [] => none
  | before, .question text :: rest =>
    match before with
    | 0 => some [.question text]
    | before + 1 => (upToQuestion before rest).map (.question text :: ·)
  | before, e :: rest => (upToQuestion before rest).map (e :: ·)

/-- The output up to the question that waits for an answer, if there is one. -/
def waiting? (terminal : Console.Terminal) (answers : Nat) (ending : Ending) : Option Text := do
  let console ← ending.console
  let screen ← upToQuestion answers ending.world.screen
  some ((Console.Session.new console terminal).presentAll screen).output

end ImportRepair.Command
