import ImportRepair.Console.Session
import ImportRepair.Failure
import ImportRepair.Files.RealPath
import ImportRepair.Journal.Basic

/-!
# The world of a run

The files, the journal, the console and the answers still to come, as one value. A job changes them
and may fail; what it did before it failed stays.
-/

namespace ImportRepair

/-- What goes wrong outside the program: files that refuse to be read or written, directories that
take no temporary file, renaming that fails. A device that runs full is none of these: what has been
opened for writing takes all its bytes. -/
structure Mishaps where
  /-- Files that may not be written. -/
  unwritable : List Text := []
  /-- Files that fail to be read, with the reason. -/
  unreadable : List (Text × Text) := []
  /-- Files that fail to be replaced, with the reason. -/
  irreplaceable : List (Text × Text) := []
  /-- Whether no temporary file can be created. -/
  noTemporary : Bool := false
  /-- The reason for which renaming fails. -/
  renameFault : Option Text := none
  /-- Whether the temporary file is gone when renaming fails. -/
  vanishing : Bool := false

/-- Everything that a job can see and change. -/
structure World where
  tree : FileTree
  mishaps : Mishaps
  journal : Journal
  /-- What the console was asked to show. -/
  screen : List Console.Event
  /-- The console that shows it, if there is one. -/
  console : Option Console.Session := none
  /-- The answers still to come. An absent one is the end of input, and so is the end of the
  list. -/
  answers : List (Option Text)

/-- A computation on the world. -/
abbrev Job := EStateM Failure World

namespace World

/-- A world with files and answers, and a journal with a threshold. -/
def new (tree : FileTree) (threshold : Nat) (answers : List (Option Text))
    (mishaps : Mishaps) : World :=
  { tree, mishaps, journal := Journal.new threshold, screen := [], answers }

/-- Hands a record to a handler. A record that its format or its sink cannot take is not written. -/
def handle (r : Record) (w : World) (h : Handler) : World :=
  match w.journal.line? r h with
  | none => w
  | some line =>
    match h.sink with
    | .drawn =>
      let line := Text.padRight 9 r.severity.name ++ line
      { w with journal := { w.journal with stream := w.journal.stream ++ line } }
    | .stream => { w with journal := { w.journal with stream := w.journal.stream ++ line } }
    | .file content =>
      match Utf8.encode line with
      | .error _ => w
      | .ok bytes =>
        { w with
          tree := w.tree.modifyContent content fun c => { c with bytes := c.bytes ++ bytes } }

/-- Makes a record, unless its severity is below the threshold. -/
def note (severity : Severity) (source : Source) (message : Text) (w : World) : World :=
  if severity.rank < w.journal.threshold then w
  else
    let r : Record := ⟨severity, source, message⟩
    let w := { w with journal := { w.journal with records := w.journal.records ++ [r] } }
    w.journal.handlers.foldl (handle r) w

/-- Shows something on the console, which may fail. -/
def present (e : Console.Event) (w : World) : Option Failure × World :=
  let w := { w with screen := w.screen ++ [e] }
  match w.console with
  | none => (none, w)
  | some session =>
    let (failure, session) := session.present e
    (failure, { w with console := some session })

/-- The next answer, and the world without it. -/
def answer (w : World) : Option Text × World :=
  match w.answers with
  | [] => (none, w)
  | a :: rest => (a, { w with answers := rest })

end World

/-- Makes a record. -/
def note (severity : Severity) (source : Source) (message : Text) : Job Unit :=
  modify (World.note severity source message)

/-- Shows something on the console. -/
def display (e : Console.Event) : Job Unit := do
  if let some failure ← modifyGet (World.present e) then throw failure

/-- Asks a question and takes the next answer. -/
def ask (question : Text) : Job (Option Text) := do
  display (.question question)
  modifyGet World.answer

end ImportRepair
