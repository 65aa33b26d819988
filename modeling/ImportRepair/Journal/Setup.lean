import ImportRepair.Settings.Basic
import ImportRepair.Settings.LookUp
import ImportRepair.Text.Case
import ImportRepair.World

/-!
# Setting the journal up

Settings say from which severity on records are kept, in what format they are written, and whether
they go to a file as well.
-/

namespace ImportRepair.Journal

/-! ## Levels -/

/-- The names of levels with their ranks. -/
def levels : List (Text × Nat) :=
  [("DEBUG", 10), ("INFO", 20), ("WARNING", 30), ("WARN", 30), ("ERROR", 40), ("CRITICAL", 50),
    ("FATAL", 50), ("NOTSET", 0)]

/-- A name that stands for a format and not for a level. -/
def formatName : Text := "BASIC_FORMAT"

/-- The format that it stands for. -/
def basicFormat : Text := "%(levelname)s:%(name)s:%(message)s"

/-- A name that stands for the styles of formats and not for a level. -/
def stylesName : Text := "_STYLES"

/-- The styles that it stands for, each with its mark and its usual format. -/
def styles : Text :=
  "\x7b'%': (<class 'logging.PercentStyle'>, '%(levelname)s:%(name)s:%(message)s'), " ++
    "'\x7b': (<class 'logging.StrFormatStyle'>, '\x7blevelname\x7d:\x7bname\x7d:" ++
    "\x7bmessage\x7d'), '$': (<class 'logging.StringTemplateStyle'>, " ++
    "'$\x7blevelname\x7d:$\x7bname\x7d:$\x7bmessage\x7d')\x7d"

/-- The threshold that a name asks for. A name that means nothing asks for the usual one. -/
def thresholdOf (name : Text) : Except Failure Nat :=
  if name = formatName then .error (.unknownLevel basicFormat)
  else if name = stylesName then .error (.notLevel styles)
  else .ok ((levels.lookup name).getD defaultThreshold)

/-! ## Formats -/

/-- The format with nothing but the message. -/
def messageOnly : Text := "%(message)s"

/-- The format that a value stands for. One that counts as not set leaves the message only. -/
def formatOf (v : Value) : Except Failure Text :=
  if !v.isTruthy then .ok messageOnly
  else
    match v with
    | .text format => if RecordFormat.isValid format then .ok format else .error (.badFormat format)
    | .bytes _ => .error .formatOfBytes
    | v => .error (.notFormat v.kindName)

/-! ## Handlers -/

/-- What settings say about the journal. -/
structure Wishes where
  level : Text
  format : Value
  file : Value
  /-- Whether the drawn console shows the records. -/
  drawn : Bool

/-- Reads what settings say about the journal. -/
def wishesOf (settings : Value) : Except Failure Wishes := do
  let section_ ← Settings.sectionAt settings "logging"
  let level ← ((← Settings.lookUp section_ "level").getD (.text "WARNING")).shown
  let format := (← Settings.lookUp section_ "format").getD (.text Settings.usualFormat)
  let file := (← Settings.lookUp section_ "log_file").getD .null
  let console ← Settings.sectionAt settings "ui"
  let drawn := (← Settings.lookUp console "enhanced_logging").getD (.bool true)
  return ⟨level.toUpper, format, file, drawn.isTruthy⟩

/-- The handler that shows records to the user. -/
def visibleHandler (wishes : Wishes) : Except Failure Handler :=
  if wishes.drawn then .ok ⟨.drawn, messageOnly⟩
  else (formatOf wishes.format).map fun format => ⟨.stream, format⟩

/-- Writes a line to the error stream. -/
def complain (line : Text) : Job Unit :=
  modify fun w =>
    { w with journal := { w.journal with stream := w.journal.stream ++ line ++ [10] } }

/-- The handler that appends records to a file, which is created if it is not there. A file that
cannot be opened is complained about. -/
def fileHandlers (path : Text) (format : Value) : Job (List Handler) := do
  let tree := (← get).tree
  match tree.openForWriting (tree.absolute path) with
  | .error (.system e) =>
    complain ("Warning: Could not configure file logging to " ++ path ++ ": " ++ e.message)
    return []
  | .error e => throw (.file e)
  | .ok (content, tree) =>
    modify fun w => { w with tree }
    return [⟨.file content, ← MonadExcept.ofExcept (formatOf format)⟩]

/-- Sets the journal up as settings say. -/
def setUp (settings : Value) : Job Unit := do
  let wishes ← MonadExcept.ofExcept (wishesOf settings)
  let visible ← MonadExcept.ofExcept (visibleHandler wishes)
  let toFile : List Handler ←
    if !wishes.file.isTruthy then pure []
    else
      match wishes.file with
      | .text path => fileHandlers path wishes.format
      | v => throw (.notPath v.kindName)
  modify fun w => { w with journal := { w.journal with handlers := visible :: toFile } }
  let threshold ← MonadExcept.ofExcept (thresholdOf wishes.level)
  modify fun w => { w with journal := { w.journal with threshold } }
  note .debug .journal ("Logging configured. Level: " ++ wishes.level ++ ", File: " ++
    if wishes.file.isTruthy then wishes.file.display else ("None" : Text))

end ImportRepair.Journal
