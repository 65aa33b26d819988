import ImportRepair.Journal.Format

/-!
# The journal

Records of what happens, each with a severity and its source. Records below the threshold are
dropped; the others are kept and handed to the handlers, which write them in a format of their own.
-/

namespace ImportRepair

/-- The severity of a record. -/
inductive Severity
  | debug
  | info
  | warning
  | error
  | critical
deriving DecidableEq, Repr

namespace Severity

/-- The name of a severity. -/
def name : Severity → Text
  | .debug => "DEBUG"
  | .info => "INFO"
  | .warning => "WARNING"
  | .error => "ERROR"
  | .critical => "CRITICAL"

/-- The rank of a severity. -/
def rank : Severity → Nat
  | .debug => 10
  | .info => 20
  | .warning => 30
  | .error => 40
  | .critical => 50

end Severity

/-- The part of the program that a record comes from. -/
inductive Source
  | errorLines
  | aggregation
  | files
  | patching
  | mapping
  | questions
  | run
  | console
  | consoleChoice
  | settings
  | journal
  | construction
  | command
  | entry
  /-- Some other part, by its name. -/
  | other (name : Text)
deriving DecidableEq, Repr

/-- The name of a source, as records show it. -/
def Source.name : Source → Text
  | .errorLines => "import_fixer.infrastructure.adapters.error_parsing.regex_error_parser_adapter"
  | .aggregation => "import_fixer.application.services.reference_aggregator"
  | .files => "import_fixer.infrastructure.adapters.file_system_adapter"
  | .patching => "import_fixer.application.services.import_patcher"
  | .mapping => "import_fixer.infrastructure.adapters.resolution.mapping_module_resolver"
  | .questions => "import_fixer.infrastructure.adapters.resolution.interactive_module_resolver"
  | .run => "import_fixer.application.use_cases.fix_imports"
  | .console => "import_fixer.application.services.ui_service"
  | .consoleChoice => "import_fixer.infrastructure.factories.ui_service_factory"
  | .settings => "import_fixer.cli.commands.config_loader"
  | .journal => "import_fixer.cli.commands.logging_setup"
  | .construction => "import_fixer.cli.adapter_factory"
  | .command => "import_fixer.cli.commands.fix_command"
  | .entry => "import_fixer.cli.main"
  | .other name => name

/-- One record. -/
structure Record where
  severity : Severity
  source : Source
  message : Text
deriving DecidableEq, Repr

/-- Where a handler writes. -/
inductive Sink
  /-- The error stream, with the severity in a column of its own. -/
  | drawn
  /-- The error stream. -/
  | stream
  /-- The end of a file, by the number of its content. -/
  | file (content : Nat)
deriving DecidableEq, Repr

/-- Writes records to a sink in a format. -/
structure Handler where
  sink : Sink
  format : Text
deriving DecidableEq, Repr

/-- The records kept so far, what becomes of further ones, and the text of the error stream. -/
structure Journal where
  threshold : Nat
  records : List Record
  handlers : List Handler
  stream : Text
  /-- The time that records show. -/
  time : Text

namespace Journal

/-- The rank below which records are dropped as long as nothing else is set. -/
def defaultThreshold : Nat := Severity.warning.rank

/-- A journal without records and handlers. -/
def new (threshold : Nat) : Journal := ⟨threshold, [], [], [], []⟩

/-- The value of a record's field. -/
def field? (time : Text) (r : Record) (name : Text) : Option RecordFormat.FieldValue :=
  if name = ("message" : Text) then some (.text r.message)
  else if name = ("levelname" : Text) then some (.text r.severity.name)
  else if name = ("levelno" : Text) then some (.number r.severity.rank)
  else if name = ("name" : Text) then some (.text r.source.name)
  else if name = ("asctime" : Text) then some (.text time)
  else none

/-- The line that a handler writes for a record. -/
def line? (journal : Journal) (r : Record) (h : Handler) : Option Text :=
  (RecordFormat.write? (field? journal.time r) h.format).map (· ++ [10])

end Journal

end ImportRepair
