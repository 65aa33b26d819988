import ImportRepair.Files.Error
import ImportRepair.Value.Display
import ImportRepair.Yaml.Error

/-!
# Failures

Everything that can keep an operation from having a result, with its wording.
-/

namespace ImportRepair

/-- Why a module mapping cannot be used. -/
inductive MappingError
  | unreadable (path : Text) (e : OsError)
  | malformed (path : Text)
  | notMapping (path : Text)
  | badModule (key path : Text)
deriving DecidableEq, Repr

/-- The wording of the error. -/
def MappingError.message : MappingError → Text
  | .unreadable path e => "Cannot read module mapping " ++ path ++ ": " ++ e.message
  | .malformed path => "Invalid YAML in module mapping " ++ path
  | .notMapping path =>
    "Module mapping " ++ path ++ " must be a mapping of type name to module name."
  | .badModule key path =>
    "Module for '" ++ key ++ "' in " ++ path ++ " must be a non-empty string."

/-- Why an operation has no result. -/
inductive Failure
  /-- An operation on a file fails. -/
  | file (e : FileError)
  /-- A document has no value. -/
  | document (e : Yaml.Error)
  /-- A module mapping cannot be used. -/
  | mapping (e : MappingError)
  /-- A value of the given kind does not have what is asked of it. -/
  | lacks (kind operation : Text)
  /-- A value of the given kind has no places for keys. -/
  | noPlaces (kind : Text)
  /-- The places of a value of the given kind are numbered, not named by texts. -/
  | numberedPlaces (kind : Text)
  /-- The places of a text are numbered. -/
  | placesOfText
  /-- A value of the given kind holds nothing that could be asked for. -/
  | noItems (kind : Text)
  /-- A mapping does not have a key. -/
  | missing (key : Text)
  /-- Bytes are given where a text is looked for in a value. -/
  | textInBytes
  /-- A whole number is too long to be shown. -/
  | longNumber
  /-- A way to a value has no last step. -/
  | emptyWay
  /-- A value of the given kind cannot be appended to a path. -/
  | notAppendable (kind : Text)
  /-- A value of the given kind is no path. -/
  | notPath (kind : Text)
  /-- Bytes are no path. -/
  | pathOfBytes
  /-- A value of the given kind is no record format. -/
  | notFormat (kind : Text)
  /-- Bytes are no record format. -/
  | formatOfBytes
  /-- A record format names no field. -/
  | badFormat (format : Text)
  /-- A text is the name of no level. -/
  | unknownLevel (name : Text)
  /-- What is asked for is no level. -/
  | notLevel (shown : Text)
  /-- Links run in a circle at a path. -/
  | linkCircle (path : Text)
  /-- There is no build log. -/
  | logMissing (path : Text)
  /-- No resolver is there to answer for a type. -/
  | noResolver
  /-- The output refuses a text that is to be shown; `advised` if the console says what may help. -/
  | unprintable (e : Utf8.EncodeError) (advised : Bool)
  /-- A running task was stopped before. -/
  | noTask (number : Nat)
  /-- The program ends at once with an exit code. -/
  | exit (code : Nat)
deriving DecidableEq, Repr

/-- What may help if the output refuses a text. -/
def Failure.advice : Text :=
  "\n*** You may need to add PYTHONIOENCODING=utf-8 to your environment ***"

/-- The wording of a failure. -/
def Failure.message : Failure → Text
  | .file e => e.message
  | .document e => e.message
  | .mapping e => e.message
  | .lacks kind operation => "'" ++ kind ++ "' object has no attribute " ++ operation.quoted
  | .noPlaces kind => "'" ++ kind ++ "' object does not support item assignment"
  | .numberedPlaces kind => kind ++ " indices must be integers or slices, not str"
  | .placesOfText => "string indices must be integers, not 'str'"
  | .noItems kind => "'" ++ kind ++ "' object is not subscriptable"
  | .missing key => key.quoted
  | .textInBytes => "a bytes-like object is required, not 'str'"
  | .longNumber => Decimal.tooLong []
  | .emptyWay => "list index out of range"
  | .notAppendable kind => "unsupported operand type(s) for /: 'PosixPath' and " ++ kind.quoted
  | .notPath kind => "expected str, bytes or os.PathLike object, not " ++ kind
  | .pathOfBytes =>
    "argument should be a str object or an os.PathLike object returning str, not <class 'bytes'>"
  | .notFormat kind => "expected string or bytes-like object, got " ++ kind.quoted
  | .formatOfBytes => "cannot use a string pattern on a bytes-like object"
  | .badFormat format => "Invalid format '" ++ format ++ "' for '%' style"
  | .unknownLevel name => "Unknown level: " ++ name.quoted
  | .notLevel shown => "Level not an integer or a valid string: " ++ shown
  | .linkCircle path => "Symlink loop from " ++ path.quoted
  | .logMissing path => "File doesn't exist at " ++ path
  | .noResolver => "'NoneType' object has no attribute 'resolve'"
  | .unprintable e advised => e.message ++ if advised then advice else []
  | .noTask number => Text.ofNat number
  | .exit code => Text.ofNat code

/-- A value as a message shows it. -/
def Value.shown (v : Value) : Except Failure Text :=
  if v.holdsLongNumber then .error .longNumber else .ok v.display

end ImportRepair
