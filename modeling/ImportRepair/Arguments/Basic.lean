import ImportRepair.Text.Case
import ImportRepair.Text.Classes
import ImportRepair.Text.Lines
import ImportRepair.Text.Quoted

/-!
# Command line arguments

Options start with a hyphen. A long one may be cut short as long as it is told apart from the
others, and may hold its value after an equals sign. A later option wins over an earlier one.
-/

namespace ImportRepair.Arguments

/-- An option. -/
inductive Flag
  | help
  | buildFile
  | config
  | modules
  | extension
  | dryRun
  | logLevel
deriving DecidableEq, Repr

namespace Flag

/-- All options in the order of the help text. -/
def all : List Flag := [.help, .buildFile, .config, .modules, .extension, .dryRun, .logLevel]

/-- The long spelling of an option. -/
def long : Flag → Text
  | .help => "--help"
  | .buildFile => "--build-file"
  | .config => "--config"
  | .modules => "--modules"
  | .extension => "--extension"
  | .dryRun => "--dry-run"
  | .logLevel => "--log-level"

/-- The only short spelling. -/
def short : Text := "-h"

/-- The name of an option in messages. -/
def title (f : Flag) : Text := if f = .help then short ++ "/" ++ f.long else f.long

/-- Whether an option takes a value. -/
def takesValue (f : Flag) : Bool := f ≠ .help && f ≠ .dryRun

/-- The option with a spelling. -/
def ofSpelling? (t : Text) : Option Flag :=
  if t = short then some .help else all.find? (·.long = t)

end Flag

/-- The value given to an option: a text, or nothing if it was a lone separator. -/
inductive Given
  | text (t : Text)
  | nothing
deriving DecidableEq, Repr

/-- The text of a value that counts as given: one that is not empty. -/
def Given.text? : Given → Option Text
  | .text t => if t = [] then none else some t
  | .nothing => none

/-- The options of a command line. -/
structure Options where
  buildFile : Option Given := none
  config : Option Given := none
  modules : Option Given := none
  extension : Option Given := none
  dryRun : Bool := false
  logLevel : Option Given := none
deriving DecidableEq, Repr

/-- How a command line is understood. -/
inductive Parsed
  | options (o : Options)
  | help
  | mistake (text : Text)
deriving DecidableEq, Repr

/-- The names of the levels that can be asked for. -/
def levels : List Text := ["DEBUG", "INFO", "WARNING", "ERROR", "CRITICAL"]

/-! ## Kinds of arguments -/

/-- What an argument is taken for. -/
inductive Role
  | positional
  /-- The first lone double hyphen. -/
  | separator
  /-- An option in one of its spellings, with a value after an equals sign. -/
  | flag (f : Flag) (spelling : Text) (value : Option Text)
  /-- An option that does not exist. -/
  | unknown

/-- The hyphen. -/
def hyphen : CodePoint := '-'

/-- A negative number, which is no option. A line end after it does not count. -/
def isNegativeNumber (t : Text) : Bool :=
  match if t.getLast? = some Text.lf then t.dropLast else t with
  | [] => false
  | c :: u =>
    let whole := u.takeWhile CodePoint.isDigit
    c = hyphen &&
      (match u.drop whole.length with
        | [] => !whole.isEmpty
        | point :: places =>
          point = ('.' : CodePoint) && !places.isEmpty && places.all CodePoint.isDigit)

/-- The text before the first equals sign and the text after it. -/
def splitValue (t : Text) : Text × Option Text :=
  let name := t.takeWhile (· ≠ ('=' : CodePoint))
  match t.drop name.length with
  | [] => (name, none)
  | _ :: value => (name, some value)

/-- The options that an argument can be a short form of. -/
def candidates (t : Text) : List (Flag × Text × Option Text) :=
  if (Text.ofString "--").isPrefixOf t then
    let (name, value) := splitValue t
    (Flag.all.filter fun f => name.isPrefixOf f.long).map fun f => (f, f.long, value)
  else if Flag.short.isPrefixOf t then [(.help, Flag.short, some (t.drop 2))]
  else []

/-- The role of an argument before the separator, or the mistake in it. -/
def roleOf (t : Text) : Except Text Role :=
  if t.head? ≠ some hyphen ∨ t.length ≤ 1 then .ok .positional
  else
    match Flag.ofSpelling? t with
    | some f => .ok (.flag f t none)
    | none =>
      let (name, value) := splitValue t
      match value, Flag.ofSpelling? name with
      | some v, some f => .ok (.flag f name (some v))
      | _, _ =>
        match candidates t with
        | [(f, spelling, value)] => .ok (.flag f spelling value)
        | [] =>
          .ok (if isNegativeNumber t || t.contains (' ' : CodePoint) then .positional else .unknown)
        | several =>
          .error ("ambiguous option: " ++ t ++ " could match " ++
            Text.join ", " (several.map (·.2.1)))

/-- The roles of all arguments. After the separator all are positional. -/
def roles : List Text → Except Text (List (Text × Role))
  | [] => .ok []
  | t :: rest =>
    if t = ("--" : Text) then .ok ((t, .separator) :: rest.map fun u => (u, .positional))
    else do
      let role ← roleOf t
      return (t, role) :: (← roles rest)

/-! ## Reading options -/

/-- The wording of a mistake in an option. -/
def mistakeIn (f : Flag) (text : Text) : Text := "argument " ++ f.title ++ ": " ++ text

/-- The options with a value set. -/
def setValue (o : Options) (f : Flag) (value : Text) : Except Text Options :=
  let given : Given := if value = ("--" : Text) then .nothing else .text value
  match f with
  | .buildFile => .ok { o with buildFile := given }
  | .config => .ok { o with config := given }
  | .modules => .ok { o with modules := given }
  | .extension => .ok { o with extension := given }
  | .logLevel =>
    match given with
    | .nothing => .ok { o with logLevel := given }
    | .text t =>
      let level := Text.toUpper t
      if levels.contains level then .ok { o with logLevel := some (.text level) }
      else
        .error (mistakeIn f ("invalid choice: " ++ level.quoted ++ " (choose from " ++
          Text.join ", " (levels.map Text.quoted) ++ ")"))
  | _ => .ok o

/-- Reads a value that stands in the same argument as an option that takes none: after the short
spelling it can only be more of the short option. -/
def ignoredValue (f : Flag) (spelling : Text) : Text → Parsed
  | [] => .mistake (mistakeIn f ("ignored explicit argument " ++ Text.quoted []))
  | c :: rest =>
    if spelling = Flag.short ∧ [hyphen, c] = Flag.short then
      if rest = [] then .help else ignoredValue f spelling rest
    else .mistake (mistakeIn f ("ignored explicit argument " ++ Text.quoted (c :: rest)))

/-- Reads arguments with their roles. Those that nothing asks for are gathered in `extras`. -/
def readRoles : (o : Options) → (extras : List Text) → List (Text × Role) → Parsed
  | o, [], [] => .options o
  | _, extras, [] => .mistake ("unrecognized arguments: " ++ Text.join " " extras)
  | o, extras, (t, role) :: rest =>
    match role with
    | .flag f spelling (some value) =>
      if f.takesValue then
        match setValue o f value with
        | .ok o => readRoles o extras rest
        | .error e => .mistake e
      else ignoredValue f spelling value
    | .flag .help _ none => .help
    | .flag .dryRun _ none => readRoles { o with dryRun := true } extras rest
    | .flag f _ none =>
      match rest with
      | (value, .positional) :: rest =>
        match setValue o f value with
        | .ok o => readRoles o extras rest
        | .error e => .mistake e
      | _ => .mistake (mistakeIn f "expected one argument")
    | _ => readRoles o (extras ++ [t]) rest

/-- Reads a command line. -/
def parse (arguments : List Text) : Parsed :=
  match roles arguments with
  | .error e => .mistake e
  | .ok rs => readRoles {} [] rs

end ImportRepair.Arguments
