import ImportRepair.Arguments.Basic
import ImportRepair.Text.Basic

/-!
# Usage and help

The texts that tell how the command is used, laid out for a terminal of some width.
-/

namespace ImportRepair

/-! ## Filling lines with words

The words of a text are put on lines of a number of characters, as many on each as fit. A word that
is longer than a line is cut, and its first part goes where there is still room.
-/

namespace Text

/-- The blank between words. -/
def blank : CodePoint := ' '

/-- A text cut into parts of a number of characters, the last one shorter; `part` is the part
begun. -/
def cutEvery (width : Nat) (part : Text) : Text → List Text
  | [] => [part]
  | c :: t =>
    if part.length < width then cutEvery width (part ++ [c]) t else part :: cutEvery width [c] t

/-- A line without the blank at its end. -/
def endAtWord (line : Text) : Text := if line.getLast? = some blank then line.dropLast else line

/-- Words and the blanks between them on lines; `line` is the line begun. -/
def fillFrom (width : Nat) (line : Text) : List Text → List Text
  | [] => if line = [] then [] else [endAtWord line]
  | piece :: rest =>
    if line.length + piece.length ≤ width then fillFrom width (line ++ piece) rest
    else if piece.length ≤ width then
      endAtWord line :: fillFrom width (if piece = [blank] then [] else piece) rest
    else
      let room := width - line.length
      let parts := cutEvery width [] (piece.drop room)
      (line ++ piece.take room) :: (parts.dropLast ++ fillFrom width (parts.getLast?.getD []) rest)

/-- The lines of a text whose words stand one blank apart. -/
def fillLines (width : Nat) (t : Text) : List Text :=
  fillFrom width [] ((splitAt blank t).intersperse [blank])

end Text

/-! ## The texts -/

namespace Arguments

/-- The name of the command. -/
def program : Text := "fix-imports"

/-- What the command does. -/
def purpose : Text :=
  "Scans a build log for \"cannot find '<type>' in scope\" errors, asks which module each " ++
    ("missing type lives in, and adds the import to every affected file." : Text)

namespace Flag

/-- What stands for the value of an option. -/
def placeholder : Flag → Text
  | .help | .dryRun => []
  | .buildFile => "BUILD_FILE"
  | .config => "CONFIG"
  | .modules => "MODULES"
  | .extension => "EXTENSION"
  | .logLevel => "\x7b" ++ Text.join "," levels ++ "\x7d"

/-- What an option means, and what counts without it. -/
def meaning : Flag → Text
  | .help => "show this help message and exit"
  | .buildFile =>
    "Build output containing the 'cannot find <type> in scope' errors. Defaults to " ++
      ("build_log.default_path from the configuration (output.txt). (default: None)" : Text)
  | .config =>
    "YAML configuration file. Defaults to config/application.yml when present. (default: None)"
  | .modules =>
    "YAML file mapping missing type names to module names. Types not listed are asked for " ++
      ("interactively. (default: None)" : Text)
  | .extension => "Source file extension reported in the build log (e.g. swift). (default: None)"
  | .dryRun => "Report what would change without writing any file. (default: False)"
  | .logLevel => "Logging level; overrides logging.level from the configuration. (default: None)"

/-- A spelling of an option with what stands for its value. -/
def withPlaceholder (f : Flag) (spelling : Text) : Text :=
  if f.takesValue then spelling ++ " " ++ f.placeholder else spelling

/-- An option in the usage, where the shortest spelling is shown. -/
def inUsage (f : Flag) : Text :=
  "[" ++ f.withPlaceholder (if f = .help then short else f.long) ++ "]"

/-- An option in the help, where every spelling is shown. -/
def inHelp (f : Flag) : Text :=
  if f = .help then short ++ ", " ++ f.long else f.withPlaceholder f.long

end Flag

/-! ## Layout -/

/-- A number of blanks. -/
def blanks (count : Nat) : Text := List.replicate count Text.blank

/-- Lines, each with a line feed. -/
def unlines (lines : List Text) : Text := lines.flatMap (· ++ [Text.lf])

/-- The number of columns that texts use on a terminal. The last two stay free, and a terminal
without a width has the usual one. -/
def roomOn (columns : Nat) : Nat := (if columns = 0 then 80 else columns) - 2

/-- Parts on lines with a blank between them. Lines are as long as they may be, but each has a part;
`line` holds the parts of the line begun and `used` is its length. -/
def linesOf (room indent : Nat) (line : List Text) (used : Nat) : List Text → List Text
  | [] => if line = [] then [] else [Text.join " " line]
  | part :: rest =>
    if room < used + part.length ∧ line ≠ [] then
      Text.join " " line :: linesOf room indent [part] (indent + part.length + 1) rest
    else linesOf room indent (line ++ [part]) (used + part.length + 1) rest

/-- The first words of the usage. -/
def usageHead : Text := "usage: "

/-- How the command is called: on one line if there is room. Otherwise the options stand beside the
name of the command, or below it where it takes more than three quarters of a line. -/
def usage (columns : Nat) : Text :=
  let room := roomOn columns
  let options := Flag.all.map Flag.inUsage
  let line := Text.join " " (program :: options)
  let beside := usageHead.length + program.length
  if usageHead.length + line.length ≤ room then usageHead ++ line ++ [Text.lf]
  else
    let (indent, lines) :=
      if 4 * beside ≤ 3 * room then
        (beside + 1, linesOf room (beside + 1) [] usageHead.length (program :: options))
      else (usageHead.length, program :: linesOf room usageHead.length [] usageHead.length options)
    usageHead ++ Text.join ([Text.lf] ++ blanks indent) lines ++ [Text.lf]

/-- The least width of a text. -/
def leastWidth : Nat := 11

/-- An option and its meaning. The meaning starts in the line of the option if that is short. -/
def entry (room : Nat) (f : Flag) : Text :=
  let indent := min 24 (max (room - 20) 4)
  let lines := Text.fillLines (max (room - indent) leastWidth) f.meaning
  let title := blanks 2 ++ f.inHelp
  if title.length + 2 ≤ indent then
    Text.padRight indent title ++ unlines (lines.take 1) ++
      unlines ((lines.drop 1).map (blanks indent ++ ·))
  else unlines (title :: lines.map (blanks indent ++ ·))

/-- What the command does and what its options mean. -/
def help (columns : Nat) : Text :=
  let room := roomOn columns
  usage columns ++ [Text.lf] ++ unlines (Text.fillLines (max room leastWidth) purpose) ++
    unlines [[], "options:"] ++ Flag.all.flatMap (entry room)

/-- The text that tells a mistake. -/
def complaint (columns : Nat) (mistake : Text) : Text :=
  usage columns ++ program ++ ": error: " ++ mistake ++ [Text.lf]

/-- The exit code after a mistake. -/
def mistakeCode : Nat := 2

end Arguments

end ImportRepair
