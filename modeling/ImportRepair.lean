import ImportRepair.Arguments.Basic
import ImportRepair.Arguments.Usage
import ImportRepair.Command.Basic
import ImportRepair.Command.Needs
import ImportRepair.Console.Canvas
import ImportRepair.Console.Drawn
import ImportRepair.Console.Logged
import ImportRepair.Console.Markup
import ImportRepair.Console.Plain
import ImportRepair.Console.RunningLines
import ImportRepair.Console.Session
import ImportRepair.Decimal.Binary64
import ImportRepair.Decimal.Written
import ImportRepair.Failure
import ImportRepair.Files.Access
import ImportRepair.Files.Error
import ImportRepair.Files.Path
import ImportRepair.Files.RealPath
import ImportRepair.Files.Replace
import ImportRepair.Files.Tree
import ImportRepair.Files.Walk
import ImportRepair.Journal.Basic
import ImportRepair.Journal.Format
import ImportRepair.Journal.Setup
import ImportRepair.Main
import ImportRepair.Mapping
import ImportRepair.Patch.File
import ImportRepair.Patch.Result
import ImportRepair.Proofs.Beside
import ImportRepair.Proofs.Command.Assembling
import ImportRepair.Proofs.Command.Beginning
import ImportRepair.Proofs.Command.Codes
import ImportRepair.Proofs.Command.Consoles
import ImportRepair.Proofs.Command.Ending
import ImportRepair.Proofs.Command.Misreading
import ImportRepair.Proofs.Command.Summary
import ImportRepair.Proofs.Console.Choosing
import ImportRepair.Proofs.Console.FrontEnds
import ImportRepair.Proofs.Console.Layout
import ImportRepair.Proofs.Console.Reading
import ImportRepair.Proofs.Console.Refusing
import ImportRepair.Proofs.Console.Taking
import ImportRepair.Proofs.Files.Alphabet
import ImportRepair.Proofs.Files.Bytes
import ImportRepair.Proofs.Files.Fixpoints
import ImportRepair.Proofs.Files.Following
import ImportRepair.Proofs.Files.Jobs
import ImportRepair.Proofs.Files.Opened
import ImportRepair.Proofs.Files.ReadBack
import ImportRepair.Proofs.Files.Readers
import ImportRepair.Proofs.Files.Replacing
import ImportRepair.Proofs.Files.Rewriting
import ImportRepair.Proofs.Files.Shape
import ImportRepair.Proofs.Files.Spelling
import ImportRepair.Proofs.Files.Tracing
import ImportRepair.Proofs.Files.Twins
import ImportRepair.Proofs.Journal.SettingUp
import ImportRepair.Proofs.Keeping
import ImportRepair.Proofs.Lockstep
import ImportRepair.Proofs.Mapping.Entries
import ImportRepair.Proofs.Mapping.Lines
import ImportRepair.Proofs.Mapping.Loading
import ImportRepair.Proofs.Patch.Agreement
import ImportRepair.Proofs.Patch.Apart
import ImportRepair.Proofs.Patch.Isolation
import ImportRepair.Proofs.Patch.Ledger
import ImportRepair.Proofs.Patch.Lockstep
import ImportRepair.Proofs.Patch.Outcome
import ImportRepair.Proofs.Patch.Rehearsal
import ImportRepair.Proofs.Patch.Silence
import ImportRepair.Proofs.Patch.Splicing
import ImportRepair.Proofs.Patch.Telling
import ImportRepair.Proofs.Patch.Trail
import ImportRepair.Proofs.Reference.Building
import ImportRepair.Proofs.Reference.Grammar
import ImportRepair.Proofs.Reference.Listings
import ImportRepair.Proofs.Reference.Log
import ImportRepair.Proofs.Reference.Reading
import ImportRepair.Proofs.Run.Advisers
import ImportRepair.Proofs.Run.Agreement
import ImportRepair.Proofs.Run.Answers
import ImportRepair.Proofs.Run.ClosedForm
import ImportRepair.Proofs.Run.Course
import ImportRepair.Proofs.Run.Dialogue
import ImportRepair.Proofs.Run.Disk
import ImportRepair.Proofs.Run.Execution
import ImportRepair.Proofs.Run.Interview
import ImportRepair.Proofs.Run.Lockstep
import ImportRepair.Proofs.Run.Logs
import ImportRepair.Proofs.Run.Order
import ImportRepair.Proofs.Run.Reports
import ImportRepair.Proofs.Run.Rerun
import ImportRepair.Proofs.Run.Returning
import ImportRepair.Proofs.Run.Steps
import ImportRepair.Proofs.Run.Trial
import ImportRepair.Proofs.Settings.Directories
import ImportRepair.Proofs.Settings.Loading
import ImportRepair.Proofs.Settings.Merging
import ImportRepair.Proofs.Settings.Nesting
import ImportRepair.Proofs.Settings.Precedence
import ImportRepair.Proofs.Settings.Reading
import ImportRepair.Proofs.Settings.Resolving
import ImportRepair.Proofs.Settings.Safety
import ImportRepair.Proofs.Settings.Sections
import ImportRepair.Proofs.Settings.Variants
import ImportRepair.Proofs.Showing
import ImportRepair.Proofs.Silence
import ImportRepair.Proofs.Text.Classes
import ImportRepair.Proofs.Text.Encoded
import ImportRepair.Proofs.Text.Insertion
import ImportRepair.Proofs.Text.Lines
import ImportRepair.Proofs.Text.Offering
import ImportRepair.Proofs.Text.Stream
import ImportRepair.Proofs.Text.Unified
import ImportRepair.Proofs.Text.Utf8
import ImportRepair.Proofs.Text.Wrapping
import ImportRepair.Proofs.Twins
import ImportRepair.Proofs.Value.Keys
import ImportRepair.Proofs.Value.Ways
import ImportRepair.Proofs.Yaml.Keys
import ImportRepair.Proofs.Yaml.Lines
import ImportRepair.Proofs.Yaml.Reading
import ImportRepair.Proofs.Yaml.Scanning
import ImportRepair.Proofs.Yaml.Words
import ImportRepair.Reference.ErrorLine
import ImportRepair.Reference.Index
import ImportRepair.Reference.Reader
import ImportRepair.Report
import ImportRepair.Resolution
import ImportRepair.Run
import ImportRepair.Settings.Basic
import ImportRepair.Settings.Load
import ImportRepair.Settings.LookUp
import ImportRepair.Settings.Path
import ImportRepair.Text.Basic
import ImportRepair.Text.Broad
import ImportRepair.Text.Case
import ImportRepair.Text.Cased
import ImportRepair.Text.Classes
import ImportRepair.Text.Cluster
import ImportRepair.Text.Lines
import ImportRepair.Text.Printable
import ImportRepair.Text.Quoted
import ImportRepair.Text.Search
import ImportRepair.Text.Stream
import ImportRepair.Text.Utf8
import ImportRepair.Text.Width
import ImportRepair.Text.Word
import ImportRepair.Text.Wrap
import ImportRepair.Value.Basic
import ImportRepair.Value.Calendar
import ImportRepair.Value.Display
import ImportRepair.World
import ImportRepair.Yaml.Content
import ImportRepair.Yaml.Document
import ImportRepair.Yaml.Error
import ImportRepair.Yaml.Graph
import ImportRepair.Yaml.Implicit
import ImportRepair.Yaml.Merge
import ImportRepair.Yaml.Node
import ImportRepair.Yaml.Number
import ImportRepair.Yaml.Scalar
import ImportRepair.Yaml.Scan
import ImportRepair.Yaml.Tag
import ImportRepair.Yaml.Token
import ImportRepair.Yaml.Unrolled
