/-
# The command line among files

What an invocation finds around it when all there is are files: naming commands are the programs
known here, which are run among these files.
-/

import Qalam.Command
import Qalam.Invocation

namespace Qalam

/-- Files with the known programs to run among them. -/
def Files.host (files : Files) : Host := ⟨files, Command.runner files⟩

instance : Coe Files Host := ⟨Files.host⟩

end Qalam
