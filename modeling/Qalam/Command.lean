/-
# Naming commands

A runner for the commands that names are asked of: shells and the small programs that scripts are
made of. What a command writes to files is there when it runs again.
-/

import Qalam.Command.Run
import Qalam.Naming.Runner

namespace Qalam.Command

/-- What is known of a command that had so many milliseconds. -/
def Outcome.reply? (outcome : Outcome) (limit : Nat) : Option Naming.Reply :=
  if outcome.milliseconds < limit then some ⟨outcome.status = 0, written outcome.output⟩ else none

/-- The known programs, run among files. Words with a zero in them cannot be passed on. -/
def runner (files : Files) : Naming.Runner where
  Memory := Files
  initial := files
  run files program args limit :=
    if (program :: args).any fun word => word.contains '\x00' then (none, files)
    else
      let (outcome, files) := run files (seen program) (args.map seen)
      (outcome.reply? limit, files)

end Qalam.Command
