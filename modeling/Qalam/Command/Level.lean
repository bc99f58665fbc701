/-
# Levels of running scripts

Scripts run other scripts, and words expand other words; both happen one level deeper. A level
says how, so that each construct can be described without the others.
-/

import Qalam.Command.Glyph
import Qalam.Command.Grammar
import Qalam.Command.Shell

namespace Qalam.Command

/-- A computation on a shell. -/
abbrev Running (α : Type) : Type := StateM Shell α

/-- How scripts run and words expand one level deeper. -/
structure Level where
  run : Script → Shell → Shell
  expand : Word → Running (List Glyph)

namespace Level

/-- Run the lines of a text. A fault is found only when its line is reached. The budget is more
than the length of the text. -/
def runText (level : Level) : Nat → Source → Shell → Shell
  | 0, _, shell => shell.hang
  | budget + 1, source, shell =>
    if shell.flow ≠ .next then shell
    else match Grammar.firstLine source with
      | .error fault => { shell with line := fault.line }.abort ("Syntax error: " ++ fault.text)
      | .ok (none, _) => shell
      | .ok (some script, source) =>
        runText level budget source
          (if shell.switches.isIdle then shell else level.run script shell)

/-- Run a text as a part of a script. -/
def evaluate (level : Level) (text : String) (shell : Shell) : Shell :=
  level.runText (text.length + 1) (.start text.toList) shell

/-- Bring a shell to its end: what it has promised to do then is done, and the status stays. -/
def conclude (level : Level) (shell : Shell) : Shell :=
  match shell.farewell, shell.flow with
  | _, .hangs => shell
  | none, _ => shell
  | some text, flow =>
    let last := level.evaluate text { shell with flow := .next, farewell := none }
    if last.flow = .exits || last.flow = .aborts || last.flow = .hangs then last
    else { last with status := shell.status, flow }

end Level

end Qalam.Command
