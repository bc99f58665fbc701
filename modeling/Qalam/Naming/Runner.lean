/-
# Names from programs

A program that is run for an identifier proposes a name for it. The identifier is the last of its
arguments, and the proposal is the first line of what it prints, without the blanks around it. A
program that fails, that does not end in time or that prints nothing proposes nothing.

How programs are run is left to a runner, of which nothing is assumed. What one run does may show
in later ones.
-/

import Qalam.Naming.Oracle
import Qalam.Naming.Sanitize
import Qalam.Text.Utf8

namespace Qalam.Naming

/-- What a program leaves behind when it ends: whether it succeeded, and what it printed. -/
structure Reply where
  success : Bool
  output : List UInt8
  deriving DecidableEq

/-- A way to run programs with arguments, for a number of milliseconds at most. There is no reply
if a program cannot be started or does not end in time. -/
structure Runner where
  Memory : Type
  initial : Memory
  run : Memory → (program : String) → (args : List String) → (limit : Nat) →
    Option Reply × Memory

/-- The runner that finds no program to run. -/
def Runner.idle : Runner where
  Memory := Unit
  initial := ()
  run _ _ _ _ := (none, ())

/-- The first line of a text, if the text has one, without its line end. -/
def firstLine? (text : List Char) : Option (List Char) :=
  if text.isEmpty then none
  else
    let line := text.takeWhile (· ≠ '\n')
    if line.length < text.length && line.getLast? = some '\r' then some line.dropLast
    else some line

/-- The name that a reply proposes. -/
def Reply.proposal? (reply : Reply) : Option String :=
  if reply.success then
    match firstLine? (Text.ofUtf8Lenient reply.output).toList with
    | some line =>
      let name := trim line
      if name.isEmpty then none else some (String.ofList name)
    | none => none
  else none

/-- The proposals of a program. -/
def Runner.oracle (runner : Runner) (program : String) (args : List String) (limit : Nat) :
    Oracle where
  Memory := runner.Memory
  initial := runner.initial
  ask memory spelling :=
    let (reply, memory) := runner.run memory program (args ++ [spelling]) limit
    (reply.bind Reply.proposal?, memory)

end Qalam.Naming
