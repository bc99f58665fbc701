/-
# Shells

A shell is what a running script knows and has done: its parameters, the variables and functions
it has defined, what it has written, and how it goes on. What is written goes through numbered
channels, of which the first is for output and the second for errors. A channel leads to a file,
to nowhere, or to a text that is being collected; such texts nest, and the innermost one is that
of the running script. Commands in the background write at their own times, so every stretch of a
collected text has a time, and a text is complete only when nobody can write to it any more.
-/

import Qalam.Command.Condition
import Qalam.Command.Script
import Qalam.Files

namespace Qalam.Command

/-- Where a channel leads. Texts that are collected are numbered from the outermost one; errors are
collected as well, and dropped. -/
inductive Sink
  | capture (depth : Nat)
  | errors
  | file (place : List String)
  | nowhere
  deriving DecidableEq

/-- How a running script goes on: with the next command, by leaving loops or a function, not at
all, not at all because of an error, or without ever coming to an end. -/
inductive Flow
  | next
  | leaves (levels : Nat)
  | repeats (levels : Nat)
  | returns
  | exits
  | aborts
  | hangs
  deriving DecidableEq

/-- The switches of a shell that are on, by their letters. -/
structure Switches where
  letters : List Char
  deriving DecidableEq

namespace Switches

/-- Switches that are all off. -/
def off : Switches := ⟨[]⟩

/-- The letters of all switches, in the order in which they are shown. -/
def known : List Char :=
  ['u', 'b', 'a', 'C', 'E', 'V', 'v', 'x', 's', 'n', 'm', 'i', 'I', 'f', 'e']

/-- Whether the script ends with the first failure. -/
def isStrict (switches : Switches) : Bool := switches.letters.contains 'e'

/-- Whether parameters have to have values. -/
def isDemanding (switches : Switches) : Bool := switches.letters.contains 'u'

/-- Whether commands are read without being run. -/
def isIdle (switches : Switches) : Bool := switches.letters.contains 'n'

/-- Whether fields never stand for paths. -/
def isLiteral (switches : Switches) : Bool := switches.letters.contains 'f'

/-- Whether it is told what is being run. -/
def isTraced (switches : Switches) : Bool := switches.letters.contains 'x'

/-- Turn a switch on or off by its letter, if there is such a switch. -/
def turn (on : Bool) (switches : Switches) (letter : Char) : Option Switches :=
  let others := switches.letters.filter (· ≠ letter)
  if known.contains letter then some ⟨if on then letter :: others else others⟩ else none

/-- The letters of the switches that are on. -/
def text (switches : Switches) : String :=
  String.ofList (known.filter switches.letters.contains)

end Switches

/-- A script in the background: its number, its status, and when it comes to an end. -/
structure Job where
  number : Nat
  status : Nat
  finish : Nat

/-- A running script. Inside a function, the hidden values are those that its own variables
stand in front of. The line and the command are those that an error is reported with. The holders
say until when commands in the background can write to a sink. -/
structure Shell where
  files : Files
  name : String
  line : Nat
  command : Option String
  params : List String
  values : List (String × String)
  exported : List String
  constants : List String
  functions : List (String × Script)
  hidden : Option (List (String × Option String))
  farewell : Option String
  switches : Switches
  status : Nat
  captured : Option Nat
  isTested : Bool
  loops : Nat
  flow : Flow
  sources : List (Nat × List Char)
  captures : List (List (Nat × List Char))
  channels : List (Nat × Sink)
  milliseconds : Nat
  jobs : List Job
  holders : List (Sink × Nat)
  optionOffset : Nat

namespace Shell

/-- A shell before its first command. Its output is collected, and its errors are dropped. -/
def start (files : Files) (switches : Switches) (name : String) (params : List String) :
    Shell where
  files := files
  name := name
  line := 0
  command := none
  params := params
  values := [("IFS", " \t\n"), ("OPTIND", "1"), ("PWD", "/"), ("PPID", "1"), ("PS1", "$ "),
    ("PS2", "> "), ("PS4", "+ "), ("HOME", "/root"), ("PATH", "/usr/bin:/bin")]
  exported := ["HOME", "PATH"]
  constants := []
  functions := []
  hidden := none
  farewell := none
  switches := switches
  status := 0
  captured := none
  isTested := false
  loops := 0
  flow := .next
  sources := [(0, [])]
  captures := [[]]
  channels := [(1, .capture 0), (2, .errors)]
  milliseconds := 0
  jobs := []
  holders := []
  optionOffset := 0

/-- Replace the entry of a key in a list. -/
def replace {α : Type} (key : Nat) (value : Option α) (entries : List (Nat × α)) :
    List (Nat × α) :=
  let others := entries.filter fun (other, _) => other ≠ key
  match value with
  | some value => (key, value) :: others
  | none => others

/-- What is left to be read. -/
def input (shell : Shell) : List Char := (shell.sources.lookup 0).getD []

/-- Leave another text to be read. -/
def withInput (shell : Shell) (input : List Char) : Shell :=
  { shell with sources := replace 0 (some input) shell.sources }

/-- The text that is collected at present, in the order of time. -/
def output (shell : Shell) : List Char :=
  let stretches := shell.captures.head?.getD []
  (stretches.mergeSort fun first second => first.1 ≤ second.1).flatMap Prod.snd

/-- Lead a channel elsewhere, or close it. -/
def direct (shell : Shell) (channel : Nat) (sink : Option Sink) : Shell :=
  { shell with channels := replace channel sink shell.channels }

/-- Write to a channel. -/
def say (shell : Shell) (channel : Nat) (text : List Char) : Shell :=
  match shell.channels.lookup channel with
  | some (.capture depth) =>
    let place := shell.captures.length - 1 - depth
    let stretch := (shell.milliseconds, text)
    { shell with captures := shell.captures.modify place (· ++ [stretch]) }
  | some (.file place) => { shell with files := shell.files.extend place (written text) }
  | some .errors | some .nowhere | none => shell

/-- Write to the output. -/
def print (shell : Shell) (text : List Char) : Shell := shell.say 1 text

/-- Write a line to the errors. -/
def complain (shell : Shell) (text : String) : Shell := shell.say 2 (text.toList ++ ['\n'])

/-- Report an error: with the name of the script, the line, and the command that found it. -/
def warn (shell : Shell) (text : String) : Shell :=
  let command := match shell.command with
    | some command => command ++ ": "
    | none => ""
  shell.complain (shell.name ++ ": " ++ toString shell.line ++ ": " ++ command ++ text)

/-- Stop because of an error. -/
def abort (shell : Shell) (text : String) : Shell :=
  { shell.warn text with status := 2, flow := .aborts }

/-- Take over the output and the status of a command. Output for a closed channel makes it
fail. -/
def finish (shell : Shell) (outcome : Outcome) : Shell :=
  let isClosed := (shell.channels.lookup 1).isNone && !outcome.output.isEmpty
  { shell.print outcome.output with
    status := if isClosed then 1 else outcome.status
    milliseconds := shell.milliseconds + outcome.milliseconds }

/-- Take over what a program has left behind. -/
def absorb (shell : Shell) (outcome : Outcome) : Shell :=
  (outcome.complaints.foldl complain shell).finish outcome

/-- Take over what a command of the shell has left behind. -/
def absorbOwn (shell : Shell) (outcome : Outcome) : Shell :=
  (outcome.complaints.foldl warn shell).finish outcome

/-- Come to no end. -/
def hang (shell : Shell) : Shell := { shell with flow := .hangs }

/-- The value of a variable, if it has one. -/
def get? (shell : Shell) (name : String) : Option String := shell.values.lookup name

/-- Give a variable a value, unless it is constant. -/
def assign (shell : Shell) (name value : String) : Shell :=
  if shell.constants.contains name then shell.abort (name ++ ": is read only")
  else
    let others := shell.values.filter fun (other, _) => other ≠ name
    { shell with values := (name, value) :: others }

/-- Take a variable's value away. -/
def unassign (shell : Shell) (name : String) : Shell :=
  if shell.constants.contains name then shell.abort (name ++ ": is read only")
  else
    { shell with
      values := shell.values.filter fun (other, _) => other ≠ name
      exported := shell.exported.filter (· ≠ name) }

/-- Put an earlier value of a variable back. -/
def reassign (shell : Shell) (entry : String × Option String) : Shell :=
  let others := shell.values.filter fun (other, _) => other ≠ entry.1
  match entry.2 with
  | some value => { shell with values := (entry.1, value) :: others }
  | none => { shell with values := others }

/-- The value of a parameter, if it has one. All parameters together are no single value. -/
def value? (shell : Shell) (name : String) : Option String :=
  match name with
  | "#" => some (toString shell.params.length)
  | "?" => some (toString shell.status)
  | "-" => some shell.switches.text
  | "$" => some "1"
  | "!" => shell.jobs.head?.map fun job => toString job.number
  | name =>
    match number? name with
    | some 0 => some shell.name
    | some index => shell.params[index - 1]?
    | none => shell.get? name

/-- The characters at which expansions are cut. -/
def dividers (shell : Shell) : List Char := ((shell.get? "IFS").getD " \t\n").toList

/-- The octets of a file. -/
def contents? (shell : Shell) (path : String) : Option (List Char) :=
  match shell.files.read (spelled path) with
  | .ok octets => some (octets.map fun octet => Char.ofNat octet.toNat)
  | .error _ => none

/-- Directories that are always there. -/
def directories : List String :=
  ["/", ".", "..", "./", "/bin", "/dev", "/etc", "/home", "/root", "/tmp", "/usr", "/usr/bin",
    "/var"]

/-- What lies at a path. -/
def kind? (shell : Shell) (path : String) : Option Kind :=
  if directories.contains path then some .directory
  else if path = "/dev/null" then some .device
  else if ["/bin/sh", "/bin/echo", "/usr/bin/printf"].contains path then some .program
  else match shell.files.read (spelled path) with
    | .ok octets => some (.file (!octets.isEmpty))
    | .error .isDirectory => some .directory
    | .error _ => none

/-- The later of two times. -/
def later (first second : Nat) : Nat := if first < second then second else first

/-- When nobody can write to a sink any more. -/
def heldUntil (shell : Shell) (sink : Sink) : Nat :=
  let ends := shell.holders.filterMap fun (other, time) => if other = sink then some time else none
  ends.foldl later shell.milliseconds

/-- When the text that is collected at present is complete. -/
def completed (shell : Shell) : Nat := shell.heldUntil (.capture (shell.captures.length - 1))

/-- A shell that runs something apart: what it changes stays inside. -/
def inner (shell : Shell) : Shell := { shell with farewell := none, jobs := [] }

/-- A shell that runs something apart and collects its output. -/
def collecting (shell : Shell) : Shell :=
  { shell.inner.direct 1 (some (.capture shell.captures.length)) with
    captures := [] :: shell.captures }

/-- Return from what was run apart. Only what was written, the input that is left, the time and
the status come back. -/
def resume (shell after : Shell) : Shell :=
  { shell with
    files := { after.files with workingDirectory := shell.files.workingDirectory }
    captures := after.captures
    sources := after.sources
    milliseconds := after.milliseconds
    status := after.status
    holders := after.holders
    flow := if after.flow = .hangs then .hangs else .next }

/-- A command has come to an end: in a strict shell, one that has failed ends the script, unless
its failure is being tested. -/
def checked (shell : Shell) : Shell :=
  if shell.flow = .next && shell.switches.isStrict && !shell.isTested && shell.status ≠ 0 then
    { shell with flow := .exits }
  else shell

end Shell

end Qalam.Command
