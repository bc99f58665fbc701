/-
# Running scripts

A script runs by its structure. Each construct runs the scripts inside it one level deeper, and
the number of levels is limited; a script that would need more of them counts as one that never
ends. Nothing is run after a command that has ended the script.
-/

import Qalam.Command.Builtin
import Qalam.Command.Expansion
import Qalam.Command.Grammar

namespace Qalam.Command

namespace Shell

/-- Lead a channel to where a path leads, after what lies there is dropped or kept. -/
def openFile (shell : Shell) (channel : Nat) (path : String) (keeps : Bool) : Shell :=
  let directory := String.ofList (dirname [path]).output.dropLast
  if path = "/dev/null" then shell.direct channel (some .nowhere)
  else if path = "/dev/stdout" then shell.direct channel (shell.channels.lookup 1)
  else if path = "/dev/stderr" then shell.direct channel (shell.channels.lookup 2)
  else if shell.kind? path = some .directory then
    shell.abort ("cannot create " ++ path ++ ": Is a directory")
  else if path = "" || shell.kind? directory ≠ some .directory then
    shell.abort ("cannot create " ++ path ++ ": Directory nonexistent")
  else
    let place := shell.files.placeOf (spelled path)
    let isFile := (shell.files.get? place).isSome
    let files := if keeps && isFile then shell.files else shell.files.put place (.file [])
    { shell.direct channel (some (.file place)) with files }

/-- Make a channel the same as another one. -/
def duplicate (shell : Shell) (channel : Nat) (target : String) : Shell :=
  match number? target with
  | none =>
    if target = "-" then
      { shell.direct channel none with sources := replace channel none shell.sources }
    else shell.abort "Syntax error: Bad fd number"
  | some other =>
    match shell.sources.lookup other, shell.channels.lookup other with
    | none, none => shell.abort (target ++ ": Bad file descriptor")
    | some text, none => { shell with sources := replace channel (some text) shell.sources }
    | _, some sink => shell.direct channel (some sink)

/-- Change a channel. Where that is not possible, the shell stops. -/
def redirect (level : Level) (shell : Shell) : Redirection → Shell
  | .mk channel arrow target =>
    let (target, shell) := (Expansion.text level target).run shell
    let source (text : List Char) : Shell :=
      { shell with sources := replace channel (some text) shell.sources }
    if shell.flow ≠ .next then shell
    else match arrow with
      | .write => shell.openFile channel target false
      | .append => shell.openFile channel target true
      | .document => source target.toList
      | .duplicate => shell.duplicate channel target
      | .read =>
        if target = "/dev/null" then source []
        else if target = "/dev/stdin" then source shell.input
        else match shell.contents? target with
          | some text => source text
          | none => shell.abort ("cannot open " ++ target ++ ": No such file")

/-- Change channels as long as that is possible. -/
def redirectAll (level : Level) (arrows : List Redirection) (shell : Shell) : Shell :=
  arrows.foldl (fun shell arrow => if shell.flow = .next then shell.redirect level arrow else shell)
    shell

/-- The channels that a redirection takes its text from and brings it to. -/
def borrowed? : Redirection → Option (Nat × Nat)
  | .mk channel .duplicate [.char c _] =>
    (number? (String.ofList [c])).map fun other => (other, channel)
  | _ => none

/-- Put the channels back after something has run with others. What was read through a channel
that stood for another one is gone from that one as well. -/
def restoreChannels (arrows : List Redirection) (shell after : Shell) : Shell :=
  let isChanged (channel : Nat) : Bool := arrows.any fun
    | .mk other _ _ => other = channel
  let kept := after.sources.filter fun (channel, _) => !isChanged channel
  let old := shell.sources.filter fun (channel, _) => isChanged channel
  let giveBack (sources : List (Nat × List Char)) (pair : Nat × Nat) : List (Nat × List Char) :=
    match sources.lookup pair.1, after.sources.lookup pair.2 with
    | some _, some text => replace pair.1 (some text) sources
    | _, _ => sources
  { after with
    channels := shell.channels
    sources := (arrows.filterMap borrowed?).foldl giveBack (old ++ kept) }

/-- Change channels, run something, and put the channels back. An error in the change only counts
as a failure. -/
def withArrows (level : Level) (arrows : List Redirection) (body : Shell → Shell)
    (shell : Shell) : Shell :=
  let opened := shell.redirectAll level arrows
  let after :=
    if opened.flow = .next then body opened
    else if opened.flow = .aborts then { opened with flow := .next }
    else opened
  restoreChannels arrows shell after

/-- Give variables their values in order. -/
def settle (level : Level) (settings : List (String × Word)) : Running Unit :=
  settings.forM fun (name, value) => do
    let text ← Expansion.value level value
    modify fun shell => if shell.flow = .next then shell.assign name text else shell

/-- Run a function. -/
def callFunction (level : Level) (body : Script) (args : List String) (shell : Shell) : Shell :=
  let inside := { shell with params := args, hidden := some [], loops := 0 }
  let after := level.run body inside
  let restored := (after.hidden.getD []).reverse.foldl reassign after
  { restored with
    params := shell.params
    hidden := shell.hidden
    loops := shell.loops
    flow := if after.flow = .returns then .next else after.flow }

/-- Run a script to its end in a shell of its own. Variables that are passed on keep their
values. -/
def runApart (level : Level) (outer : Shell) (switches : Switches) (name script : String)
    (params : List String) : Shell :=
  let passed := outer.values.filter fun (name, _) => outer.exported.contains name
  let own := Shell.start outer.files switches name params
  let inner := { own with
    values := passed ++ own.values
    exported := outer.exported
    captures := outer.captures
    channels := outer.channels
    sources := outer.sources
    milliseconds := outer.milliseconds }
  outer.resume (level.conclude (level.evaluate script inner))

/-- Start a shell as a program of its own: switches, a script, its name and its parameters. The
script is an argument, a file, or the input. -/
def program (level : Level) (outer : Shell) (path : String) (args : List String) : Shell :=
  let refuse (text : String) : Shell :=
    { outer.complain (path ++ ": 0: " ++ text) with status := 2 }
  match Switches.off.take true args with
  | .error reason => refuse reason
  | .ok taken =>
    match taken.hasScript, taken.rest with
    | true, script :: params =>
      runApart level outer taken.switches (params.head?.getD path) script params.tail
    | true, [] => refuse "-c requires an argument"
    | false, rest =>
      match taken.fromInput, rest with
      | false, file :: params =>
        match outer.contents? file with
        | some script => runApart level outer taken.switches file (String.ofList script) params
        | none => refuse ("cannot open " ++ file ++ ": No such file")
      | _, params =>
        let script := String.ofList outer.input
        runApart level (outer.withInput []) taken.switches path script params

/-- The name of a program without the directory where programs lie. -/
def programName (shell : Shell) (path : String) : String :=
  if !path.contains '/' then path
  else match shell.files.placeOf (spelled path) with
    | ["bin", name] | ["usr", "bin", name] => name
    | _ => path

/-- Take the changes of variables from the arguments of `env`. -/
def surroundings (shell : Shell) : List String → Shell × List String
  | "-u" :: name :: args => surroundings (shell.unassign name) args
  | "-i" :: args => surroundings { shell with exported := [] } args
  | arg :: args =>
    if arg.contains '=' then
      let (name, value) := splitSetting arg
      surroundings
        { shell.assign name (value.getD "") with exported := name :: shell.exported } args
    else (shell, arg :: args)
  | [] => (shell, [])

/-- Fail because there is no such program. -/
def notFound (shell : Shell) (name : String) : Shell :=
  match shell.kind? name with
  | some _ =>
    if name.contains '/' then { shell.warn (name ++ ": Permission denied") with status := 126 }
    else { shell.warn (name ++ ": not found") with status := 127 }
  | none =>
    let reason := if name.isEmpty then ": Permission denied" else ": not found"
    { shell.warn (name ++ reason) with status := 127 }

/-- Run a program that is not part of a shell. -/
def external (level : Level) (shell : Shell) : Nat → String → List String → Shell
  | 0, name, _ => shell.notFound name
  | budget + 1, path, args =>
    match shell.programName path with
    | "sh" | "dash" => program level shell path args
    | "env" =>
      match surroundings shell args with
      | (inside, name :: args) =>
        let after := external level inside budget name args
        { after with values := shell.values, exported := shell.exported }
      | (_, []) => { shell with status := 0 }
    | name =>
      match program? shell.contents? shell.kind? name args shell.input with
      | some outcome => (shell.absorb outcome).withInput outcome.unread
      | none => shell.notFound path

/-- Run the lines of a file as a part of a script. -/
def source (level : Level) (shell : Shell) : List String → Shell
  | path :: _ =>
    match shell.contents? path, path.contains '/' with
    | some text, true => level.evaluate (String.ofList text) { shell with status := 0 }
    | none, true => shell.abort ("cannot open " ++ path ++ ": No such file")
    | _, false => shell.abort (path ++ ": not found")
  | [] => { shell with status := 0 }

/-- Run a command of the shell. Errors are reported with its name, and they stop the script only
if the command belongs to the language itself. -/
def withCommand (isSpecial : Bool) (name : String) (body : Shell → Shell) (shell : Shell) :
    Shell :=
  let after := body { shell with command := some name }
  { after with
    command := shell.command
    flow := if after.flow = .aborts && !isSpecial then .next else after.flow }

/-- Run a command by its name. Functions come before programs, unless they are to be passed
over. -/
def call (level : Level) : Nat → Bool → String → List String → Shell → Shell
  | 0, _, _, _, shell => shell.hang
  | budget + 1, isDirect, name, args, shell =>
    let isSpecial := Grammar.specials.contains name
    let own := withCommand (isDirect && isSpecial) name
    match name, args with
    | "eval", args =>
      own (fun shell => level.evaluate (" ".intercalate args) { shell with status := 0 }) shell
    | ".", args => own (fun shell => shell.source level args) shell
    | "exec", [] => { shell with status := 0 }
    | "exec", name :: args =>
      let after := own (fun shell => external level shell (args.length + 1) name args) shell
      { after with flow := if after.flow = .hangs then .hangs else .exits, farewell := none }
    | name, args =>
      match shell.functions.lookup name, isDirect && !isSpecial with
      | some body, true => callFunction level body args shell
      | _, _ =>
        match name, args with
        | "command", "-v" :: names => shell.locate names
        | "command", "-V" :: names => shell.describe names
        | "command", "-p" :: name :: args | "command", name :: args =>
          call level budget false name args shell
        | "command", [] => { shell with status := 0 }
        | name, args =>
          match { shell with command := some name }.builtin? name args with
          | some after => own (fun _ => after) shell
          | none => external level shell (args.length + 1) name args

/-- Tell what is being run, if that is wanted. -/
def trace (level : Level) (settings : List (String × Word)) (fields : List String)
    (shell : Shell) : Shell :=
  if !shell.switches.isTraced then shell
  else
    let setting (entry : String × Word) : String :=
      entry.1 ++ "=" ++ ((Expansion.text level entry.2).run shell).1
    let sign := (shell.get? "PS4").getD ""
    shell.complain (sign ++ " ".intercalate (settings.map setting ++ fields))

/-- Run a simple command. Variables that are set in front of it keep their values afterwards only
if there is no command, or one that belongs to the language itself. -/
def simple (level : Level) (line : Nat) (settings : List (String × Word)) (words : List Word)
    (arrows : List Redirection) (shell : Shell) : Shell :=
  let (fields, shell) :=
    (Expansion.commandFields level words).run { shell with line, captured := none }
  if shell.flow ≠ .next then shell
  else
    let shell := shell.trace level settings fields
    match fields with
    | [] =>
      let shell := withArrows level arrows (fun shell => { shell with status := 0 }) shell
      if shell.flow ≠ .next || shell.status ≠ 0 && !arrows.isEmpty then shell.checked
      else
        let ((), shell) := (settle level settings).run shell
        if shell.flow ≠ .next then shell
        else { shell with status := shell.captured.getD 0 }.checked
    | name :: args =>
      let isSpecial := Grammar.specials.contains name
      let inside (shell : Shell) : Shell :=
        let before := settings.map fun (name, _) => (name, shell.get? name)
        let ((), settled) := (settle level settings).run shell
        if settled.flow ≠ .next then settled
        else
          let passed := settings.map Prod.fst ++ settled.exported
          let after := call level (args.length + 2) true name args
            { settled with exported := passed }
          if isSpecial then after
          else { before.foldl reassign after with exported := shell.exported }
      if name = "exec" && args.isEmpty then
        let opened := shell.redirectAll level arrows
        if opened.flow = .next then { opened with status := 0 } else opened
      else if isSpecial && (shell.redirectAll level arrows).flow = .aborts then
        restoreChannels arrows shell (shell.redirectAll level arrows)
      else (withArrows level arrows inside shell).checked

/-- Run the body of a loop as long as its test says. The budget bounds the number of rounds. -/
def iterate (level : Level) (ends : Bool) (test body : Script) : Nat → Nat → Shell → Shell
  | 0, _, shell => shell.hang
  | budget + 1, status, shell =>
    let tested := level.run test { shell with isTested := true }
    let tested := { tested with isTested := shell.isTested }
    match tested.flow with
    | .next =>
      if (tested.status = 0) = ends then { tested with status }
      else
        let after := level.run body tested
        match after.flow with
        | .next | .repeats 0 | .repeats 1 =>
          iterate level ends test body budget after.status { after with flow := .next }
        | .repeats (levels + 1) => { after with flow := .repeats levels }
        | .leaves 0 | .leaves 1 => { after with flow := .next }
        | .leaves (levels + 1) => { after with flow := .leaves levels }
        | _ => after
    | .leaves 0 | .leaves 1 => { tested with flow := .next }
    | .leaves (levels + 1) => { tested with flow := .leaves levels }
    | .repeats 0 | .repeats 1 =>
      iterate level ends test body budget status { tested with flow := .next }
    | .repeats (levels + 1) => { tested with flow := .repeats levels }
    | _ => tested

/-- Run a script once for each of several values of a variable. -/
def forEach (level : Level) (name : String) (body : Script) : List String → Shell → Shell
  | [], shell => shell
  | value :: values, shell =>
    let after := level.run body (shell.assign name value)
    match after.flow with
    | .next | .repeats 0 | .repeats 1 =>
      forEach level name body values { after with flow := .next }
    | .repeats (levels + 1) => { after with flow := .repeats levels }
    | .leaves 0 | .leaves 1 => { after with flow := .next }
    | .leaves (levels + 1) => { after with flow := .leaves levels }
    | _ => after

/-- Run the first alternative with a pattern that matches. -/
def choose (level : Level) (subject : String) :
    List (List Word × Script) → Shell → Shell
  | [], shell => { shell with status := 0 }
  | (patterns, body) :: arms, shell =>
    let (isMatch, shell) := (patterns.anyM fun pattern => do
      return (Glyph.pattern (← Expansion.word level pattern)).isMatch subject.toList).run shell
    if isMatch then
      match body with
      | .nothing => { shell with status := 0 }
      | body => level.run body shell
    else choose level subject arms shell

/-- Run two scripts, the second one on the output of the first. They run at the same time. -/
def pipe (level : Level) (first second : Script) (shell : Shell) : Shell :=
  let left := level.conclude (level.run first shell.collecting)
  let start := { shell.inner with files := left.files, captures := left.captures.tail }
  let right := level.conclude (level.run second (start.withInput left.output))
  let hangs := left.flow = .hangs || right.flow = .hangs
  { (shell.resume right).withInput left.input with
    milliseconds := later left.completed right.milliseconds
    flow := if hangs then .hangs else .next }

/-- The channels that a script in the background has. -/
def channelsOf (level : Level) (shell : Shell) : Script → List (Nat × Sink)
  | .simple _ _ _ arrows | .redirected _ _ arrows => (shell.redirectAll level arrows).channels
  | _ => shell.channels

/-- A time that is never reached. -/
def never : Nat := 1000000000000000

/-- Run a script in the background. It begins a moment later than the script goes on. -/
def launch (level : Level) (body : Script) (shell : Shell) : Shell :=
  let start := { shell.inner.withInput [] with milliseconds := shell.milliseconds + 1 }
  let after := level.conclude (level.run body start)
  let finish := if after.flow = .hangs then never else after.milliseconds
  let held := (channelsOf level shell body).map fun (_, sink) => (sink, finish)
  { shell.resume after with
    sources := shell.sources
    status := 0
    flow := .next
    milliseconds := shell.milliseconds
    jobs := ⟨shell.jobs.length + 2, after.status, finish⟩ :: shell.jobs
    holders := held ++ after.holders }

/-- Run a script while its failure is being tested. -/
def probe (level : Level) (script : Script) (shell : Shell) : Shell :=
  { level.run script { shell with isTested := true } with isTested := shell.isTested }

/-- The largest number of rounds of a loop. -/
def maxRounds : Nat := 4000

/-- Run a script, unless an earlier command has ended it. -/
def step (level : Level) (script : Script) (shell : Shell) : Shell :=
  if shell.flow ≠ .next then shell
  else match script with
    | .nothing => shell
    | .simple line settings words arrows => shell.simple level line settings words arrows
    | .sequence first second => level.run second (level.run first shell)
    | .andThen first second =>
      let shell := shell.probe level first
      if shell.flow = .next && shell.status = 0 then level.run second shell else shell
    | .orElse first second =>
      let shell := shell.probe level first
      if shell.flow = .next && shell.status ≠ 0 then level.run second shell else shell
    | .negation body =>
      let shell := shell.probe level body
      if shell.flow = .next then { shell with status := if shell.status = 0 then 1 else 0 }
      else shell
    | .pipe first second => (shell.pipe level first second).checked
    | .background body => shell.launch level body
    | .condition test yes no =>
      let shell := shell.probe level test
      if shell.flow ≠ .next then shell
      else if shell.status = 0 then level.run yes shell
      else match no with
        | .nothing => { shell with status := 0 }
        | no => level.run no shell
    | .loop ends test body =>
      let after := iterate level ends test body maxRounds 0 { shell with loops := shell.loops + 1 }
      { after with loops := shell.loops }
    | .forEach line name words body =>
      let shell := { shell with line }
      let (values, shell) := match words with
        | some words => (Expansion.fields level words).run shell
        | none => (shell.params, shell)
      if shell.flow ≠ .next then shell
      else
        let status := if values.isEmpty then 0 else shell.status
        let after := forEach level name body values
          { shell with loops := shell.loops + 1, status }
        { after with loops := shell.loops }
    | .choice line subject arms =>
      let (text, shell) := (Expansion.text level subject).run { shell with line }
      if shell.flow ≠ .next then shell else shell.choose level text arms
    | .apart line body =>
      let shell := { shell with line }
      (shell.resume (level.conclude (level.run body shell.inner))).checked
    | .function name body =>
      { shell with functions := (name, body) :: shell.functions, status := 0 }
    | .redirected line body arrows =>
      ({ shell with line }.withArrows level arrows (level.run body)).checked

end Shell

/-- Levels of nesting. -/
def levels : Nat → Level
  | 0 => ⟨fun _ shell => shell.hang, fun _ => do modify Shell.hang; return []⟩
  | depth + 1 => ⟨fun script shell => shell.step (levels depth) script,
      Expansion.word (levels depth)⟩

/-- Run a program with arguments and an empty input among files, which it may change. -/
def run (files : Files) (program : String) (args : List String) : Outcome × Files :=
  let shell := Shell.start files .off "sh" []
  let after := shell.external (levels 1000) (args.length + 1) program args
  let changed := { after.files with workingDirectory := files.workingDirectory }
  if after.flow = .hangs then (.failed 124 [], changed)
  else
    let milliseconds := Shell.later after.completed (after.heldUntil .errors)
    let outcome := { Outcome.printed after.output with status := after.status, milliseconds }
    (outcome, changed)

end Qalam.Command
