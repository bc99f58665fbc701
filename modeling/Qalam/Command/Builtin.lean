/-
# Commands that belong to a shell

Some commands change the shell that runs them: they set variables, parameters and switches, leave
loops and functions, or end the script. Those that also run other commands are not among them.
An error in one of them stops the script; the caller decides whether that counts.
-/

import Qalam.Command.Glyph
import Qalam.Command.Grammar
import Qalam.Command.Programs
import Qalam.Command.Shell

namespace Qalam.Command

namespace Switches

/-- The letter of a switch with a long name. -/
def letter? (name : String) : Option Char :=
  [("errexit", 'e'), ("nounset", 'u'), ("noexec", 'n'), ("noglob", 'f'), ("xtrace", 'x'),
    ("verbose", 'v'), ("allexport", 'a'), ("notify", 'b'), ("noclobber", 'C'), ("monitor", 'm'),
    ("interactive", 'i'), ("ignoreeof", 'I'), ("stdin", 's')].lookup name

/-- Arguments of which some have been taken: the switches they have set, those that are left,
whether these are parameters, and whether a script is to follow or to be read from the input. -/
structure Taken where
  switches : Switches
  rest : List String
  isReset : Bool
  hasScript : Bool
  fromInput : Bool

/-- Take the letters of an argument. A long name stands in the argument behind it. Only the program
knows letters that say where the script is. -/
def takeLetters (isProgram on : Bool) : List Char → Taken → Except String Taken
  | [], taken => .ok taken
  | letter :: letters, taken =>
    if isProgram && letter = 'c' then
      takeLetters isProgram on letters { taken with hasScript := true }
    else if isProgram && letter = 'l' then takeLetters isProgram on letters taken
    else if letter = 'o' then
      match taken.rest with
      | [] => takeLetters isProgram on letters taken
      | name :: rest =>
        match (letter? name).bind (turn on taken.switches) with
        | some switches => takeLetters isProgram on letters { taken with switches, rest }
        | none => .error ("Illegal option -o " ++ name)
    else match turn on taken.switches letter with
      | some switches =>
        let fromInput := if letter = 's' then on else taken.fromInput
        takeLetters isProgram on letters { taken with switches, fromInput }
      | none => .error (String.ofList ("Illegal option -".toList ++ [letter]))

/-- Take switches from the front of arguments. The budget is more than their number. -/
def takeAll (isProgram : Bool) : Nat → Taken → Except String Taken
  | 0, taken => .ok taken
  | budget + 1, taken =>
    match taken.rest with
    | [] => .ok taken
    | arg :: rest =>
      match arg.toList with
      | ['-'] =>
        let shown := taken.switches.letters.filter fun letter => letter ≠ 'x' && letter ≠ 'v'
        let switches := if isProgram then taken.switches else ⟨shown⟩
        .ok { taken with switches, rest, isReset := !rest.isEmpty }
      | ['-', '-'] => .ok { taken with rest, isReset := true }
      | '-' :: letters => do
        takeAll isProgram budget (← takeLetters isProgram true letters { taken with rest })
      | '+' :: letters => do
        takeAll isProgram budget (← takeLetters isProgram false letters { taken with rest })
      | _ => .ok { taken with isReset := true }

/-- Take switches from arguments. -/
def take (isProgram : Bool) (switches : Switches) (args : List String) : Except String Taken :=
  takeAll isProgram (args.length + 1) ⟨switches, args, false, false, false⟩

end Switches

namespace Shell

/-- Stop because an argument is no number. -/
def abortNumber (shell : Shell) (text : String) : Shell :=
  shell.abort ("Illegal number: " ++ text)

/-- Stop because an argument is no name. -/
def abortName (shell : Shell) (text : String) : Shell :=
  shell.abort (text ++ ": bad variable name")

/-- End with a status, which is given by its digits. -/
def withStatus (shell : Shell) (flow : Flow) : List String → Shell
  | [] => { shell with flow }
  | text :: _ =>
    match number? text with
    | some status => { shell with status := status % 256, flow }
    | none => shell.abortNumber text

/-- Leave loops. Outside of loops nothing happens. -/
def leave (shell : Shell) (flow : Nat → Flow) (args : List String) : Shell :=
  match (args.head?.map number?).getD (some 1) with
  | some 0 | none => shell.abortNumber (args.head?.getD "")
  | some levels =>
    let left := if levels < shell.loops then levels else shell.loops
    if shell.loops = 0 then { shell with status := 0 }
    else { shell with status := 0, flow := flow left }

/-- Drop parameters from the front. -/
def shift (shell : Shell) (args : List String) : Shell :=
  match (args.head?.map number?).getD (some 1) with
  | some count =>
    if shell.params.length < count then shell.abort "can't shift that many"
    else { shell with params := shell.params.drop count, status := 0 }
  | none => shell.abortNumber (args.head?.getD "")

/-- Set switches and parameters. -/
def setParams (shell : Shell) (args : List String) : Shell :=
  match shell.switches.take false args with
  | .ok taken =>
    { shell with
      switches := taken.switches
      params := if taken.isReset then taken.rest else shell.params
      status := 0 }
  | .error reason => shell.abort reason

/-- A name and, behind an equals sign, its value. -/
def splitSetting (arg : String) : String × Option String :=
  let name := arg.toList.takeWhile (· ≠ '=')
  match arg.toList.drop name.length with
  | _ :: value => (String.ofList name, some (String.ofList value))
  | [] => (arg, none)

/-- Give values to the variables of arguments, and change each of them further. -/
def declare (shell : Shell) (change : Shell → String → Shell) (args : List String) : Shell :=
  let one (shell : Shell) (arg : String) : Shell :=
    let (name, value) := splitSetting arg
    if shell.flow ≠ .next then shell
    else if !Grammar.isName name then shell.abortName name
    else
      let shell := match value with
        | some value => shell.assign name value
        | none => shell
      change shell name
  let isOption (arg : String) : Bool := arg.toList.head? = some '-'
  (args.dropWhile isOption).foldl one { shell with status := 0 }

/-- Pass variables on to programs. -/
def export_ (shell : Shell) (args : List String) : Shell :=
  shell.declare (fun shell name => { shell with exported := name :: shell.exported }) args

/-- Make variables constant. -/
def fix (shell : Shell) (args : List String) : Shell :=
  shell.declare (fun shell name => { shell with constants := name :: shell.constants }) args

/-- Give a function variables of its own. -/
def hide (shell : Shell) (args : List String) : Shell :=
  match shell.hidden with
  | none => shell.abort "not in a function"
  | some _ =>
    let one (shell : Shell) (arg : String) : Shell :=
      let (name, value) := splitSetting arg
      let hidden := (shell.hidden.getD []) ++ [(name, shell.get? name)]
      let shell := { shell with hidden := some hidden }
      match value with
      | some value => shell.assign name value
      | none => shell
    args.foldl one { shell with status := 0 }

/-- Forget variables or functions. -/
def forget (shell : Shell) : List String → Shell
  | "-f" :: names =>
    { shell with
      functions := shell.functions.filter fun (name, _) => !names.contains name
      status := 0 }
  | "-v" :: names | names =>
    let one (shell : Shell) (name : String) : Shell :=
      if shell.flow ≠ .next then shell
      else if Grammar.isName name then shell.unassign name
      else shell.abortName name
    names.foldl one { shell with status := 0 }

/-- Names of signals, and of the end of the script. -/
def signals : List String :=
  ["EXIT", "HUP", "INT", "QUIT", "ILL", "TRAP", "ABRT", "BUS", "FPE", "KILL", "USR1", "SEGV",
    "USR2", "PIPE", "ALRM", "TERM", "CHLD", "CONT", "STOP", "TSTP", "TTIN", "TTOU"]

/-- Remember what to do at the end. -/
def promise (shell : Shell) : List String → Shell
  | [] => { shell with status := 0 }
  | action :: names =>
    let isSignal (name : String) : Bool :=
      signals.contains name || (number? name).any (· < 65)
    let (action, names) :=
      if names.isEmpty || (number? action).isSome then (none, action :: names)
      else (if action = "-" then none else some action, names)
    match names.find? fun name => !isSignal name with
    | some name => { shell.complain ("trap: " ++ name ++ ": bad trap") with status := 1 }
    | none =>
      if names.contains "EXIT" || names.contains "0" then
        { shell with farewell := action, status := 0 }
      else { shell with status := 0 }

/-- Split a line from a text: its characters, of which some are protected by a backslash, what
follows it, and whether it has an end. A protected line end is none. -/
def splitLine (raw : Bool) : List Char → Field × List Char × Bool
  | [] => ([], [], false)
  | '\n' :: rest => ([], rest, true)
  | '\\' :: '\n' :: rest =>
    if raw then ([('\\', false)], rest, true) else splitLine raw rest
  | '\\' :: c :: rest =>
    let (line, behind, ended) := splitLine raw rest
    if raw then (('\\', false) :: (c, false) :: line, behind, ended)
    else ((c, true) :: line, behind, ended)
  | ['\\'] => (if raw then [('\\', false)] else [], [], false)
  | c :: rest =>
    let (line, behind, ended) := splitLine raw rest
    ((c, false) :: line, behind, ended)

/-- Cut a line into a number of parts. The last one is the only field that is left, or all that is
left. -/
def parts (dividers : List Char) : Nat → Field → List String
  | 0, _ => []
  | count + 1, line =>
    let isDivider (entry : Char × Bool) : Bool := !entry.2 && dividers.contains entry.1
    let isBlank (entry : Char × Bool) : Bool := isDivider entry && isSpace entry.1
    let line := line.dropWhile isBlank
    if count = 0 then
      match Fields.ofGlyphs dividers (line.map fun (c, quoted) => .char c quoted true) with
      | [] => [""]
      | [only] => [Field.text only]
      | _ => [Field.text (line.reverse.dropWhile isBlank).reverse]
    else
      let first := line.takeWhile fun entry => !isDivider entry
      let rest := (line.drop first.length).dropWhile isBlank
      let rest := match rest with
        | entry :: others => if isDivider entry then others else rest
        | [] => []
      Field.text first :: parts dividers count rest

/-- Read a line of the input into variables. -/
def readLine (shell : Shell) (args : List String) : Shell :=
  let raw := args.head? = some "-r"
  let names := if raw then args.tail else args
  let (line, rest, ended) := splitLine raw shell.input
  let values := parts shell.dividers names.length line
  let store (shell : Shell) (name value : String) : Shell :=
    if shell.flow ≠ .next then shell
    else if Grammar.isName name then shell.assign name value
    else shell.abortName name
  if names.isEmpty then shell.abort "arg count"
  else
    let shell := { shell.withInput rest with status := if ended then 0 else 1 }
    (names.zip values).foldl (fun shell (name, value) => store shell name value) shell

/-- What an option is in a list of options: unknown, without a value, or with one. -/
def optionKind (options : List Char) (c : Char) : Option Bool :=
  if c = ':' then none
  else match options.dropWhile (· ≠ c) with
    | _ :: ':' :: _ => some true
    | _ :: _ => some false
    | [] => none

/-- Take the next option from arguments. -/
def nextOption (shell : Shell) (options name : String) (args : List String) : Shell :=
  let index := (((shell.get? "OPTIND").bind number?).getD 1)
  let arg := ((args[index - 1]?).getD "").toList
  let offset := if shell.optionOffset = 0 then 1 else shell.optionOffset
  let finish (index : Nat) : Shell :=
    { (shell.assign name "?").assign "OPTIND" (toString index) with
      status := 1, optionOffset := 0 }
  match arg, (arg.drop offset).head? with
  | ['-', '-'], _ => finish (index + 1)
  | '-' :: _, some c =>
    let silent := options.toList.head? = some ':'
    let rest := arg.drop (offset + 1)
    let step (index offset : Nat) (result : String) (value : Option String) : Shell :=
      let shell := (shell.assign name result).assign "OPTIND" (toString index)
      let shell := match value with
        | some value => shell.assign "OPTARG" value
        | none => shell.unassign "OPTARG"
      { shell with status := 0, optionOffset := offset }
    let behind := if rest.isEmpty then (index + 1, 0) else (index, offset + 1)
    let letter := String.ofList [c]
    match optionKind options.toList c with
    | none =>
      let shell := step behind.1 behind.2 "?" (if silent then some letter else none)
      if silent then shell else shell.complain ("Illegal option -" ++ letter)
    | some false => step behind.1 behind.2 letter none
    | some true =>
      if !rest.isEmpty then step (index + 1) 0 letter (some (String.ofList rest))
      else match args[index]? with
        | some value => step (index + 2) 0 letter (some value)
        | none =>
          if silent then step (index + 1) 0 ":" (some letter)
          else (step (index + 1) 0 "?" none).complain ("No arg for -" ++ letter ++ " option")
  | _, _ => finish index

/-- Further commands that every shell has. -/
def regulars : List String :=
  ["[", "alias", "bg", "cd", "command", "echo", "false", "fg", "getopts", "hash", "jobs", "kill",
    "printf", "pwd", "read", "test", "true", "type", "ulimit", "umask", "unalias",
    "wait"]

/-- How a command would be found. -/
def describe? (shell : Shell) (name : String) : Option String :=
  if Grammar.keywords.contains name then some (name ++ " is a shell keyword")
  else if Grammar.specials.contains name then some (name ++ " is a special shell builtin")
  else if (shell.functions.lookup name).isSome then some (name ++ " is a shell function")
  else if regulars.contains name then some (name ++ " is a shell builtin")
  else if programs.contains name then some (name ++ " is /usr/bin/" ++ name)
  else none

/-- Tell how commands would be found. -/
def describe (shell : Shell) (names : List String) : Shell :=
  let one (shell : Shell) (name : String) : Shell :=
    match shell.describe? name with
    | some text => shell.print (lined text.toList)
    | none => { shell.print (lined (name ++ ": not found").toList) with status := 127 }
  names.foldl one { shell with status := 0 }

/-- Print the name of a command that could be run. -/
def locate (shell : Shell) (names : List String) : Shell :=
  let one (shell : Shell) (name : String) : Shell :=
    if Grammar.keywords.contains name || Grammar.specials.contains name ||
        (shell.functions.lookup name).isSome || regulars.contains name then
      shell.print (lined name.toList)
    else if programs.contains name then shell.print (lined ("/usr/bin/" ++ name).toList)
    else { shell with status := 127 }
  names.foldl one { shell with status := 0 }

/-- Go to another directory. -/
def goTo (shell : Shell) (args : List String) : Shell :=
  match args.filter fun arg => arg ≠ "-P" && arg ≠ "-L" && arg ≠ "--" with
  | [] => { shell with status := 0 }
  | path :: _ =>
    if shell.kind? path = some .directory then
      let place := shell.files.placeOf (spelled path)
      { shell with files := { shell.files with workingDirectory := place }, status := 0 }
    else shell.abort ("can't cd to " ++ path)

/-- Wait for scripts in the background, for all of them or for those with given numbers. -/
def await (shell : Shell) (args : List String) : Shell :=
  let one (shell : Shell) (arg : String) : Shell :=
    match number? arg with
    | none => if shell.flow = .next then shell.abortNumber arg else shell
    | some number =>
      match shell.jobs.find? fun job => job.number = number with
      | some job =>
        { shell with
          status := job.status, milliseconds := later shell.milliseconds job.finish }
      | none => { shell with status := 127 }
  if args.isEmpty then
    let finish := (shell.jobs.map Job.finish).foldl later shell.milliseconds
    { shell with status := 0, milliseconds := finish }
  else args.foldl one shell

/-- Send a signal to a command. -/
def send (shell : Shell) : List String → Shell
  | "-0" :: _ => { shell with status := 0 }
  | [] =>
    shell.abort ("Usage: kill [-s sigspec | -signum | -sigspec] [pid | job]... or\n" ++
      "kill -l [exitstatus]")
  | arg :: _ => shell.abortNumber arg

/-- Run a command of the shell that runs no other one. -/
def builtin? (shell : Shell) (name : String) (args : List String) : Option Shell :=
  let quiet : Option Shell := some { shell with status := 0 }
  match name with
  | ":" | "true" | "hash" | "times" | "jobs" => quiet
  | "alias" | "unalias" =>
    match args.find? fun arg => !arg.contains '=' with
    | some arg => some { shell.complain (name ++ ": " ++ arg ++ " not found") with status := 1 }
    | none => quiet
  | "wait" => some (shell.await args)
  | "false" => some { shell with status := 1 }
  | "echo" => some (shell.absorbOwn (shellEcho args))
  | "printf" => some (shell.absorbOwn (printf false args))
  | "test" => some (shell.absorbOwn (test shell.kind? args))
  | "[" => some (shell.absorbOwn (bracket shell.kind? args))
  | "exit" => some (shell.withStatus .exits args)
  | "return" => some (shell.withStatus (if shell.hidden.isSome then .returns else .exits) args)
  | "break" => some (shell.leave .leaves args)
  | "continue" => some (shell.leave .repeats args)
  | "shift" => some (shell.shift args)
  | "set" => some (shell.setParams args)
  | "export" => some (shell.export_ args)
  | "readonly" => some (shell.fix args)
  | "local" => some (shell.hide args)
  | "unset" => some (shell.forget args)
  | "trap" => some (shell.promise args)
  | "read" => some (shell.readLine args)
  | "type" => some (shell.describe args)
  | "pwd" => some ({ shell with status := 0 }.print (lined (seen shell.files.workingPath).toList))
  | "umask" =>
    let text := if args = ["-S"] then "u=rwx,g=rx,o=rx" else "0022"
    some ({ shell with status := 0 }.print (lined text.toList))
  | "cd" => some (shell.goTo args)
  | "getopts" =>
    match args with
    | [options, name] => some (shell.nextOption options name shell.params)
    | options :: name :: args => some (shell.nextOption options name args)
    | _ => some (shell.abort "Usage: getopts optstring var [arg...]")
  | "ulimit" => some ({ shell with status := 0 }.print "unlimited\n".toList)
  | "kill" => some (shell.send args)
  | "bg" | "fg" => some { shell with status := 1 }
  | _ => none

end Shell

end Qalam.Command
