/-
# Invocations

Two commands: one compiles a file and prints the result, the other only checks it. Arguments are
read from left to right. An option takes its value from the same argument, after an equals sign,
or from the next one; the naming command takes all arguments that follow it. An option given
twice, an unknown one or a missing value is an error of usage, for which nothing is done.
-/

import Qalam.Compiler
import Qalam.Timings

namespace Qalam

/-- What is asked of a compilation. -/
structure CompileRequest where
  file : String
  emit : OutputMode
  names : Option String
  namerCommand : Option (List String)
  namerTimeoutMs : Option Nat
  config : Option String
  timings : Option TimingsFormat
  deriving DecidableEq

/-- What a command line asks for. -/
inductive Invocation
  | compile (request : CompileRequest)
  | check (file : String)
  | help
  deriving DecidableEq

namespace Invocation

/-- Arguments read so far. -/
structure Draft where
  file : Option String
  verbose : Bool
  emit : Option OutputMode
  names : Option String
  namerCommand : Option (List String)
  namerTimeoutMs : Option Nat
  config : Option String
  timings : Option TimingsFormat
  help : Bool

/-- Nothing read yet. -/
def Draft.empty : Draft := ⟨none, false, none, none, none, none, none, none, false⟩

/-- Divide an argument at its first equals sign. -/
def splitEquals (arg : String) : String × Option String :=
  let chars := arg.toList
  match chars.dropWhile (· ≠ '=') with
  | [] => (arg, none)
  | _ :: value => (String.ofList (chars.takeWhile (· ≠ '=')), some (String.ofList value))

/-- Whether an argument can only be an option. A single hyphen is a value. -/
def looksLikeOption (arg : String) : Bool :=
  match arg.toList with
  | '-' :: _ :: _ => true
  | _ => false

/-- A mode of output by its name. -/
def modeOf? (text : String) : Option OutputMode :=
  if text = "ast" then some .ast
  else if text = "analyzed" then some .analyzed
  else if text = "js" then some .js
  else none

/-- A format of timings by its name. -/
def formatOf? (text : String) : Option TimingsFormat :=
  if text = "human" then some .human
  else if text = "json" then some .json
  else none

/-- A number of 64 bits, with or without a plus sign. -/
def numberOf? (text : String) : Option Nat :=
  let digits := match text.toList with
    | '+' :: digits => digits
    | digits => digits
  if digits.isEmpty || digits.any (fun c => c < '0' || '9' < c) then none
  else
    let value := digits.foldl (fun value c => 10 * value + (c.toNat - 0x30)) 0
    if value < 18446744073709551616 then some value else none

/-- A path, which must not be empty. -/
def pathOf? (text : String) : Option String := if text.isEmpty then none else some text

/-- Fill a place that must be vacant. -/
def fill? {α : Type} : Option α → α → Option (Option α)
  | none, value => some (some value)
  | some _, _ => none

/-- Record the value of an option. -/
def setOption? (draft : Draft) (name value : String) : Option Draft := do
  if name = "--emit" then
    let emit ← fill? draft.emit (← modeOf? value)
    return { draft with emit }
  else if name = "--names" then
    let names ← fill? draft.names (← pathOf? value)
    return { draft with names }
  else if name = "--config" then
    let config ← fill? draft.config (← pathOf? value)
    return { draft with config }
  else if name = "--namer-timeout-ms" then
    let namerTimeoutMs ← fill? draft.namerTimeoutMs (← numberOf? value)
    return { draft with namerTimeoutMs }
  else none

/-- Record a file name. -/
def setFile? (draft : Draft) (arg : String) : Option Draft := do
  let file ← fill? draft.file (← pathOf? arg)
  return { draft with file }

/-- Record file names. -/
def setFiles? (draft : Draft) (args : List String) : Option Draft :=
  args.foldlM setFile? draft

/-- Record the request for a log. -/
def setVerbose? (draft : Draft) : Option Draft :=
  if draft.verbose then none else some { draft with verbose := true }

/-- Whether an argument asks for a log. -/
def isVerbose (arg : String) : Bool := arg = "-v" || arg = "--verbose"

/-- Whether an argument asks for help. -/
def isHelp (arg : String) : Bool := arg = "-h" || arg = "--help"

/-- Record the naming command. -/
def appendCommand (draft : Draft) (words : List String) : Draft :=
  { draft with namerCommand := some (draft.namerCommand.getD [] ++ words) }

/-- Record the format of timings. -/
def setTimings? (draft : Draft) (format : TimingsFormat) : Option Draft := do
  let timings ← fill? draft.timings format
  return { draft with timings }

/-- Read the arguments of a compilation. -/
def compileArgs (draft : Draft) : List String → Option Draft
  | [] => some draft
  | arg :: rest =>
    if isVerbose arg then do
      let draft ← setVerbose? draft
      compileArgs draft rest
    else if isHelp arg then some { draft with help := true }
    else if arg = "--" then setFiles? draft rest
    else if !looksLikeOption arg then do
      let draft ← setFile? draft arg
      compileArgs draft rest
    else
      match splitEquals arg with
      | ("--timings", none) => do
        let draft ← setTimings? draft .human
        compileArgs draft rest
      | ("--timings", some value) => do
        let draft ← setTimings? draft (← formatOf? value)
        compileArgs draft rest
      | ("--namer-command", none) =>
        if rest.isEmpty then none else some (appendCommand draft rest)
      | ("--namer-command", some value) => compileArgs (appendCommand draft [value]) rest
      | (name, some value) => do
        let draft ← setOption? draft name value
        compileArgs draft rest
      | (name, none) =>
        match rest with
        | [] => none
        | value :: rest =>
          if looksLikeOption value then none
          else do
            let draft ← setOption? draft name value
            compileArgs draft rest

/-- Read the arguments of a check. -/
def checkArgs (draft : Draft) : List String → Option Draft
  | [] => some draft
  | arg :: rest =>
    if isVerbose arg then do
      let draft ← setVerbose? draft
      checkArgs draft rest
    else if isHelp arg then some { draft with help := true }
    else if arg = "--" then setFiles? draft rest
    else if looksLikeOption arg then none
    else do
      let draft ← setFile? draft arg
      checkArgs draft rest

/-- The request for a compilation that the arguments describe. -/
def compileOf? (draft : Draft) : Option Invocation :=
  if draft.help then some .help
  else draft.file.map fun file => .compile {
    file
    emit := draft.emit.getD .js
    names := draft.names
    namerCommand := draft.namerCommand
    namerTimeoutMs := draft.namerTimeoutMs
    config := draft.config
    timings := draft.timings }

/-- The request for a check that the arguments describe. -/
def checkOf? (draft : Draft) : Option Invocation :=
  if draft.help then some .help else draft.file.map .check

/-- Whether help can be given on what the arguments name: a command, or everything. -/
def isTopic : List String → Bool
  | [] => true
  | [command] => command = "compile" || command = "check" || command = "help"
  | _ => false

/-- Read a command line. -/
def ofArgs? (verbose : Bool) : List String → Option Invocation
  | [] => none
  | arg :: rest =>
    if isVerbose arg then if verbose then none else ofArgs? true rest
    else if isHelp arg then some .help
    else if arg = "help" then if isTopic rest then some .help else none
    else if arg = "compile" then (compileArgs .empty rest).bind compileOf?
    else if arg = "check" then (checkArgs .empty rest).bind checkOf?
    else none

end Invocation

/-- What a run leaves behind: an exit code and the two streams it wrote. -/
structure Outcome where
  exit : Nat
  stdout : String
  stderr : String
  deriving DecidableEq

namespace Outcome

/-- A successful run. -/
def success (stdout stderr : String) : Outcome := ⟨0, stdout, stderr⟩

/-- A run that ended with an error in a file. -/
def failure (error : CompileError) (file : String) : Outcome :=
  ⟨1, "", error.render file ++ "\n"⟩

/-- A run that did not begin because of an error of usage. -/
def usage : Outcome := ⟨2, "", ""⟩

end Outcome

/-- The configuration of a request before its options are applied. -/
def CompileRequest.baseConfig (request : CompileRequest) (files : Files) :
    Except CompileError Config :=
  match request.config with
  | some path => Config.load files path
  | none => Config.discover files files.workingPath

/-- Apply the options of a request to a configuration, one by one. -/
def CompileRequest.override (request : CompileRequest) (config : Config) : Config :=
  { config with
    naming := {
      dictionary := request.names <|> config.naming.dictionary
      command := request.namerCommand <|> config.naming.command
      timeoutMs := request.namerTimeoutMs.getD config.naming.timeoutMs } }

/-- A text without the line feeds at its end. -/
def trimLineFeeds (text : String) : String :=
  String.ofList (text.toList.reverse.dropWhile (· = '\n')).reverse

/-- The output of a request. -/
def CompileRequest.output (request : CompileRequest) (host : Host) :
    Except CompileError String := do
  let config ← request.baseConfig host.files
  compileFile host request.file request.emit (request.override config)

/-- Carry out a request. The timings are those of the run itself. -/
def Invocation.run (host : Host) (timings : Timings) : Invocation → Outcome
  | .compile request =>
    match request.output host with
    | .ok output =>
      let report := (request.timings.map fun format => timings.text format ++ "\n").getD ""
      .success (trimLineFeeds output ++ "\n") report
    | .error error => .failure error request.file
  | .check file =>
    match checkFile host.files file with
    | .ok _ => .success "Analysis passed.\n" ""
    | .error error => .failure error file
  | .help => .success "" ""

/-- The files that an invocation names or looks for by itself. -/
def Invocation.inputs : Invocation → List String
  | .compile request => [request.file, request.config.getD configFileName]
  | .check file => [file]
  | .help => []

/-- The dictionary that an invocation leads to once its configuration can be read. -/
def Invocation.dictionary? (files : Files) : Invocation → Option String
  | .compile request =>
    match request.baseConfig files with
    | .ok config => (request.override config).naming.dictionary
    | .error _ => none
  | .check _ | .help => none

/-- Run a command line. -/
def runCommandLine (host : Host) (timings : Timings) (args : List String) : Outcome :=
  match Invocation.ofArgs? false args with
  | some invocation => invocation.run host timings
  | none => .usage

end Qalam
