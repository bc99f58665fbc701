/-
# Compilation

The way of a program from its text to one of three outputs: the drawing of its tree, the drawing
of its bound tree, or JavaScript. Each stage can refuse the program, and the first refusal is
the answer. The source of names is looked for only when names are needed.
-/

import Qalam.Analysis.Statement
import Qalam.Config
import Qalam.Files
import Qalam.JavaScript.Statement
import Qalam.Naming.Rename
import Qalam.Naming.Runner
import Qalam.Parse.Statement
import Qalam.Token.Stream
import Qalam.Tree.Drawing

namespace Qalam

/-- The causes for which a configuration is refused. -/
inductive ConfigFault
  | malformed (path : Option String)
  | emptyCommand
  deriving DecidableEq

/-- The message of a fault. -/
def ConfigFault.message : ConfigFault → String
  | malformed (some path) => path ++ ": not a valid document"
  | malformed none => "not a valid document"
  | emptyCommand => "namer command is empty"

/-- The reasons why a compilation has no output. -/
inductive CompileError
  | unreadable (path : String) (reason : ReadFault)
  | syntactic (error : SyntaxError)
  | semantic (error : SemanticError)
  | config (fault : ConfigFault)
  deriving DecidableEq

namespace CompileError

/-- The message of an error. -/
def message : CompileError → String
  | unreadable path reason => "failed to read " ++ path ++ ": " ++ reason.text
  | syntactic error => "syntax error: " ++ error.fault.message
  | semantic error => "semantic error: " ++ error.fault.message
  | config fault => "invalid configuration: " ++ fault.message

/-- The place of an error in the source, if it has one. -/
def pos? : CompileError → Option Position
  | syntactic error => some error.pos
  | semantic error => some error.pos
  | unreadable .. | config .. => none

/-- The message with the place in a file. -/
def render (error : CompileError) (filename : String) : String :=
  match error.pos? with
  | some pos => "error: " ++ error.message ++ "\n  --> " ++ filename ++ ":" ++ pos.text
  | none => "error: " ++ error.message

end CompileError

/-- What a compilation writes. -/
inductive OutputMode
  | ast
  | analyzed
  | js
  deriving DecidableEq

/-- The tree of a source text. -/
def parseSource (source : String) : Except CompileError Program := do
  let tokens ← (tokenize source).mapError .syntactic
  (Program.ofTokens tokens).mapError .syntactic

/-- The bound tree of a source text. -/
def analyzeSource (source : String) : Except CompileError BoundProgram := do
  let program ← parseSource source
  program.bind.mapError .semantic

/-- JavaScript for a program, with names from an oracle. -/
def Program.generate (program : Program) (oracle : Naming.Oracle) (indent : Nat) : String :=
  (program.rename oracle).javaScript indent

/-- Read a text from a file. -/
def Files.source (files : Files) (path : String) : Except CompileError String :=
  (files.readText path).mapError (.unreadable path)

/-- Read a dictionary from a file. -/
def Dictionary.load (files : Files) (path : String) : Except CompileError Dictionary := do
  let text ← files.source path
  match Dictionary.ofToml? text with
  | some dictionary => return dictionary
  | none => throw (.config (.malformed (some path)))

/-- Where the names of a compilation come from. -/
inductive NameSource
  | nowhere
  | dictionary (entries : Dictionary)
  | command (program : String) (args : List String) (timeoutMs : Nat)
  deriving DecidableEq

/-- The proposals of a source of names. -/
def NameSource.oracle (runner : Naming.Runner) : NameSource → Naming.Oracle
  | nowhere => .silent
  | dictionary entries => .dictionary entries
  | command program args timeoutMs => runner.oracle program args timeoutMs

/-- The source of names that a configuration selects. A command comes before a dictionary. -/
def NamingConfig.source (config : NamingConfig) (files : Files) :
    Except CompileError NameSource := do
  match config.command, config.dictionary with
  | some [], _ => throw (.config .emptyCommand)
  | some (program :: args), _ => return .command program args config.timeoutMs
  | none, some path =>
    let entries ← Dictionary.load files path
    return .dictionary entries
  | none, none => return .nowhere

/-- What a compilation finds around it: files to read, and a way to run programs. -/
structure Host where
  files : Files
  runner : Naming.Runner

/-- An empty directory without any program. -/
def Host.empty : Host := ⟨⟨[], []⟩, .idle⟩

/-- Compile a source text. -/
def compileSource (host : Host) (source : String) (mode : OutputMode) (config : Config) :
    Except CompileError String := do
  let program ← parseSource source
  match mode with
  | .ast => return program.drawing
  | .analyzed =>
    let bound ← program.bind.mapError .semantic
    return bound.drawing
  | .js =>
    let bound ← program.bind.mapError .semantic
    let names ← config.naming.source host.files
    return bound.program.generate (names.oracle host.runner) config.indent

/-- Compile a file. -/
def compileFile (host : Host) (path : String) (mode : OutputMode) (config : Config) :
    Except CompileError String := do
  let source ← host.files.source path
  compileSource host source mode config

/-- Bind a file without writing anything. -/
def checkFile (files : Files) (path : String) : Except CompileError BoundProgram := do
  let source ← files.source path
  analyzeSource source

/-- Read a configuration from a document. -/
def Config.parse (text : String) : Except CompileError Config :=
  match Config.ofToml? text with
  | some config => return config
  | none => throw (.config (.malformed none))

/-- Read a configuration from a file. A dictionary is looked for in the directory of that
file. -/
def Config.load (files : Files) (path : String) : Except CompileError Config := do
  let text ← files.source path
  match Config.ofToml? text with
  | none => throw (.config (.malformed (some path)))
  | some config =>
    match config.naming.dictionary, Path.parent? path with
    | some dictionary, some directory =>
      let dictionary := some (Path.join directory dictionary)
      return { config with naming := { config.naming with dictionary } }
    | _, _ => return config

/-- The name of the file that holds the configuration of a directory. -/
def configFileName : String := "arabscript.toml"

/-- Read the configuration of a directory. Without a file the defaults apply. -/
def Config.discover (files : Files) (directory : String) : Except CompileError Config :=
  let path := Path.join directory configFileName
  if files.isFile path then Config.load files path else return .default

end Qalam
