/-
# The program

Looks at the files that a command line names, runs the command on what was found, and passes on
its two streams and its exit code. Everything that is decided is decided by the library.
-/

import Qalam.CommandLine

namespace Qalam

/-- Add what lies at a path to a tree of files. A path that leads through a file leaves that file
in the tree. -/
def Files.fetch (files : Files) (path : String) : IO Files := do
  match ← (IO.FS.readBinFile path).toBaseIO with
  | .ok octets => return files.write path (.file octets.toList)
  | .error (.inappropriateType _ code _) =>
    if code = 21 then return files.write path .directory
    else return files.write ((Path.parent? path).getD path) (.file [])
  | .error _ => return files

/-- The tree of files that an invocation can see. -/
def Invocation.fetch (invocation : Invocation) : IO Files := do
  let directory := (← IO.currentDir).toString
  let outside : Files := ⟨[], (Files.parts directory).filter (· ≠ "")⟩
  let files ← invocation.inputs.foldlM Files.fetch outside
  match invocation.dictionary? files with
  | some path => files.fetch path
  | none => return files

/-- Carry out a piece of work and tell how many nanoseconds it took. -/
def measure {α : Type} (work : Unit → α) : IO (α × Nat) := do
  let start ← IO.monoNanosNow
  let result ← IO.lazyPure work
  let stop ← IO.monoNanosNow
  return (result, stop - start)

/-- How long each stage takes on a source text. -/
def measureStages (source : String) : IO Timings := do
  let (tokens, lexer) ← measure fun _ => tokenize source
  let (program, parser) ← measure fun _ => tokens >>= Program.ofTokens
  match program with
  | .error _ => return ⟨lexer, parser, 0, 0⟩
  | .ok program =>
    let (bound, analyzer) ← measure fun _ => program.bind
    match bound with
    | .error _ => return ⟨lexer, parser, analyzer, 0⟩
    | .ok bound =>
      let (_, generator) ← measure fun _ => bound.program.generate .silent Config.default.indent
      return ⟨lexer, parser, analyzer, generator⟩

/-- How long each stage of an invocation takes, if its report is asked for. -/
def Invocation.measure (files : Files) : Invocation → IO Timings
  | .compile request =>
    match request.timings, files.readText request.file with
    | some _, .ok source => measureStages source
    | _, _ => return .zero
  | .check _ | .help => return .zero

/-- What a command line leaves behind in the real world. -/
def outcomeOf (args : List String) : IO Outcome := do
  match Invocation.ofArgs? false args with
  | some invocation =>
    let files ← invocation.fetch
    let timings ← invocation.measure files
    return invocation.run files.host timings
  | none => return .usage

end Qalam

def main (args : List String) : IO UInt32 := do
  let outcome ← Qalam.outcomeOf args
  IO.print outcome.stdout
  IO.eprint outcome.stderr
  return outcome.exit.toUInt32
