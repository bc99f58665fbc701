/-
# Which source of names an invocation selects

The options of an invocation replace the settings of the configuration one by one, and a command
comes before a dictionary wherever the two come from. So a naming command of the invocation is
always heard. A dictionary of the invocation replaces the one of the configuration, and is used
unless the configuration has a command.
-/

import Qalam.Invocation
import Qalam.Proofs.Layout.Concatenation

namespace Qalam

namespace Invocation

/-! ## The naming command among the arguments -/

theorem setVerbose?_namerCommand {draft result : Draft} (set : setVerbose? draft = some result) :
    result.namerCommand = draft.namerCommand := by
  unfold setVerbose? at set
  split at set
  · cases set
  · cases set
    rfl

theorem setFile?_namerCommand {draft result : Draft} {arg : String}
    (set : setFile? draft arg = some result) : result.namerCommand = draft.namerCommand := by
  obtain ⟨path, -, set⟩ := Option.bind_eq_some_iff.mp set
  obtain ⟨file, -, set⟩ := Option.bind_eq_some_iff.mp set
  cases set
  rfl

theorem setFiles?_namerCommand {draft result : Draft} {args : List String}
    (set : setFiles? draft args = some result) : result.namerCommand = draft.namerCommand := by
  induction args generalizing draft with
  | nil =>
      cases set
      rfl
  | cons arg args ih =>
      obtain ⟨next, first, others⟩ := Option.bind_eq_some_iff.mp set
      rw [ih others, setFile?_namerCommand first]

theorem setTimings?_namerCommand {draft result : Draft} {format : TimingsFormat}
    (set : setTimings? draft format = some result) :
    result.namerCommand = draft.namerCommand := by
  obtain ⟨timings, -, set⟩ := Option.bind_eq_some_iff.mp set
  cases set
  rfl

theorem setOption?_namerCommand {draft result : Draft} {name value : String}
    (set : setOption? draft name value = some result) :
    result.namerCommand = draft.namerCommand := by
  unfold setOption? at set
  repeat' split at set
  all_goals
    first
    | obtain ⟨read, -, set⟩ := Option.bind_eq_some_iff.mp set
      obtain ⟨filled, -, set⟩ := Option.bind_eq_some_iff.mp set
      cases set
      rfl
    | cases set

theorem appendCommand_namerCommand (draft : Draft) {words : List String} (spoken : words ≠ []) :
    (appendCommand draft words).namerCommand ≠ some [] := by
  simp [appendCommand, spoken]

/-- A naming command that was read has at least one word. -/
theorem compileArgs_namerCommand {draft result : Draft} {args : List String}
    (read : compileArgs draft args = some result) (nonempty : draft.namerCommand ≠ some []) :
    result.namerCommand ≠ some [] := by
  fun_induction compileArgs draft args with
  | case1 | case3 =>
      cases read
      exact nonempty
  | case2 draft arg rest verbose ih =>
      obtain ⟨next, set, read⟩ := Option.bind_eq_some_iff.mp read
      exact ih next read (setVerbose?_namerCommand set ▸ nonempty)
  | case4 => exact setFiles?_namerCommand read ▸ nonempty
  | case5 draft arg rest _ _ _ _ ih =>
      obtain ⟨next, set, read⟩ := Option.bind_eq_some_iff.mp read
      exact ih next read (setFile?_namerCommand set ▸ nonempty)
  | case6 draft arg rest _ _ _ _ _ ih =>
      obtain ⟨next, set, read⟩ := Option.bind_eq_some_iff.mp read
      exact ih next read (setTimings?_namerCommand set ▸ nonempty)
  | case7 draft arg rest _ _ _ _ format _ ih =>
      obtain ⟨format, -, read⟩ := Option.bind_eq_some_iff.mp read
      obtain ⟨next, set, read⟩ := Option.bind_eq_some_iff.mp read
      exact ih next read (setTimings?_namerCommand set ▸ nonempty)
  | case8 | case12 | case13 => cases read
  | case9 draft arg rest _ _ _ _ _ words =>
      cases read
      exact appendCommand_namerCommand draft (by simpa using words)
  | case10 draft arg rest _ _ _ _ word _ ih =>
      exact ih read (appendCommand_namerCommand draft (by simp))
  | case11 draft arg rest _ _ _ _ name value _ _ _ ih =>
      obtain ⟨next, set, read⟩ := Option.bind_eq_some_iff.mp read
      exact ih next read (setOption?_namerCommand set ▸ nonempty)
  | case14 draft arg _ _ _ _ name _ _ _ value rest _ ih =>
      obtain ⟨next, set, read⟩ := Option.bind_eq_some_iff.mp read
      exact ih next read (setOption?_namerCommand set ▸ nonempty)

/-- A compilation is asked for by the arguments behind its word. -/
theorem exists_draft_of_ofArgs? {verbose : Bool} {args : List String} {request : CompileRequest}
    (asked : ofArgs? verbose args = some (.compile request)) :
    ∃ rest draft, compileArgs .empty rest = some draft ∧
      compileOf? draft = some (.compile request) := by
  fun_induction ofArgs? verbose args with
  | case3 _ _ _ _ _ ih => exact ih asked
  | case7 _ rest =>
      obtain ⟨draft, read, asked⟩ := Option.bind_eq_some_iff.mp asked
      exact ⟨rest, draft, read, asked⟩
  | case8 =>
      -- a check is never a compilation
      obtain ⟨draft, -, asked⟩ := Option.bind_eq_some_iff.mp asked
      unfold checkOf? at asked
      split at asked
      · cases asked
      · simp at asked
  | _ => cases asked

/-- An invocation with a naming command names a program. -/
theorem namerCommand_of_ofArgs? {verbose : Bool} {args : List String} {request : CompileRequest}
    (asked : ofArgs? verbose args = some (.compile request)) :
    request.namerCommand ≠ some [] := by
  obtain ⟨rest, draft, read, made⟩ := exists_draft_of_ofArgs? asked
  have nonempty := compileArgs_namerCommand read (by simp [Draft.empty])
  unfold compileOf? at made
  split at made
  · cases made
  · obtain ⟨file, -, made⟩ := Option.map_eq_some_iff.mp made
    cases made
    exact nonempty

end Invocation

namespace CompileRequest

variable {request : CompileRequest} {host : Host} {config : Config}

/-! ## The selected source -/

/-- What a request leaves behind when its compilation has come to this. -/
def outcome (request : CompileRequest) (timings : Timings) : Except CompileError String → Outcome
  | .ok output =>
    .success (trimLineFeeds output ++ "\n")
      ((request.timings.map fun format => timings.text format ++ "\n").getD "")
  | .error error => .failure error request.file

/-- JavaScript for the file of a request, with the names of a source. The source is looked for
once the file is bound. -/
def javaScript (request : CompileRequest) (host : Host) (indent : Nat)
    (source : Except CompileError NameSource) : Except CompileError String := do
  let bound ← checkFile host.files request.file
  let names ← source
  return bound.program.generate (names.oracle host.runner) indent

/-- JavaScript is written with the names of the source that is selected in the end. -/
theorem output_javaScript (js : request.emit = .js)
    (loaded : request.baseConfig host.files = .ok config) :
    request.output host = request.javaScript host config.indent
      ((request.override config).naming.source host.files) := by
  have indent : (request.override config).indent = config.indent := rfl
  rw [output, loaded]
  change compileFile host request.file request.emit (request.override config) = _
  simp only [compileFile, compileSource, js, javaScript, checkFile, analyzeSource, bind_assoc,
    indent]

/-- A command as a source of names. -/
def commandSource (words : List String) (timeoutMs : Nat) : Except CompileError NameSource :=
  match words with
  | [] => .error (.config .emptyCommand)
  | program :: args => .ok (.command program args timeoutMs)

/-- A command is selected whatever dictionary there is. -/
theorem source_override_of_command {words : List String}
    (command : (request.namerCommand <|> config.naming.command) = some words) :
    (request.override config).naming.source host.files =
      commandSource words (request.namerTimeoutMs.getD config.naming.timeoutMs) := by
  have selected : (request.override config).naming.command = some words := command
  simp only [NamingConfig.source, selected]
  cases words <;> rfl

/-- Without a command the dictionary of a request is selected. -/
theorem source_override_of_names {path : String} (names : request.names = some path)
    (silent : request.namerCommand = none) (quiet : config.naming.command = none) :
    (request.override config).naming.source host.files =
      NameSource.dictionary <$> Dictionary.load host.files path := by
  have command : (request.override config).naming.command = none := by
    simp [override, silent, quiet]
  have dictionary : (request.override config).naming.dictionary = some path := by
    simp [override, names]
  simp only [NamingConfig.source, command, dictionary]
  rfl

theorem javaScript_ok {bound : BoundProgram}
    (checked : checkFile host.files request.file = .ok bound) (indent : Nat)
    (names : NameSource) :
    request.javaScript host indent (.ok names) =
      .ok (bound.program.generate (names.oracle host.runner) indent) := by
  rw [javaScript, checked]
  rfl

theorem javaScript_error {bound : BoundProgram}
    (checked : checkFile host.files request.file = .ok bound) (indent : Nat)
    (error : CompileError) :
    request.javaScript host indent (.error error) = .error error := by
  rw [javaScript, checked]
  rfl

/-- The request of a command line is carried out. -/
theorem runCommandLine_outcome {args : List String} (timings : Timings)
    (asked : Invocation.ofArgs? false args = some (.compile request)) :
    runCommandLine host timings args = request.outcome timings (request.output host) := by
  rw [runCommandLine, asked]
  change (match request.output host with
    | .ok output => _
    | .error error => _) = _
  cases request.output host <;> rfl

/-- Which names stand in the JavaScript of a command line. With a dictionary and no command there
they are those of the dictionary, unless the configuration has a command; which other dictionary or
which time limit it has is of no account. A command of the configuration is heard if there is none
on the command line, where one always names a program and is heard in any case. -/
theorem runCommandLine_selects {args : List String} (timings : Timings)
    (asked : Invocation.ofArgs? false args = some (.compile request))
    (loaded : request.baseConfig host.files = .ok config) (js : request.emit = .js) :
    let written source := request.outcome timings (request.javaScript host config.indent source)
    let timeoutMs := request.namerTimeoutMs.getD config.naming.timeoutMs
    (∀ path, request.names = some path → request.namerCommand = none →
      config.naming.command = none →
        runCommandLine host timings args =
          written (NameSource.dictionary <$> Dictionary.load host.files path)) ∧
    (∀ words, request.namerCommand = none → config.naming.command = some words →
      runCommandLine host timings args = written (commandSource words timeoutMs)) ∧
    ∀ words, request.namerCommand = some words → ∃ program rest, words = program :: rest ∧
      runCommandLine host timings args = written (.ok (.command program rest timeoutMs)) := by
  intro written timeoutMs
  have ran : runCommandLine host timings args =
      written ((request.override config).naming.source host.files) := by
    rw [runCommandLine_outcome timings asked, output_javaScript js loaded]
  refine ⟨fun path names silent quiet => ?_, fun words silent command => ?_,
    fun words command => ?_⟩
  · rw [ran, source_override_of_names names silent quiet]
  · have heard : (request.namerCommand <|> config.naming.command) = some words := by
      simp [silent, command]
    rw [ran, source_override_of_command heard]
  · have heard : (request.namerCommand <|> config.naming.command) = some words := by
      simp [command]
    cases words with
    | nil => exact absurd command (Invocation.namerCommand_of_ofArgs? asked)
    | cons program rest =>
        refine ⟨program, rest, rfl, ?_⟩
        rw [ran, source_override_of_command heard]
        rfl

/-! ## A dictionary that is used, and one that is not -/

theorem ok_of_toOption {ε α : Type} {outcome : Except ε α} {value : α}
    (got : outcome.toOption = some value) : outcome = .ok value := by
  cases outcome with
  | error error => cases got
  | ok other =>
      cases got
      rfl

theorem checkFile_ok {files : Files} {path source : String} {program : Program}
    {bound : BoundProgram} (read : files.source path = .ok source)
    (parsed : parseSource source = .ok program) (binds : program.bind = .ok bound) :
    checkFile files path = .ok bound := by
  rw [checkFile, read]
  change analyzeSource source = _
  rw [analyzeSource, parsed]
  change program.bind.mapError CompileError.semantic = _
  rw [binds]
  rfl

/-- A runner whose programs print their arguments on one line. -/
def echoing : Naming.Runner where
  Memory := Unit
  initial := ()
  run _ _ args _ := (some ⟨true, Text.toUtf8 (" ".intercalate args ++ "\n")⟩, ())

/-- A working directory with a script, a dictionary and a configuration. -/
def desk (config : String) : Host where
  files := {
    entries := [(["a.as"], .file (Text.toUtf8 "دع x = ١؛")),
      (["names.toml"], .file (Text.toUtf8 "[names]\nx = \"number\"\n")),
      (["arabscript.toml"], .file (Text.toUtf8 config))]
    workingDirectory := [] }
  runner := echoing

/-- The request for a compilation of the script with a dictionary. -/
def deskRequest (names : String) : CompileRequest :=
  ⟨"a.as", .js, some names, none, none, none, none⟩

/-- The tokens of the script. -/
def deskTokens : List Token :=
  [⟨.keyword .letKw, ⟨1, 1⟩⟩, ⟨.ident "x", ⟨1, 4⟩⟩, ⟨.symbol .eq, ⟨1, 6⟩⟩, ⟨.int 1, ⟨1, 8⟩⟩,
    ⟨.symbol .semi, ⟨1, 9⟩⟩, ⟨.eof, ⟨1, 10⟩⟩]

theorem desk_checked (names : String) {files : Files}
    (read : files.source "a.as" = .ok "دع x = ١؛") :
    ∃ bound, checkFile files (deskRequest names).file = .ok bound ∧
      bound.program.generate (.dictionary [("x", "number")]) 2 = "let number = 1;" := by
  have lexed : tokenize "دع x = ١؛" = .ok deskTokens := by cbv
  exact ⟨_, checkFile_ok read (parseSource_ok.mpr ⟨_, lexed, rfl⟩) rfl, by decide +kernel⟩

/-- A configuration with another dictionary, which is not there, and hardly any time. -/
def otherDictionary : String := "[naming]\ndictionary = \"other.toml\"\ntimeout_ms = 1\n"

theorem runCommandLine_selects_dictionary :
    runCommandLine (desk otherDictionary) .zero ["compile", "a.as", "--names", "names.toml"] =
      .success "let number = 1;\n" "" := by
  have asked : Invocation.ofArgs? false ["compile", "a.as", "--names", "names.toml"] =
      some (.compile (deskRequest "names.toml")) := by decide +kernel
  have loaded : (deskRequest "names.toml").baseConfig (desk otherDictionary).files =
      .ok ⟨⟨some "/other.toml", none, 1⟩, 2⟩ := ok_of_toOption (by decide +kernel)
  have names : Dictionary.load (desk otherDictionary).files "names.toml" = .ok [("x", "number")] :=
    ok_of_toOption (by decide +kernel)
  have read : (desk otherDictionary).files.source "a.as" = .ok "دع x = ١؛" :=
    ok_of_toOption (by decide +kernel)
  -- From here on it does not matter what else the files hold.
  generalize desk otherDictionary = host at loaded names read ⊢
  obtain ⟨bound, checked, text⟩ := desk_checked "names.toml" read
  rw [(runCommandLine_selects .zero asked loaded rfl).1 "names.toml" rfl rfl rfl, names]
  change outcome _ _ (javaScript _ _ 2 (.ok (.dictionary [("x", "number")]))) = _
  rw [javaScript_ok checked]
  change outcome _ _ (.ok (bound.program.generate (.dictionary [("x", "number")]) 2)) = _
  rw [text]
  decide +kernel

/-- A configuration with a command. -/
def echoCommand : String := "[naming]\ncommand = [\"echo\", \"total\"]\n"

/-- A dictionary on the command line is not even opened if the configuration has a command. -/
theorem names_unheard_with_command :
    ¬ ∀ (host : Host) (timings : Timings) (args : List String) (request : CompileRequest)
      (config : Config) (path : String),
      Invocation.ofArgs? false args = some (.compile request) →
      request.baseConfig host.files = .ok config → request.emit = .js →
      request.names = some path → request.namerCommand = none →
        runCommandLine host timings args = request.outcome timings
          (request.javaScript host config.indent
            (NameSource.dictionary <$> Dictionary.load host.files path)) := by
  intro always
  have asked : Invocation.ofArgs? false ["compile", "a.as", "--names", "missing.toml"] =
      some (.compile (deskRequest "missing.toml")) := by decide +kernel
  have loaded : (deskRequest "missing.toml").baseConfig (desk echoCommand).files =
      .ok ⟨⟨none, some ["echo", "total"], 2000⟩, 2⟩ := ok_of_toOption (by decide +kernel)
  have read : (desk echoCommand).files.source "a.as" = .ok "دع x = ١؛" :=
    ok_of_toOption (by decide +kernel)
  have unloaded : (Dictionary.load (desk echoCommand).files "missing.toml").toOption = none := by
    decide +kernel
  -- From here on it does not matter what else the files hold.
  generalize desk echoCommand = host at loaded read unloaded
  obtain ⟨bound, checked, -⟩ := desk_checked "missing.toml" read
  have claimed := always _ .zero _ _ _ _ asked loaded rfl rfl rfl
  rw [runCommandLine_outcome .zero asked, output_javaScript rfl loaded,
    source_override_of_command rfl] at claimed
  change outcome _ _ (javaScript _ _ 2 (.ok (.command "echo" ["total"] 2000))) = _ at claimed
  rw [javaScript_ok checked] at claimed
  -- The run succeeds, while the dictionary cannot be loaded.
  cases dictionary : Dictionary.load host.files "missing.toml" with
  | ok entries =>
      rw [dictionary] at unloaded
      cases unloaded
  | error error =>
      rw [dictionary] at claimed
      change _ = outcome _ _ (javaScript _ _ 2 (.error error)) at claimed
      rw [javaScript_error checked] at claimed
      have exits := congrArg Outcome.exit claimed
      simp [outcome, Outcome.success, Outcome.failure] at exits

end CompileRequest

end Qalam
