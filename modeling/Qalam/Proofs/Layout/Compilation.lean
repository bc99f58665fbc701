/-
# Layout does not matter

Two texts with the same kinds of tokens are compiled in the same way. Their tokens differ in
positions only, and no two tokens of a text stand at the same position, so there is a way to move
the positions of the first text to those of the second. Reading and analysis move along with the
positions, and no output shows them. Only the places of errors differ.
-/

import Qalam.Proofs.Layout.Concatenation
import Qalam.Proofs.Layout.Drawing
import Qalam.Proofs.Layout.Keys
import Qalam.Proofs.Relabelling.Binding
import Qalam.Proofs.Relabelling.Naming

namespace Qalam

open Relabel

/-! ## Outcomes without places -/

/-- The error without its place in the source. -/
def CompileError.unplaced : CompileError → CompileError
  | syntactic error => .syntactic ⟨error.fault, .start⟩
  | semantic error => .semantic ⟨error.fault, .start⟩
  | unreadable path reason => .unreadable path reason
  | config fault => .config fault

theorem CompileError.message_unplaced (error : CompileError) :
    error.unplaced.message = error.message := by
  cases error <;> rfl

/-- A reason not to compile a text, relabelled. -/
def Relabel.compileError (change : Relabel) : CompileError → CompileError
  | .syntactic error => .syntactic (change.syntaxError error)
  | .semantic error => .semantic (change.semanticError error)
  | error => error

theorem CompileError.unplaced_relocate (move : Position → Position) (error : CompileError) :
    ((relocate move).compileError error).unplaced = error.unplaced := by
  cases error with
  | semantic error =>
      show CompileError.semantic ⟨(relocate move).fault error.fault, .start⟩ = _
      rw [fault_of_name rfl rfl]
      rfl
  | _ => rfl

/-- Two compilations end in the same way: with the same output, or with errors of the same kind and
the same message, which differ in their places at most. -/
inductive SameOutcome : Except CompileError String → Except CompileError String → Prop
  | output (text : String) : SameOutcome (.ok text) (.ok text)
  | refusal {error error' : CompileError} (kind : error.unplaced = error'.unplaced)
      (message : error.message = error'.message) : SameOutcome (.error error) (.error error')

namespace SameOutcome

theorem refl : ∀ outcome, SameOutcome outcome outcome
  | .ok text => .output text
  | .error _ => .refusal rfl rfl

theorem of_unplaced {error error' : CompileError} (kind : error.unplaced = error'.unplaced) :
    SameOutcome (.error error) (.error error') := by
  have message := congrArg CompileError.message kind
  rw [CompileError.message_unplaced, CompileError.message_unplaced] at message
  exact .refusal kind message

/-- What is done with a bound program ends in the same way if it does not see positions. -/
theorem of_bind {move : Position → Position} {first second : Except SemanticError BoundProgram}
    {finish : BoundProgram → Except CompileError String}
    (moved : second = (first.map (relocate move).boundProgram).mapError
      (relocate move).semanticError)
    (same : ∀ bound, finish ((relocate move).boundProgram bound) = finish bound) :
    SameOutcome (first.mapError .semantic >>= finish) (second.mapError .semantic >>= finish) := by
  subst moved
  cases first with
  | error error => exact of_unplaced (CompileError.unplaced_relocate move (.semantic error)).symm
  | ok bound =>
      show SameOutcome (finish bound) (finish ((relocate move).boundProgram bound))
      rw [same]
      exact refl _

end SameOutcome

/-! ## Moving one text to another -/

/-- Names are asked for without positions, so a moved program is written as it was. -/
theorem Program.generate_relocate (move : Position → Position) (program : Program)
    (oracle : Naming.Oracle) (indent : Nat) :
    ((relocate move).program program).generate oracle indent =
      program.generate oracle indent := by
  have echoes : ∀ request : Naming.Renaming oracle String,
      Naming.Echoes Eq id request request := by
    intro request
    constructor
    rintro table _ rfl
    exact ⟨rfl, rfl⟩
  have answers : Naming.Answers (Eq : Naming.Table oracle → _) (relocate move)
      (strip.program program).names :=
    ⟨fun _ => rfl, fun _ _ _ => echoes _, fun _ => echoes _⟩
  exact Program.generate_relabel answers rfl (Program.namedIn_names _) indent

/-- Tokens of the same kinds differ by a change of positions, if the first stand at different
ones. -/
theorem exists_relocate {tokens tokens' : List Token}
    (kinds : tokens.map Token.kind = tokens'.map Token.kind)
    (distinct : (tokens.map Token.pos).Nodup) :
    ∃ move, tokens' = tokens.map (relocate move).token := by
  induction tokens generalizing tokens' with
  | nil => exact ⟨id, (List.map_eq_nil_iff.mp kinds.symm)⟩
  | cons token others ih =>
      cases tokens' with
      | nil => cases kinds
      | cons token' others' =>
          obtain ⟨kind, kinds⟩ := List.cons.inj kinds
          obtain ⟨fresh, distinct⟩ := List.nodup_cons.mp distinct
          obtain ⟨move, rfl⟩ := ih kinds distinct
          -- The first token gets its own target, which no other token can share with it.
          refine ⟨fun pos => if pos = token.pos then token'.pos else move pos, ?_⟩
          rw [List.map_cons]
          congr 1
          · show token' = ⟨token.kind, if token.pos = token.pos then token'.pos else _⟩
            rw [if_pos rfl, kind]
          · apply List.map_congr_left
            intro other mem
            have different : other.pos ≠ token.pos := by
              intro same
              exact fresh (same ▸ List.mem_map_of_mem mem)
            show (⟨_, _⟩ : Token) = ⟨_, if other.pos = token.pos then _ else _⟩
            rw [if_neg different]
            rfl

/-- One text is read as another one, with positions moved and with nothing else changed that an
analysis can see. -/
structure Moves (move : Position → Position) (source source' : String) : Prop where
  read : parseSource source' =
    ((parseSource source).map (relocate move).program).mapError (relocate move).compileError
  bound : ∀ program, parseSource source = .ok program → ((relocate move).program program).bind =
    (program.bind.map (relocate move).boundProgram).mapError (relocate move).semanticError

/-- A text whose tokens are those of another one at moved positions is read like it. -/
theorem moves_of_tokenize {move : Position → Position} {source source' : String}
    {tokens : List Token} (lexed : tokenize source = .ok tokens)
    (lexed' : tokenize source' = .ok (tokens.map (relocate move).token)) :
    Moves move source source' := by
  obtain ⟨body, last, rfl, ends, -⟩ := Scan.tokensFrom_ends lexed
  have fits : (relocate move).Fits (body ++ [last]) := .inr ⟨last, by simp, ends⟩
  have moved := Program.ofTokens_relabel (plain_relocate move) fits
  constructor
  · rw [parseSource, parseSource, lexed, lexed']
    show (Program.ofTokens _).mapError _ = (((Program.ofTokens _).mapError _).map _).mapError _
    rw [moved]
    cases Program.ofTokens (body ++ [last]) <;> rfl
  · intro program parsed
    obtain ⟨_, lexed₂, read⟩ := parseSource_ok.mp parsed
    cases lexed.symm.trans lexed₂
    exact Program.bind_relabel (separates_of_name _ rfl)
      (Program.suits_of_ofTokens lexed lexed' read)

/-- Texts with tokens of the same kinds are read alike. -/
theorem exists_moves {source source' : String} {tokens tokens' : List Token}
    (lexed : tokenize source = .ok tokens) (lexed' : tokenize source' = .ok tokens')
    (kinds : tokens.map Token.kind = tokens'.map Token.kind) :
    ∃ move, Moves move source source' := by
  obtain ⟨move, rfl⟩ := exists_relocate kinds (nodup_of_tokenize lexed)
  exact ⟨move, moves_of_tokenize lexed lexed'⟩

/-- What is done with a program that was read ends in the same way, if it does for the program that
was moved. -/
theorem Moves.outcome {move : Position → Position} {source source' : String}
    (moves : Moves move source source') {finish : Program → Except CompileError String}
    (same : ∀ program, parseSource source = .ok program →
      SameOutcome (finish program) (finish ((relocate move).program program))) :
    SameOutcome (parseSource source >>= finish) (parseSource source' >>= finish) := by
  rw [moves.read]
  cases parsed : parseSource source with
  | error error => exact .of_unplaced (CompileError.unplaced_relocate move error).symm
  | ok program => exact same program parsed

/-! ## Compilation -/

/-- Texts whose tokens are of the same kinds are compiled with the same outcome, whatever is to be
written and wherever names come from. -/
theorem compileSource_of_kinds {source source' : String} {tokens tokens' : List Token}
    (lexed : tokenize source = .ok tokens) (lexed' : tokenize source' = .ok tokens')
    (kinds : tokens.map Token.kind = tokens'.map Token.kind) :
    (∀ host mode config, SameOutcome (compileSource host source mode config)
      (compileSource host source' mode config)) ∧
    ∀ oracle indent, SameOutcome
      ((analyzeSource source).map fun bound => bound.program.generate oracle indent)
      ((analyzeSource source').map fun bound => bound.program.generate oracle indent) := by
  obtain ⟨move, moves⟩ := exists_moves lexed lexed' kinds
  constructor
  · intro host mode config
    apply moves.outcome
    intro program parsed
    cases mode with
    | ast =>
        show SameOutcome (.ok program.drawing) (.ok ((relocate move).program program).drawing)
        rw [Program.drawing_relocate]
        exact .refl _
    | analyzed =>
        apply SameOutcome.of_bind (moves.bound program parsed)
        intro bound
        rw [BoundProgram.drawing_relocate]
    | js =>
        apply SameOutcome.of_bind (moves.bound program parsed)
        intro bound
        simp only [boundProgram, Program.generate_relocate]
  · intro oracle indent
    show SameOutcome (_ <$> (parseSource source >>= _)) (_ <$> (parseSource source' >>= _))
    rw [map_bind, map_bind]
    apply moves.outcome
    intro program parsed
    rw [map_eq_pure_bind, map_eq_pure_bind]
    apply SameOutcome.of_bind (moves.bound program parsed)
    intro bound
    simp only [boundProgram, Program.generate_relocate]

/-- The tokens of an object whose two keys have to be computed, on one line. -/
def keysTokens : List Token :=
  [⟨.symbol .lbrace, ⟨1, 1⟩⟩, ⟨.int 1, ⟨1, 2⟩⟩, ⟨.symbol .plus, ⟨1, 3⟩⟩, ⟨.int 2, ⟨1, 4⟩⟩,
    ⟨.symbol .colon, ⟨1, 5⟩⟩, ⟨.int 3, ⟨1, 6⟩⟩, ⟨.symbol .comma, ⟨1, 7⟩⟩, ⟨.int 1, ⟨1, 8⟩⟩,
    ⟨.symbol .plus, ⟨1, 9⟩⟩, ⟨.int 2, ⟨1, 10⟩⟩, ⟨.symbol .colon, ⟨1, 11⟩⟩, ⟨.int 4, ⟨1, 12⟩⟩,
    ⟨.symbol .rbrace, ⟨1, 13⟩⟩, ⟨.symbol .semi, ⟨1, 14⟩⟩, ⟨.eof, ⟨1, 15⟩⟩]

/-- The same with each entry on a line of its own. -/
def keysTokensBelow : List Token :=
  [⟨.symbol .lbrace, ⟨1, 1⟩⟩, ⟨.int 1, ⟨2, 1⟩⟩, ⟨.symbol .plus, ⟨2, 3⟩⟩, ⟨.int 2, ⟨2, 5⟩⟩,
    ⟨.symbol .colon, ⟨2, 6⟩⟩, ⟨.int 3, ⟨2, 7⟩⟩, ⟨.symbol .comma, ⟨2, 8⟩⟩, ⟨.int 1, ⟨3, 1⟩⟩,
    ⟨.symbol .plus, ⟨3, 2⟩⟩, ⟨.int 2, ⟨3, 3⟩⟩, ⟨.symbol .colon, ⟨3, 4⟩⟩, ⟨.int 4, ⟨3, 5⟩⟩,
    ⟨.symbol .rbrace, ⟨3, 6⟩⟩, ⟨.symbol .semi, ⟨3, 7⟩⟩, ⟨.eof, ⟨3, 8⟩⟩]

/-- Keys that look the same are told apart by their positions, in one layout as in the other. -/
theorem compileSource_of_kinds_keys :
    let source := "\x7b1+2:3،1+2:4\x7d؛"
    let source' := "\x7b\n1 + 2:3،\n1+2:4\x7d؛"
    (∀ oracle indent, SameOutcome
      ((analyzeSource source).map fun bound => bound.program.generate oracle indent)
      ((analyzeSource source').map fun bound => bound.program.generate oracle indent)) ∧
    ∀ host config, ∃ text, compileSource host source .analyzed config = .ok text ∧
      compileSource host source' .analyzed config = .ok text := by
  intro source source'
  have lexed : tokenize "\x7b1+2:3،1+2:4\x7d؛" = .ok keysTokens := by cbv
  have lexed' : tokenize "\x7b\n1 + 2:3،\n1+2:4\x7d؛" = .ok keysTokensBelow := by cbv
  obtain ⟨same, sameText⟩ := compileSource_of_kinds lexed lexed' rfl
  refine ⟨sameText, ?_⟩
  intro host config
  have made : ∃ text, compileSource host source .analyzed config = .ok text := by
    rw [compileSource, parseSource, lexed]
    exact ⟨_, rfl⟩
  obtain ⟨text, made⟩ := made
  have here := same host .analyzed config
  rw [made] at here
  generalize compileSource host source' .analyzed config = outcome at here
  cases here
  exact ⟨text, made, rfl⟩

end Qalam
