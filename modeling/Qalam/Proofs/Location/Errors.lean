/-
# Errors point into the source

An error of form or of meaning is reported where a token of the source begins. That no other
position can be reported follows from how reading and analysis treat positions: they hand them on
and compare none but those of computed keys. If all positions but those of the tokens are moved, the
tokens stay the same, so the error does, and the position that it names is one that did not move.
The first position of a text, which stands in for a missing end of the token list, is no exception:
the tokens of a text always have their end among them.

Where the text cannot be cut into tokens at all, the error is reported at the first character of
what is no token.
-/

import Qalam.Proofs.Layout.Compilation
import Qalam.Proofs.Location.Reached

namespace Qalam

open Relabel

/-! ## Positions that do not move -/

/-- The given positions stay, and every other one moves. -/
def Position.stray (still : List Position) (pos : Position) : Position :=
  if pos ∈ still then pos else pos.step ' '

theorem Position.mem_of_stray {still : List Position} {pos : Position}
    (same : stray still pos = pos) : pos ∈ still := by
  by_contra other
  rw [stray, if_neg other] at same
  exact absurd (congrArg column same) (Nat.succ_ne_self _)

/-- Moving everything but the tokens does not move the tokens. -/
theorem map_token_stray (tokens : List Token) :
    tokens.map (relocate (Position.stray (tokens.map Token.pos))).token = tokens := by
  rw [List.map_congr_left (g := id), List.map_id]
  intro token mem
  have still : token.pos ∈ tokens.map Token.pos := List.mem_map_of_mem mem
  show (⟨token.kind, Position.stray _ token.pos⟩ : Token) = token
  rw [Position.stray, if_pos still]

/-- A source is read like itself if everything but its tokens is moved. -/
theorem moves_stray {source : String} {tokens : List Token}
    (lexed : tokenize source = .ok tokens) :
    Moves (Position.stray (tokens.map Token.pos)) source source :=
  moves_of_tokenize lexed (by rw [map_token_stray, lexed])

/-! ## Where errors are reported -/

/-- An error of form is reported at a token. -/
theorem pos_mem_of_parseSource {source : String} {tokens : List Token} {error : CompileError}
    {pos : Position} (lexed : tokenize source = .ok tokens)
    (refused : parseSource source = .error error) (placed : error.pos? = some pos) :
    ∃ token ∈ tokens, token.pos = pos := by
  have moved := (moves_stray lexed).read
  rw [refused] at moved
  have same := Except.error.inj moved
  apply List.mem_map.mp
  apply Position.mem_of_stray
  rw [same] at placed
  cases error with
  | syntactic error =>
      rw [Relabel.compileError, CompileError.syntactic.injEq] at same
      cases placed
      exact (congrArg (fun error => Position.stray _ (SyntaxError.pos error)) same).symm
  | semantic error =>
      rw [Relabel.compileError, CompileError.semantic.injEq] at same
      cases placed
      exact (congrArg (fun error => Position.stray _ (SemanticError.pos error)) same).symm
  | unreadable | config => cases placed

/-- An error of meaning is reported at a token. -/
theorem pos_mem_of_bind {source : String} {tokens : List Token} {program : Program}
    {error : SemanticError} (lexed : tokenize source = .ok tokens)
    (read : parseSource source = .ok program) (refused : program.bind = .error error) :
    ∃ token ∈ tokens, token.pos = error.pos := by
  have moves := moves_stray lexed
  have again := moves.read
  rw [read] at again
  have unmoved := Except.ok.inj again
  have bound := moves.bound program read
  rw [← unmoved, refused] at bound
  apply List.mem_map.mp
  apply Position.mem_of_stray
  exact (congrArg SemanticError.pos (Except.error.inj bound)).symm

section

variable {ε ε' α β : Type}

/-- What fails in two steps fails in the first or in the second. -/
theorem fails_bind {found : Except ε α} {next : α → Except ε β} {error : ε}
    (fails : found >>= next = .error error) :
    found = .error error ∨ ∃ value, found = .ok value ∧ next value = .error error := by
  cases found with
  | error error' =>
      cases fails
      exact .inl rfl
  | ok value => exact .inr ⟨value, rfl, fails⟩

theorem fails_mapError {found : Except ε α} {wrap : ε → ε'} {error : ε'}
    (fails : found.mapError wrap = .error error) :
    ∃ inner, found = .error inner ∧ error = wrap inner := by
  cases found with
  | error inner => exact ⟨inner, rfl, (Except.error.inj fails).symm⟩
  | ok value => cases fails

end

/-- Looking for a source of names does not lead to errors with a place in the program. -/
theorem pos?_of_source {config : NamingConfig} {files : Files} {error : CompileError}
    (refused : config.source files = .error error) : error.pos? = none := by
  rw [NamingConfig.source] at refused
  split at refused
  · cases refused
    rfl
  · cases refused
  · rcases fails_bind refused with unread | ⟨_, _, done⟩
    · rcases fails_bind unread with unread | ⟨text, _, malformed⟩
      · obtain ⟨reason, -, rfl⟩ := fails_mapError unread
        rfl
      · split at malformed
        · cases malformed
        · cases malformed
          rfl
    · cases done
  · cases refused

/-- An error with a place in the program is one of reading or one of analysis. -/
theorem compileSource_error {host : Host} {source : String} {mode : OutputMode} {config : Config}
    {error : CompileError} {pos : Position}
    (fails : compileSource host source mode config = .error error)
    (placed : error.pos? = some pos) :
    parseSource source = .error error ∨ ∃ program fault, parseSource source = .ok program ∧
      program.bind = .error fault ∧ error = .semantic fault := by
  rcases fails_bind fails with refused | ⟨program, read, fails⟩
  · exact .inl refused
  -- an analysis whose result is only written leads to no further error with a place
  have ofBind : ∀ {finish : BoundProgram → Except CompileError String},
      (∀ bound, finish bound = .error error → error.pos? = none) →
      program.bind.mapError .semantic >>= finish = .error error →
      ∃ fault, program.bind = .error fault ∧ error = .semantic fault := by
    intro finish harmless fails
    rcases fails_bind fails with refused | ⟨bound, _, refused⟩
    · exact fails_mapError refused
    · rw [harmless bound refused] at placed
      cases placed
  right
  refine ⟨program, ?_⟩
  cases mode with
  | ast => cases fails
  | analyzed =>
      obtain ⟨fault, refused, same⟩ := ofBind (fun _ refused => by cases refused) fails
      exact ⟨fault, read, refused, same⟩
  | js =>
      obtain ⟨fault, refused, same⟩ := ofBind (fun _ refused => by
        rcases fails_bind refused with unnamed | ⟨_, _, done⟩
        · exact pos?_of_source unnamed
        · cases done) fails
      exact ⟨fault, read, refused, same⟩

/-- What stands at a place of a source that an error is reported at. -/
inductive ReportedAt (source : String) (error : CompileError) (behind : List Char)
    (pos : Position) : Prop
  | token {tokens : List Token} (lexed : tokenize source = .ok tokens) {token : Token}
      (listed : token ∈ tokens) (place : token.pos = pos)
      (begins : Scan.Begins token.kind behind) : ReportedAt source error behind pos
  | noToken {c : Char} {rest : List Char} {fault : SyntaxFault} (next : behind = c :: rest)
      (wrong : Scan.lexeme c rest = .error fault) (said : error = .syntactic ⟨fault, pos⟩) :
      ReportedAt source error behind pos

/-- If a source is not compiled because of its form or its meaning, then the error is reported where
a token of the source begins, or at the first character of what is no token. That place is reached
by cutting the source into tokens, and its position lies in the source. It is the first position
only if nothing stands before it. -/
theorem compileSource_located {host : Host} {source : String} {mode : OutputMode}
    {config : Config} {error : CompileError} {pos : Position}
    (fails : compileSource host source mode config = .error error)
    (placed : error.pos? = some pos) :
    pos.LiesIn source.toList ∧ ∃ before behind, Scan.Reaches source.toList before behind ∧
      pos = Position.start.advance before ∧ ReportedAt source error behind pos ∧
      (pos = .start → before = []) := by
  have located : ∃ before behind, Scan.Reaches source.toList before behind ∧
      pos = Position.start.advance before ∧ ReportedAt source error behind pos := by
    cases lexed : tokenize source with
    | error refused =>
        -- nothing is read, so this is the error
        have same : error = .syntactic refused := by
          rw [compileSource, parseSource, lexed] at fails
          cases fails
          rfl
        subst same
        cases placed
        obtain ⟨before, c, rest, reaches, place, wrong⟩ := Scan.reaches_of_error lexed
        exact ⟨before, _, reaches, place, .noToken rfl wrong rfl⟩
    | ok tokens =>
        have listed : ∃ token ∈ tokens, token.pos = pos := by
          rcases compileSource_error fails placed with
            refused | ⟨program, fault, read, refused, rfl⟩
          · exact pos_mem_of_parseSource lexed refused placed
          · cases placed
            exact pos_mem_of_bind lexed read refused
        obtain ⟨token, mem, rfl⟩ := listed
        obtain ⟨before, behind, reaches, place, begins⟩ := Scan.reaches_of_mem lexed token mem
        exact ⟨before, behind, reaches, place, .token lexed mem rfl begins⟩
  obtain ⟨before, behind, reaches, rfl, reported⟩ := located
  constructor
  · rw [← reaches.append]
    exact Position.liesIn_advance before behind
  · refine ⟨before, behind, reaches, rfl, reported, ?_⟩
    intro first
    by_contra some
    exact (Position.start.rank_lt_advance some).ne' (congrArg Position.rank first)

/-- A declaration without a semicolon, at the end of its text: the error is reported on the line
below, where the text ends. -/
theorem compileSource_located_end :
    let source := "دع ا = 1 // ب\n"
    let place : Position := ⟨2, 1⟩
    ∃ error, compileSource .empty source .js .default = .error error ∧ error.pos? = some place ∧
      place.LiesIn source.toList ∧ ∃ before behind, Scan.Reaches source.toList before behind ∧
        place = Position.start.advance before ∧ ReportedAt source error behind place ∧
        (place = .start → before = []) := by
  intro source place
  have lexed : tokenize "دع ا = 1 // ب\n" = .ok
      [⟨.keyword .letKw, ⟨1, 1⟩⟩, ⟨.ident "ا", ⟨1, 4⟩⟩, ⟨.symbol .eq, ⟨1, 6⟩⟩, ⟨.int 1, ⟨1, 8⟩⟩,
        ⟨.eof, ⟨2, 1⟩⟩] := by cbv
  have fails : compileSource .empty source .js .default = .error
      (.syntactic ⟨.expected (.token (.symbol .semi)) .eof, place⟩) := by
    rw [compileSource, parseSource, lexed]
    rfl
  exact ⟨_, fails, rfl, compileSource_located fails rfl⟩

end Qalam
