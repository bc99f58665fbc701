/-
# The end of the text need not be a token

A list of tokens usually says with its last token where the text ends. Without that token the parser
does the same: it gives the same tree, or fails with the same fault. Only the place of the end is
then unknown, so a fault that is reported there is reported at the first position of a text.

That the two lists are read alike is clear as long as their ends have the same position. To tell the
other positions from it, the tokens are numbered: each gets its place in the list for a position, so
that a fault tells its place. From there, tokens and end are moved where they belong.
-/

import Qalam.Proofs.Descent.Termination
import Qalam.Proofs.Grammar.Program
import Qalam.Proofs.Layout.Parsing

namespace Qalam

open Qalam.Parser Relabel

namespace Descent

/-- Lists that a parser cannot tell apart have the same syntax tree. -/
theorem Alike.ofTokens_eq {tokens tokens' : List Token} (alike : Alike tokens tokens') :
    Program.ofTokens tokens' = Program.ofTokens tokens := by
  obtain ⟨outcome, runs, same⟩ := runs_program (.refl tokens')
  obtain ⟨outcome', runs', same'⟩ := runs_program alike
  rw [← same, ← same', runs.unique runs']

/-! ## Numbered tokens -/

/-- The tokens of a list, each at a position that tells its place. -/
def numbered (tokens : List Token) : List Token :=
  tokens.mapIdx fun place token => ⟨token.kind, ⟨place, 0⟩⟩

/-- The position of a token, or of the end. -/
def placed (tokens : List Token) (last : Position) (place : Nat) : Position :=
  (tokens[place]?.map Token.pos).getD last

/-- The kind of a token, or of the end. -/
def kindAt (tokens : List Token) (place : Nat) : TokenKind :=
  (tokens[place]?.map Token.kind).getD .eof

/-- The place that a position of a numbered list tells. -/
def placeOf (tokens : List Token) (pos : Position) : Nat :=
  if pos.column = 0 then pos.line else tokens.length

/-- Numbered tokens are moved to where they were, and their end to a given position. -/
def unnumber (tokens : List Token) (last pos : Position) : Position :=
  placed tokens last (placeOf tokens pos)

/-- What is read from numbered tokens, moved back. -/
def unnumbered (tokens : List Token) (last : Position) : Except SyntaxError Program :=
  ((Program.ofTokens (numbered tokens)).map (relocate (unnumber tokens last)).program).mapError
    (relocate (unnumber tokens last)).syntaxError

section

variable (tokens : List Token)

theorem unnumber_start (last : Position) : unnumber tokens last .start = last := by
  simp [unnumber, placeOf, placed, Position.start]

theorem map_numbered (last : Position) :
    (numbered tokens).map (relocate (unnumber tokens last)).token = tokens := by
  apply List.ext_getElem?
  intro place
  rw [numbered, List.getElem?_map, List.getElem?_mapIdx, Option.map_map]
  cases found : tokens[place]? with
  | none => rfl
  | some token =>
      have back : unnumber tokens last ⟨place, 0⟩ = token.pos := by
        simp [unnumber, placeOf, placed, found]
      show some (⟨token.kind, unnumber tokens last ⟨place, 0⟩⟩ : Token) = some token
      rw [back]

theorem numbered_real (real : ∀ token ∈ tokens, token.kind ≠ .eof) :
    ∀ token ∈ numbered tokens, token.kind ≠ .eof := by
  intro token mem
  rw [numbered, List.mem_mapIdx] at mem
  obtain ⟨place, fits, rfl⟩ := mem
  exact real tokens[place] (List.getElem_mem fits)

theorem ofTokens_eq_unnumbered : Program.ofTokens tokens = unnumbered tokens .start := by
  have fits : (relocate (unnumber tokens .start)).Fits (numbered tokens) :=
    .inl (unnumber_start tokens .start)
  have moved := Program.ofTokens_relabel (plain_relocate _) fits
  rwa [map_numbered] at moved

theorem ofTokens_append_eq_unnumbered (real : ∀ token ∈ tokens, token.kind ≠ .eof)
    (last : Position) :
    Program.ofTokens (tokens ++ [⟨.eof, last⟩]) = unnumbered tokens last := by
  have fits : (relocate (unnumber tokens last)).Fits (numbered tokens ++ [⟨.eof, .start⟩]) :=
    .inr ⟨⟨.eof, .start⟩, by simp, rfl⟩
  have moved := Program.ofTokens_relabel (plain_relocate _) fits
  have alike := (Alike.append_eof (numbered_real tokens real)).ofTokens_eq
  have ends : (relocate (unnumber tokens last)).token ⟨.eof, .start⟩ = ⟨.eof, last⟩ :=
    congrArg (Token.mk .eof) (unnumber_start tokens last)
  rwa [List.map_append, map_numbered, List.map_singleton, ends, alike] at moved

variable {tokens}

/-- What a fault in a numbered list says to have found stands at the place it tells. -/
theorem kindAt_of_points {error : SyntaxError} {kind : TokenKind}
    (points : Points (numbered tokens) error) (said : found? error.fault = some kind) :
    kind = kindAt tokens (placeOf tokens error.pos) := by
  obtain ⟨used, rest, split, -, rfl, place⟩ := points kind said
  rw [← place]
  cases rest with
  | nil => simp [placeOf, posOf, kindOf, kindAt, Position.start]
  | cons token behind =>
      have there : (numbered tokens)[used.length]? = some token := by simp [split]
      rw [numbered, List.getElem?_mapIdx, Option.map_eq_some_iff] at there
      obtain ⟨original, stands, rfl⟩ := there
      simp [placeOf, posOf, kindOf, kindAt, stands]

end

end Descent

open Descent

/-- A token that ends the text changes nothing but the position of the end. With it and without it,
the same tree is read, or both fail with the same fault. The fault is reported at the same token, or
else at the end of the list: there it says that it found the end, and its position is that of the
last token, or the first position of a text if there is no such token. -/
theorem Program.ofTokens_append_eof {tokens : List Token}
    (real : ∀ token ∈ tokens, token.kind ≠ .eof) :
    (∃ program, Program.ofTokens tokens = .ok program ∧
      ∀ last, Program.ofTokens (tokens ++ [⟨.eof, last⟩]) = .ok program) ∨
    ∃ fault place, (∀ kind, found? fault = some kind → kind = kindAt tokens place) ∧
      Program.ofTokens tokens = .error ⟨fault, placed tokens .start place⟩ ∧
      ∀ last, Program.ofTokens (tokens ++ [⟨.eof, last⟩]) =
        .error ⟨fault, placed tokens last place⟩ := by
  have without := ofTokens_eq_unnumbered tokens
  have within := ofTokens_append_eq_unnumbered tokens real
  cases outcome : Program.ofTokens (numbered tokens) with
  | ok program =>
      left
      rw [unnumbered, outcome] at without
      refine ⟨_, without, fun last => ?_⟩
      -- what the tokens derive does not depend on the position of the end
      have first := (within .start).trans (by rw [unnumbered, outcome])
      exact (ofTokens_ok_iff real rfl).mpr ((ofTokens_ok_iff real rfl).mp first)
  | error error =>
      right
      refine ⟨error.fault, placeOf tokens error.pos, ?_, ?_, fun last => ?_⟩
      · intro kind said
        exact kindAt_of_points (points_of_error outcome) said
      · rw [without, unnumbered, outcome]
        rfl
      · rw [within, unnumbered, outcome]
        rfl

/-- A declaration without a semicolon. The fault is reported at the end. -/
theorem Program.ofTokens_append_eof_declaration :
    let tokens : List Token := [⟨.keyword .letKw, ⟨1, 1⟩⟩, ⟨.ident "ا", ⟨1, 4⟩⟩]
    (∀ token ∈ tokens, token.kind ≠ .eof) ∧
    ((∃ program, Program.ofTokens tokens = .ok program ∧
      ∀ last, Program.ofTokens (tokens ++ [⟨.eof, last⟩]) = .ok program) ∨
    ∃ fault place, (∀ kind, found? fault = some kind → kind = kindAt tokens place) ∧
      Program.ofTokens tokens = .error ⟨fault, placed tokens .start place⟩ ∧
      ∀ last, Program.ofTokens (tokens ++ [⟨.eof, last⟩]) =
        .error ⟨fault, placed tokens last place⟩) := by
  intro tokens
  have real : ∀ token ∈ tokens, token.kind ≠ .eof := by decide
  exact ⟨real, Program.ofTokens_append_eof real⟩

end Qalam
