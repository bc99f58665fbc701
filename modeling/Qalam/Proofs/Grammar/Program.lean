/-
# Programs and their grammar

The tokens of a text end with the end of the text, and with nothing else. Such a list of tokens
is read as a program exactly if the tokens before the last one derive it, and they derive at most
one program.
-/

import Mathlib.Data.List.Permutation
import Qalam.Proofs.Grammar.StatementComplete
import Qalam.Token.Stream

namespace Qalam.Scan

/-- What is read from a text is a symbol, a string or a number, or it is read as a word. A number
with a point is a rounded quotient. -/
theorem lexeme_cases {c : Char} {rest : List Char} {token : Lexeme}
    (read : lexeme c rest = .ok token) :
    (∃ sign, token.kind = .symbol sign) ∨ (∃ value, token.kind = .str value) ∨
      (∃ value, token.kind = .int value) ∨
      (∃ digits places, token.kind = .float (Binary64.ofQuotient digits (Nat.pow 10 places))) ∨
      isWordStart c = true ∧ token = word (c :: rest) := by
  simp only [lexeme] at read
  split at read
  · rename_i found
    cases read
    rw [symbol?, List.findSome?_eq_some_iff] at found
    obtain ⟨before, entry, behind, -, matched, -⟩ := found
    obtain ⟨_, _, rfl⟩ := Option.map_eq_some_iff.1 matched
    exact .inl ⟨_, rfl⟩
  · split at read
    · cases read
    · split at read
      · rw [string] at read
        cases body : stringBody .plain rest with
        | error fault =>
            rw [body] at read
            cases read
        | ok literal =>
            rw [body] at read
            cases read
            exact .inr (.inl ⟨_, rfl⟩)
      · split at read
        · cases read
          simp only [number]
          split
          · split
            · exact .inr (.inr (.inl ⟨_, rfl⟩))
            · exact .inr (.inr (.inr (.inl ⟨_, _, rfl⟩)))
          · exact .inr (.inr (.inl ⟨_, rfl⟩))
        · split at read
          · rename_i letter
            cases read
            exact .inr (.inr (.inr (.inr ⟨letter, rfl⟩)))
          · cases read

/-- A word stands for a keyword or for a name. -/
theorem word_kind (text : List Char) :
    (∃ keyword, (word text).kind = .keyword keyword) ∨ ∃ name, (word text).kind = .ident name := by
  simp only [word]
  split
  · exact .inl ⟨_, rfl⟩
  · split
    · split
      · exact .inl ⟨_, rfl⟩
      · exact .inr ⟨_, rfl⟩
    · exact .inr ⟨_, rfl⟩

/-- No token stands for the end of the text before it is reached. -/
theorem lexeme_kind {c : Char} {rest : List Char} {token : Lexeme}
    (read : lexeme c rest = .ok token) : token.kind ≠ .eof := by
  rcases lexeme_cases read with ⟨_, same⟩ | ⟨_, same⟩ | ⟨_, same⟩ | ⟨_, _, same⟩ | ⟨-, rfl⟩
  · simp [same]
  · simp [same]
  · simp [same]
  · simp [same]
  · rcases word_kind (c :: rest) with ⟨_, same⟩ | ⟨_, same⟩ <;> simp [same]

/-- Tokens that were found behind the first one. -/
theorem exists_of_map_ok {found : Except SyntaxError (List Token)} {tokens : List Token}
    {prepend : List Token → List Token} (read : found.map prepend = .ok tokens) :
    ∃ others, found = .ok others ∧ tokens = prepend others := by
  cases found with
  | error error => cases read
  | ok others =>
      cases read
      exact ⟨others, rfl, rfl⟩

/-- A list of tokens ends with the end of the text, which stands nowhere else. -/
theorem tokensFrom_ends {pos : Position} {text : List Char} {tokens : List Token}
    (read : tokensFrom pos text = .ok tokens) :
    ∃ (body : List Token) (last : Token), tokens = body ++ [last] ∧ last.kind = .eof ∧
      ∀ token ∈ body, token.kind ≠ .eof := by
  fun_induction tokensFrom pos text generalizing tokens with
  | case1 pos text gap trivia =>
      cases read
      exact ⟨[], _, rfl, rfl, by simp⟩
  | case2 => cases read
  | case3 pos text gap c rest trivia start token lexed =>
      rename_i ih
      obtain ⟨others, further, rfl⟩ := exists_of_map_ok read
      obtain ⟨body, last, rfl, ends, real⟩ := ih further
      refine ⟨⟨token.kind, start⟩ :: body, last, rfl, ends, ?_⟩
      rw [List.forall_mem_cons]
      exact ⟨lexeme_kind lexed, real⟩

end Qalam.Scan

namespace Qalam

open Grammar Qalam.Parser

/-- Reading a program is reading statements up to the end of the text. -/
theorem Program.ofTokens_ok {tokens : List Token} {program : Program} :
    Program.ofTokens tokens = .ok program ↔
      ∃ rest, manyUntil endsProgram (statement (nested tokens.length).expression tokens.length)
        tokens.length tokens = .ok (program.statements, rest) := by
  have whole : Program.ofTokens tokens = .ok program ↔
      ∃ rest, Parser.program tokens.length tokens = .ok (program, rest) := by
    change Except.map Prod.fst (Parser.program tokens.length tokens) = _ ↔ _
    cases Parser.program tokens.length tokens with
    | error error => simp [Except.map]
    | ok result =>
        obtain ⟨found, rest⟩ := result
        simp [Except.map]
  rw [whole]
  refine exists_congr fun rest => ?_
  rw [Parser.program, bind_ok]
  constructor
  · rintro ⟨statements, between, reads, done⟩
    obtain ⟨rfl, rfl⟩ := pure_ok.mp done
    exact reads
  · intro reads
    exact ⟨_, _, reads, rfl⟩

/-- Of the tokens before the end of the text, what is left behind a program is nothing. -/
theorem eq_of_append_eof {body used rest : List Token} {last : Token}
    (whole : body ++ [last] = used ++ rest) (realBody : ∀ token ∈ body, token.kind ≠ .eof)
    (realUsed : ∀ token ∈ used, token.kind ≠ .eof) (ends : last.kind = .eof)
    (reached : kindOf rest = .eof) : used = body := by
  rcases List.append_eq_append_iff.mp whole with ⟨more, split, tail⟩ | ⟨more, split, tail⟩
  · -- `used` is `body` and perhaps the last token, which it cannot hold
    cases more with
    | nil => simpa using split
    | cons token others =>
        obtain ⟨rfl, -⟩ := List.cons.inj tail
        exact absurd ends (realUsed last (by simp [split]))
  · -- `body` is `used` and perhaps the first token of the rest, which ends the text
    cases more with
    | nil => simpa using split.symm
    | cons token others =>
        rw [tail] at reached
        exact absurd reached (realBody token (by simp [split]))

/-- A program is read from tokens that end with the end of the text exactly if the tokens before
it derive the program. -/
theorem Program.ofTokens_ok_iff {body : List Token} {last : Token} {program : Program}
    (real : ∀ token ∈ body, token.kind ≠ .eof) (ends : last.kind = .eof) :
    Program.ofTokens (body ++ [last]) = .ok program ↔
      Forms .statements body program.statements := by
  rw [Program.ofTokens_ok, List.length_append, List.length_singleton]
  constructor
  · rintro ⟨rest, reads⟩
    obtain ⟨used, whole, sequence, stopped⟩ := manyUntil_accepts
      (statement_accepts (nested_accepts _).expression _) Forms.ne_nil reads
    have forms := statements_of_sequence sequence
    have size := congrArg List.length whole
    have reached : kindOf rest = .eof := by
      rcases stopped with stopped | exhausted
      · simpa [endsProgram] using stopped
      · -- the budget is the number of tokens, so nothing is left
        simp only [List.length_append, List.length_singleton] at size
        obtain rfl : rest = [] := List.length_eq_zero_iff.mp (by omega)
        rfl
    rwa [← eq_of_append_eof whole real forms.no_eof ends reached]
  · intro forms
    have found := foundPiece_of_forms (nested_finds (body.length + 1)) forms
    refine ⟨[last], statements_read found (fun _ begins => (beginsStatement_ends begins).2.2.1)
      (Nat.le_refl _) (by omega) (by omega) ?_ ?_⟩
    · simp [kindOf, endsProgram, ends]
    · simp [kindOf, ends, endsStatement]

/-- The tokens of a text are read as a program exactly if those before the end of the text derive
it, and they derive no second program. -/
theorem Program.ofTokens_iff_derives {source : String} {tokens : List Token}
    (lexed : tokenize source = .ok tokens) :
    ∃ body last, tokens = body ++ [last] ∧ last.kind = .eof ∧
      (∀ program : Program, Program.ofTokens tokens = .ok program ↔
        Forms .statements body program.statements) ∧
      ∀ first second : List Statement, Forms .statements body first →
        Forms .statements body second → first = second := by
  obtain ⟨body, last, rfl, ends, real⟩ := Scan.tokensFrom_ends lexed
  refine ⟨body, last, rfl, ends, fun program => Program.ofTokens_ok_iff real ends, ?_⟩
  intro first second formsFirst formsSecond
  have readFirst := (@Program.ofTokens_ok_iff body last ⟨first⟩ real ends).mpr formsFirst
  have readSecond := (@Program.ofTokens_ok_iff body last ⟨second⟩ real ends).mpr formsSecond
  rw [readFirst] at readSecond
  cases readSecond
  rfl

/-- The tokens of a statement that adds two numbers. -/
def additionTokens : List Token :=
  [⟨.int 1, ⟨1, 1⟩⟩, ⟨.symbol .plus, ⟨1, 2⟩⟩, ⟨.int 2, ⟨1, 3⟩⟩, ⟨.symbol .semi, ⟨1, 4⟩⟩,
    ⟨.eof, ⟨1, 5⟩⟩]

theorem Program.ofTokens_iff_derives_addition :
    ∃ body last, additionTokens = body ++ [last] ∧ last.kind = .eof ∧
      (∀ program : Program, Program.ofTokens additionTokens = .ok program ↔
        Forms .statements body program.statements) ∧
      ∀ first second : List Statement, Forms .statements body first →
        Forms .statements body second → first = second := by
  have lexed : tokenize "1+2؛" = .ok additionTokens := by cbv
  exact Program.ofTokens_iff_derives lexed

end Qalam
