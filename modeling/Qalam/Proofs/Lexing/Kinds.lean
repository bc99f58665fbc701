/-
# What the tokens of a text stand for

Positions apart, the tokens of a text follow from the text alone, token by token. Blanks at its
beginning make no difference. Behind a token no string literal is open, so quotes and backslashes
tell where literals are without any other knowledge of tokens. A text that ends outside of them and
at whose front no token can be read does not become better by a blank and more text behind it.
-/

import Qalam.Proofs.Lexing.Word

namespace Qalam.Scan

/-- What the tokens of a text stand for, if it can be cut into tokens. -/
def kinds? (text : List Char) : Option (List TokenKind) :=
  (tokensFrom .start text).toOption.map (List.map Token.kind)

theorem kinds?_eq_of_pos (pos pos' : Position) (text : List Char) :
    (tokensFrom pos text).toOption.map (List.map Token.kind) =
      (tokensFrom pos' text).toOption.map (List.map Token.kind) := by
  fun_induction tokensFrom pos text generalizing pos' with
  | case1 pos text gap trivia =>
      rw [tokensFrom_of_nil trivia]
      rfl
  | case2 pos text gap c rest trivia start fault refused =>
      rw [tokensFrom_of_cons trivia, refused]
      rfl
  | case3 pos text gap c rest trivia start token lexed =>
      rename_i ih
      rw [tokensFrom_of_cons trivia, lexed]
      have further := ih ((pos'.advance gap).advance token.text)
      dsimp only
      cases here : tokensFrom (start.advance token.text) token.rest <;>
        cases there : tokensFrom ((pos'.advance gap).advance token.text) token.rest <;>
        rw [here, there] at further
      · rfl
      · cases further
      · cases further
      · exact congrArg (Option.map (token.kind :: ·)) further

section

variable {text gap rest : List Char} {c : Char}

theorem kinds?_of_nil (trivia : splitTrivia false text = (gap, [])) :
    kinds? text = some [.eof] := by
  rw [kinds?, tokensFrom_of_nil trivia]
  rfl

theorem kinds?_of_error (trivia : splitTrivia false text = (gap, c :: rest)) {fault : SyntaxFault}
    (refused : lexeme c rest = .error fault) : kinds? text = none := by
  rw [kinds?, tokensFrom_of_cons trivia, refused]
  rfl

theorem kinds?_of_ok (trivia : splitTrivia false text = (gap, c :: rest)) {token : Lexeme}
    (read : lexeme c rest = .ok token) :
    kinds? text = (kinds? token.rest).map (token.kind :: ·) := by
  rw [kinds?, tokensFrom_of_cons trivia, read, kinds?,
    kinds?_eq_of_pos .start ((Position.start.advance gap).advance token.text)]
  dsimp only
  cases tokensFrom ((Position.start.advance gap).advance token.text) token.rest <;> rfl

end

theorem kinds?_nil : kinds? [] = some [.eof] := by
  have nothing : splitTrivia false [] = ([], []) := rfl
  exact kinds?_of_nil nothing

theorem ne_nil_of_kinds? {text : List Char} {kinds : List TokenKind}
    (read : kinds? text = some kinds) : kinds ≠ [] := by
  rw [kinds?] at read
  cases found : tokensFrom .start text with
  | error => rw [found] at read; cases read
  | ok tokens =>
      obtain ⟨body, last, rfl, -⟩ := tokensFrom_ends found
      rw [found] at read
      cases read
      simp

/-- Cutting a source into tokens gives what they stand for. -/
theorem kinds?_toList {source : String} {kinds : List TokenKind} :
    kinds? source.toList = some kinds ↔
      ∃ tokens, tokenize source = .ok tokens ∧ tokens.map Token.kind = kinds := by
  rw [kinds?, tokenize]
  cases tokensFrom .start source.toList with
  | error => simp [Except.toOption]
  | ok tokens => simp [Except.toOption]

/-! ## Leading blanks -/

theorem kinds?_cons {c : Char} (blank : Text.isBlank c = true) (text : List Char) :
    kinds? (c :: text) = kinds? text := by
  have whole : splitTrivia false (c :: text) = consume c (splitTrivia false text) := by
    rw [splitTrivia, if_neg Bool.false_ne_true, if_pos blank]
  cases split : splitTrivia false text with
  | mk gap behind =>
      rw [split] at whole
      cases behind with
      | nil => rw [kinds?_of_nil whole, kinds?_of_nil split]
      | cons d rest =>
          cases read : lexeme d rest with
          | error fault => rw [kinds?_of_error whole read, kinds?_of_error split read]
          | ok token => rw [kinds?_of_ok whole read, kinds?_of_ok split read]

theorem kinds?_append {run : List Char} (blank : ∀ c ∈ run, Text.isBlank c = true)
    (text : List Char) : kinds? (run ++ text) = kinds? text := by
  induction run with
  | nil => rfl
  | cons c run ih =>
      rw [List.forall_mem_cons] at blank
      rw [List.cons_append, kinds?_cons blank.1, ih blank.2]

/-! ## Tokens and string literals -/

theorem after_of_blank {gap : List Char} (blank : ∀ c ∈ gap, Text.isBlank c = true) :
    Spot.outside.after gap = .outside :=
  Spot.after_of_notMem fun mem => absurd (blank _ mem) (by decide)

theorem isSome_of_mem_splitDigits (text : List Char) :
    ∀ c ∈ (splitDigits text).1, (digit? c).isSome = true := by
  induction text with
  | nil => exact List.forall_mem_nil _
  | cons c rest ih =>
      rw [splitDigits]
      split
      · rename_i digit
        exact List.forall_mem_cons.mpr ⟨digit, ih⟩
      · exact List.forall_mem_nil _

theorem quote_notMem_number (text : List Char) : '"' ∉ (number text).text := by
  have digits : ∀ text, '"' ∉ (splitDigits text).1 := fun text mem =>
    absurd (isSome_of_mem_splitDigits text _ mem) (by decide)
  simp only [number]
  split
  · split
    · exact digits text
    · rw [List.mem_append, List.mem_cons, not_or, not_or]
      exact ⟨digits text, by decide, digits _⟩
  · exact digits text

theorem quote_notMem_word (text : List Char) : '"' ∉ (word text).text := by
  have letters : '"' ∉ (splitWord text).1 := fun mem =>
    absurd (isWordChar_of_mem_splitWord text _ mem) (by decide +kernel)
  simp only [word]
  split
  · exact letters
  · split
    · split
      · rename_i second rest' found
        rw [List.mem_append, not_or]
        refine ⟨letters, ?_⟩
        simp only [secondWord?] at found
        split at found
        · split at found
          · split at found
            · cases found
            · cases found
              rw [List.mem_append, not_or]
              exact ⟨fun mem => absurd (List.all_eq_true.mp List.all_takeWhile _ mem) (by decide),
                by decide⟩
          · cases found
        · cases found
      · exact letters
    · exact letters

/-- Behind a token no string literal is open. -/
theorem after_of_lexeme {c : Char} {rest : List Char} {token : Lexeme}
    (read : lexeme c rest = .ok token) : Spot.outside.after token.text = .outside := by
  have plain : ∀ entry ∈ symbolSpellings, '"' ∉ entry.1 := by decide
  simp only [lexeme] at read
  split at read
  · rename_i found
    cases read
    rw [symbol?, List.findSome?_eq_some_iff] at found
    obtain ⟨before, entry, behind, split, matched, -⟩ := found
    obtain ⟨_, _, rfl⟩ := Option.map_eq_some_iff.mp matched
    exact Spot.after_of_notMem (plain entry (by simp [split]))
  · split at read
    · cases read
    · split at read
      · rename_i quote
        rw [string] at read
        cases body : stringBody .plain rest with
        | error fault =>
            rw [body] at read
            cases read
        | ok literal =>
            rw [body] at read
            cases read
            rw [quote]
            exact after_of_stringBody body
      · split at read
        · cases read
          exact Spot.after_of_notMem (quote_notMem_number _)
        · split at read
          · cases read
            exact Spot.after_of_notMem (quote_notMem_word _)
          · cases read

/-- Where no token can be read although no string literal is left open, none can be read with a
blank and more text behind it. -/
theorem error_of_blank {b : Char} (blank : Text.isBlank b = true) (more : List Char) {c : Char}
    {rest : List Char} {fault : SyntaxFault} (refused : lexeme c rest = .error fault)
    (closed : Spot.outside.after (c :: rest) = .outside) :
    ∃ fault, lexeme c (rest ++ b :: more) = .error fault := by
  have symbols := symbol?_blank blank more (c :: rest)
  rw [List.cons_append] at symbols
  simp only [lexeme, symbols] at refused ⊢
  cases found : symbol? (c :: rest) with
  | some sign =>
      rw [found] at refused
      cases refused
  | none =>
      rw [found] at refused
      dsimp only [Option.map_none] at refused ⊢
      by_cases half : (c = '&' || c = '|') = true
      · exact ⟨_, if_pos half⟩
      rw [if_neg half] at refused ⊢
      by_cases quote : c = '"'
      · rw [if_pos quote] at refused ⊢
        cases body : stringBody .plain (rest ++ b :: more) with
        | error fault => exact ⟨fault, by rw [string, body]; rfl⟩
        | ok literal =>
            rw [quote] at closed
            obtain ⟨shorter, here⟩ := exists_of_stringBody_append body closed
            rw [string, here] at refused
            cases refused
      rw [if_neg quote] at refused ⊢
      by_cases digit : (digit? c).isSome = true
      · rw [if_pos digit] at refused
        cases refused
      rw [if_neg digit] at refused ⊢
      by_cases letter : isWordStart c = true
      · rw [if_pos letter] at refused
        cases refused
      · exact ⟨_, if_neg letter⟩

end Qalam.Scan
