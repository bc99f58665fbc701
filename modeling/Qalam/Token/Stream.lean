/-
# The tokens of a text

The loop that cuts a whole text into tokens and gives each its position. Nothing is lost on the
way: the characters of a gap or token followed by what is left are the text that was there
before. The lemmas before the loop say so for each kind of token; since a token has at least one
character, what is left becomes shorter and the loop ends.
-/

import Qalam.Token.Scan

namespace Qalam.Scan

/-- Blanks and comments followed by the rest are the whole text. -/
theorem splitTrivia_append (inComment : Bool) (text : List Char) :
    (splitTrivia inComment text).1 ++ (splitTrivia inComment text).2 = text := by
  induction text generalizing inComment with
  | nil => rfl
  | cons c rest ih =>
      simp only [splitTrivia]
      split
      · exact congrArg (c :: ·) (ih _)
      · split
        · exact congrArg (c :: ·) (ih _)
        · split
          · exact congrArg (c :: ·) (ih _)
          · rfl

/-- The letters of a word followed by the rest are the whole text. -/
theorem splitWord_append (text : List Char) :
    (splitWord text).1 ++ (splitWord text).2 = text := by
  induction text with
  | nil => rfl
  | cons c rest ih =>
      simp only [splitWord]
      split
      · exact congrArg (c :: ·) ih
      · rfl

/-- Leading digits followed by the rest are the whole text. -/
theorem splitDigits_append (text : List Char) :
    (splitDigits text).1 ++ (splitDigits text).2 = text := by
  induction text with
  | nil => rfl
  | cons c rest ih =>
      simp only [splitDigits]
      split
      · exact congrArg (c :: ·) ih
      · rfl

/-- A spelling followed by what comes after it is the whole text. -/
theorem append_of_after? {spelling text rest : List Char}
    (found : after? spelling text = some rest) : spelling ++ rest = text := by
  induction spelling generalizing text with
  | nil =>
      simp only [after?, Option.some.injEq] at found
      exact found.symm
  | cons c spelling ih =>
      cases text with
      | nil => cases found
      | cons d text =>
          simp only [after?] at found
          split at found
          · rename_i same
            rw [same]
            exact congrArg (d :: ·) (ih found)
          · cases found

/-- Every spelling of a symbol has a character. -/
theorem symbolSpellings_ne_nil : ∀ entry ∈ symbolSpellings, entry.1 ≠ [] := by
  decide

/-- A reading loses nothing and consumes something. -/
def Lexeme.Reads (lexeme : Lexeme) (text : List Char) : Prop :=
  lexeme.text ≠ [] ∧ lexeme.text ++ lexeme.rest = text

/-- What is left after a reading is shorter than the text. -/
theorem Lexeme.Reads.length_lt {lexeme : Lexeme} {text : List Char}
    (reads : lexeme.Reads text) : lexeme.rest.length < text.length := by
  have positive := List.length_pos_iff.2 reads.1
  have total := congrArg List.length reads.2
  rw [List.length_append] at total
  omega

/-- The symbol at the front of a text is a reading of it. -/
theorem symbol?_reads {text : List Char} {lexeme : Lexeme}
    (found : symbol? text = some lexeme) : lexeme.Reads text := by
  rw [symbol?, List.findSome?_eq_some_iff] at found
  obtain ⟨before, entry, behind, split, matched, _⟩ := found
  obtain ⟨rest, reached, same⟩ := Option.map_eq_some_iff.1 matched
  rw [← same]
  exact ⟨symbolSpellings_ne_nil entry (by simp [split]), append_of_after? reached⟩

/-- The characters of a string literal followed by the rest are the text after its opening
quote. -/
theorem stringBody_append {state : StringState} {text : List Char} {literal : StringLiteral}
    (read : stringBody state text = .ok literal) : literal.text ++ literal.rest = text := by
  induction text generalizing state literal with
  | nil => cases state <;> cases read
  | cons c text ih =>
      have prepended {inner : StringState} {value : Option Char}
          (read : (stringBody inner text).map (StringLiteral.prepend c value) = .ok literal) :
          literal.text ++ literal.rest = c :: text := by
        cases body : stringBody inner text with
        | error fault =>
            rw [body] at read
            cases read
        | ok tail =>
            rw [body] at read
            cases read
            exact congrArg (c :: ·) (ih body)
      cases state with
      | plain =>
          simp only [stringBody] at read
          split at read
          · cases read
            rfl
          · split at read
            · exact prepended read
            · split at read
              · cases read
              · exact prepended read
      | escape =>
          simp only [stringBody] at read
          split at read
          · exact prepended read
          · split at read
            · exact prepended read
            · cases read
      | brace =>
          simp only [stringBody] at read
          split at read
          · exact prepended read
          · cases read
      | hex digits =>
          simp only [stringBody] at read
          split at read
          · split at read
            · cases read
            · split at read
              · exact prepended read
              · cases read
          · split at read
            · exact prepended read
            · cases read

/-- A string literal is a reading of its quote and the text after it. -/
theorem string_reads {quote : Char} {rest : List Char} {lexeme : Lexeme}
    (read : string quote rest = .ok lexeme) : lexeme.Reads (quote :: rest) := by
  rw [string] at read
  cases body : stringBody .plain rest with
  | error fault =>
      rw [body] at read
      cases read
  | ok literal =>
      rw [body] at read
      cases read
      exact ⟨List.cons_ne_nil _ _, congrArg (quote :: ·) (stringBody_append body)⟩

/-- A number is a reading of a text that begins with a digit. -/
theorem number_reads {c : Char} (digit : (digit? c).isSome = true) (rest : List Char) :
    (number (c :: rest)).Reads (c :: rest) := by
  have whole : (splitDigits (c :: rest)).1 ≠ [] := by
    simp [splitDigits, digit, consume]
  have joined := splitDigits_append (c :: rest)
  simp only [number]
  split
  · rename_i more point
    split
    · exact ⟨whole, joined⟩
    · refine ⟨List.append_ne_nil_of_left_ne_nil whole _, ?_⟩
      have fraction := splitDigits_append more
      rw [point] at joined
      simp only [List.append_assoc, List.cons_append, fraction]
      exact joined
  · exact ⟨whole, joined⟩

/-- A second word with the gap before it, followed by the rest, is the whole text. -/
theorem secondWord?_append {second text gap rest : List Char}
    (found : secondWord? second text = some (gap, rest)) : gap ++ rest = text := by
  simp only [secondWord?] at found
  split at found
  · split at found
    · rename_i tail reached
      split at found
      · cases found
      · cases found
        rw [List.append_assoc, append_of_after? reached]
        exact List.takeWhile_append_dropWhile
    · cases found
  · cases found

/-- A word is a reading of a text that begins with a letter. -/
theorem word_reads {c : Char} (start : isWordStart c = true) (rest : List Char) :
    (word (c :: rest)).Reads (c :: rest) := by
  have continues : isWordChar c = true := by
    simp only [isWordStart, isWordChar, Bool.or_eq_true] at start ⊢
    rcases start with letter | underscore
    · exact Or.inl (Or.inl (Or.inl (Or.inl letter)))
    · exact Or.inl (Or.inl (Or.inr underscore))
  have noAmpersand : c ≠ '&' := by
    intro ampersand
    subst ampersand
    revert start
    decide
  have letters : (splitWord (c :: rest)).1 ≠ [] := by
    simp [splitWord, continues, noAmpersand, consume]
  have joined := splitWord_append (c :: rest)
  simp only [word]
  split
  · exact ⟨letters, joined⟩
  · split
    · split
      · rename_i second rest' found
        refine ⟨List.append_ne_nil_of_left_ne_nil letters _, ?_⟩
        rw [List.append_assoc, secondWord?_append found]
        exact joined
      · exact ⟨letters, joined⟩
    · exact ⟨letters, joined⟩

/-- Every token is a reading of the text that it begins. -/
theorem lexeme_reads {c : Char} {rest : List Char} {token : Lexeme}
    (read : lexeme c rest = .ok token) : token.Reads (c :: rest) := by
  simp only [lexeme] at read
  split at read
  · rename_i found
    cases read
    exact symbol?_reads found
  · split at read
    · cases read
    · split at read
      · exact string_reads read
      · split at read
        · rename_i digit
          cases read
          exact number_reads digit rest
        · split at read
          · rename_i start
            cases read
            exact word_reads start rest
          · cases read

/-- Cut a text into tokens, the first character having the given position. The last token is
the end of the text. -/
def tokensFrom (pos : Position) (text : List Char) : Except SyntaxError (List Token) :=
  match _trivia : splitTrivia false text with
  | (gap, []) => .ok [⟨.eof, pos.advance gap⟩]
  | (gap, c :: rest) =>
    let start := pos.advance gap
    match _read : lexeme c rest with
    | .error fault => .error ⟨fault, start⟩
    | .ok token =>
      (tokensFrom (start.advance token.text) token.rest).map (⟨token.kind, start⟩ :: ·)
termination_by text.length
decreasing_by
  have whole := congrArg List.length (splitTrivia_append false text)
  rw [_trivia, List.length_append] at whole
  have shorter := (lexeme_reads _read).length_lt
  simp only at whole
  omega

end Qalam.Scan

namespace Qalam

/-- The tokens of a source text. -/
def tokenize (source : String) : Except SyntaxError (List Token) :=
  Scan.tokensFrom .start source.toList

end Qalam
