/-
# Blanks separate tokens

No token reaches over a blank, but for a string literal, which ends at its own quote, and for the
keyword of two words, which goes on behind spaces and tabs. So a token that can be read at the
front of a text is read there as well if a blank and more text come behind it. Only the first word
of the keyword needs care: spaces and tabs at the end of the text may be followed by the second.
-/

import Qalam.Proofs.Grammar.Program
import Qalam.Proofs.Lexing.Literals

namespace Qalam.Scan

/-! ## Blank characters -/

section

variable {c : Char} (blank : Text.isBlank c = true)

include blank

theorem not_isWordChar_of_blank : isWordChar c = false :=
  Text.of_isBlank (isWordChar · = false) (by decide +kernel) blank

theorem not_digit_of_blank : (digit? c).isSome = false :=
  Text.of_isBlank (fun c => (digit? c).isSome = false) (by decide +kernel) blank

/-- No symbol has a blank in it. -/
theorem not_mem_symbolSpellings_of_blank : ∀ entry ∈ symbolSpellings, c ∉ entry.1 :=
  Text.of_isBlank (fun c => ∀ entry ∈ symbolSpellings, c ∉ entry.1) (by decide +kernel) blank

theorem not_mem_second_of_blank : c ∉ "ذلك".toList :=
  Text.of_isBlank (· ∉ "ذلك".toList) (by decide +kernel) blank

/-- A blank is a different character from each that is no blank. -/
theorem ne_of_blank {d : Char} (solid : Text.isBlank d = false) : c ≠ d := by
  rintro rfl
  exact Bool.false_ne_true (solid.symm.trans blank)

end

/-- Spaces and tabs are blanks. -/
theorem isBlank_of_isGap {c : Char} (gap : isGap c = true) : Text.isBlank c = true := by
  rw [isGap, Bool.or_eq_true, decide_eq_true_iff, decide_eq_true_iff] at gap
  rcases gap with rfl | rfl <;> decide

/-! ## Parts of tokens -/

/-- What was read, with more text behind it. -/
def Lexeme.before (lexeme : Lexeme) (more : List Char) : Lexeme :=
  { lexeme with rest := lexeme.rest ++ more }

section

variable {b : Char} {holds : Char → Bool} {text : List Char} (more : List Char)

/-- Where a text with a character behind it begins with something that holds, so does the text. -/
theorem any_head?_append (ends : holds b = false ∨ ∃ c ∈ text, holds c = false) :
    (text ++ b :: more).head?.any holds = text.head?.any holds := by
  cases text with
  | nil => simpa using ends
  | cons => rfl

theorem takeWhile_append (ends : holds b = false ∨ ∃ c ∈ text, holds c = false) :
    (text ++ b :: more).takeWhile holds = text.takeWhile holds := by
  induction text with
  | nil =>
      have other : holds b = false := by simpa using ends
      rw [List.nil_append, List.takeWhile_cons, other]
      rfl
  | cons c rest ih =>
      rw [List.cons_append, List.takeWhile_cons, List.takeWhile_cons]
      cases held : holds c with
      | false => rfl
      | true =>
          have further : holds b = false ∨ ∃ d ∈ rest, holds d = false := by simpa [held] using ends
          rw [if_pos rfl, if_pos rfl, ih further]

theorem dropWhile_append (ends : holds b = false ∨ ∃ c ∈ text, holds c = false) :
    (text ++ b :: more).dropWhile holds = text.dropWhile holds ++ b :: more := by
  induction text with
  | nil =>
      have other : holds b = false := by simpa using ends
      rw [List.nil_append, List.dropWhile_cons, other]
      rfl
  | cons c rest ih =>
      rw [List.cons_append, List.dropWhile_cons, List.dropWhile_cons]
      cases held : holds c with
      | false => rfl
      | true =>
          have further : holds b = false ∨ ∃ d ∈ rest, holds d = false := by simpa [held] using ends
          rw [if_pos rfl, if_pos rfl, ih further]

/-- The text after a spelling is the same with a character behind it that the spelling lacks. -/
theorem after?_append {spelling : List Char} (plain : b ∉ spelling) (text : List Char) :
    after? spelling (text ++ b :: more) = (after? spelling text).map (· ++ b :: more) := by
  induction spelling generalizing text with
  | nil => rfl
  | cons c spelling ih =>
      rw [List.mem_cons, not_or] at plain
      cases text with
      | nil => simp [after?, Ne.symm plain.1]
      | cons d text =>
          simp only [List.cons_append, after?]
          split
          · exact ih plain.2 text
          · rfl

/-- The gap before a second word, and that word, are not changed by what comes behind them. -/
theorem secondWord?_append_right {second : List Char} (plain : b ∉ second)
    (other : isWordChar b = false) (ends : isGap b = false ∨ ∃ c ∈ text, isGap c = false) :
    secondWord? second (text ++ b :: more) =
      (secondWord? second text).map fun found => (found.1, found.2 ++ b :: more) := by
  rw [secondWord?, secondWord?, any_head?_append more ends, takeWhile_append more ends,
    dropWhile_append more ends, after?_append more plain]
  split
  · cases after? second (text.dropWhile isGap) with
    | none => rfl
    | some behind =>
        simp only [Option.map_some, any_head?_append more (.inl other)]
        split <;> rfl
  · rfl

/-- A second word that is found is no gap. -/
theorem exists_notGap_of_secondWord? {second : List Char} (letter : second.head?.any isGap = false)
    (some : second ≠ []) {found : List Char × List Char}
    (read : secondWord? second text = .some found) : ∃ c ∈ text, isGap c = false := by
  simp only [secondWord?] at read
  split at read
  · split at read
    · rename_i behind reached
      cases second with
      | nil => exact absurd rfl some
      | cons c second =>
          have inside : c ∈ text.dropWhile isGap := by
            rw [← append_of_after? reached]
            exact List.mem_cons_self
          exact ⟨c, (List.dropWhile_sublist _).mem inside, letter⟩
    · cases read
  · cases read

end

section

variable {b : Char} (blank : Text.isBlank b = true) (more : List Char)

include blank

theorem splitDigits_blank (text : List Char) :
    splitDigits (text ++ b :: more) =
      ((splitDigits text).1, (splitDigits text).2 ++ b :: more) := by
  induction text with
  | nil => simp [splitDigits, not_digit_of_blank blank]
  | cons c rest ih =>
      simp only [List.cons_append, splitDigits, ih]
      split <;> rfl

theorem splitWord_blank (text : List Char) :
    splitWord (text ++ b :: more) = ((splitWord text).1, (splitWord text).2 ++ b :: more) := by
  induction text with
  | nil => simp [splitWord, not_isWordChar_of_blank blank]
  | cons c rest ih =>
      have next : ((rest ++ b :: more).head? = some '&') = (rest.head? = some '&') := by
        have other := ne_of_blank blank (show Text.isBlank '&' = false by decide)
        cases rest <;> simp [other]
      simp only [List.cons_append, splitWord, ih, next]
      split <;> rfl

theorem symbol?_blank (text : List Char) :
    symbol? (text ++ b :: more) = (symbol? text).map (·.before (b :: more)) := by
  have plain := not_mem_symbolSpellings_of_blank blank
  rw [symbol?, symbol?]
  generalize symbolSpellings = spellings at plain ⊢
  induction spellings with
  | nil => rfl
  | cons entry others ih =>
      rw [List.forall_mem_cons] at plain
      simp only [List.findSome?_cons, after?_append more plain.1, ih plain.2]
      cases after? entry.1 text <;> rfl

theorem number_blank (text : List Char) :
    number (text ++ b :: more) = (number text).before (b :: more) := by
  have notPoint := ne_of_blank blank (show Text.isBlank '.' = false by decide)
  simp only [number, splitDigits_blank blank]
  cases behind : (splitDigits text).2 with
  | nil =>
      rw [List.nil_append]
      split
      · rename_i same
        exact absurd (List.cons.inj same).1 notPoint
      · rfl
  | cons c others =>
      by_cases point : c = '.'
      · subst point
        simp only [List.cons_append, splitDigits_blank blank]
        split <;> rfl
      · rw [List.cons_append]
        split
        · rename_i same
          exact absurd (List.cons.inj same).1 point
        · split
          · rename_i same
            exact absurd (List.cons.inj same).1 point
          · rfl

/-- A word is the same with a blank behind it, unless it is the first word of the keyword with a
gap behind it that goes on. -/
theorem word_blank (text : List Char) (ends : (word text).kind = .ident "خلاف" →
      isGap b = false ∨ ∃ c ∈ (word text).rest, isGap c = false) :
    word (text ++ b :: more) = (word text).before (b :: more) := by
  have plain := not_mem_second_of_blank blank
  have other := not_isWordChar_of_blank blank
  simp only [word, splitWord_blank blank]
  simp only [word] at ends
  split
  · rfl
  · rename_i free
    rw [free] at ends
    split
    · rename_i first
      rw [if_pos first] at ends
      cases found : secondWord? "ذلك".toList (splitWord text).2 with
      | none =>
          rw [found] at ends
          have noGap := ends (congrArg TokenKind.ident first)
          rw [secondWord?_append_right more plain other noGap, found]
          rfl
      | some second =>
          have letter := exists_notGap_of_secondWord? (by decide) (by decide) found
          rw [secondWord?_append_right more plain other (.inr letter), found]
          rfl
    · rfl

end

/-! ## Tokens -/

theorem string_append_right (more : List Char) {quote : Char} {rest : List Char} {lexeme : Lexeme}
    (read : string quote rest = .ok lexeme) :
    string quote (rest ++ more) = .ok (lexeme.before more) := by
  rw [string] at read ⊢
  cases body : stringBody .plain rest with
  | error fault =>
      rw [body] at read
      cases read
  | ok literal =>
      rw [body] at read
      cases read
      rw [stringBody_append_right more body]
      rfl

/-- A token is the same with a blank and more text behind it, unless it is the first word of the
keyword with a gap behind it that goes on. -/
theorem lexeme_blank {b : Char} (blank : Text.isBlank b = true) (more : List Char) {c : Char}
    {rest : List Char} {token : Lexeme} (read : lexeme c rest = .ok token)
    (ends : token.kind = .ident "خلاف" → isGap b = false ∨ ∃ d ∈ token.rest, isGap d = false) :
    lexeme c (rest ++ b :: more) = .ok (token.before (b :: more)) := by
  have symbols := symbol?_blank blank more (c :: rest)
  have numbers := number_blank blank more (c :: rest)
  have words := word_blank blank more (c :: rest)
  rw [List.cons_append] at symbols numbers words
  simp only [lexeme, symbols, numbers] at read ⊢
  cases found : symbol? (c :: rest) with
  | some sign =>
      rw [found] at read
      cases read
      rfl
  | none =>
      rw [found] at read
      dsimp only [Option.map_none] at read ⊢
      by_cases half : (c = '&' || c = '|') = true
      · rw [if_pos half] at read
        cases read
      · rw [if_neg half] at read ⊢
        by_cases quote : c = '"'
        · rw [if_pos quote] at read ⊢
          exact string_append_right _ read
        · rw [if_neg quote] at read ⊢
          by_cases digit : (digit? c).isSome = true
          · rw [if_pos digit] at read ⊢
            cases read
            rfl
          · rw [if_neg digit] at read ⊢
            by_cases letter : isWordStart c = true
            · rw [if_pos letter] at read ⊢
              cases read
              rw [words ends]
            · rw [if_neg letter] at read
              cases read

/-! ## The tokens of a text, one after another -/

/-- What becomes of a character in front of a text when blanks and comments are split off: it goes
with them or it does not, which takes no more of the text than whether a slash is next. -/
theorem splitTrivia_cons (inComment : Bool) (c : Char) (slash : Bool) :
    (∃ state, ∀ text, decide (text.head? = some '/') = slash →
      splitTrivia inComment (c :: text) = consume c (splitTrivia state text)) ∨
    ∀ text, decide (text.head? = some '/') = slash →
      splitTrivia inComment (c :: text) = ([], c :: text) := by
  by_cases comment : inComment = true
  · exact .inl ⟨c ≠ '\n', fun text _ => by rw [splitTrivia, if_pos comment]⟩
  by_cases space : Text.isBlank c = true
  · exact .inl ⟨false, fun text _ => by rw [splitTrivia, if_neg comment, if_pos space]⟩
  by_cases begins : (c = '/' && slash) = true
  · refine .inl ⟨true, fun text next => ?_⟩
    rw [splitTrivia, if_neg comment, if_neg space, next, if_pos begins]
  · refine .inr fun text next => ?_
    rw [splitTrivia, if_neg comment, if_neg space, next, if_neg begins]

/-- Blanks and comments in front of a token end there whatever blank comes behind it. -/
theorem splitTrivia_of_blank {b : Char} (blank : Text.isBlank b = true) (more : List Char)
    {inComment : Bool} {text gap rest : List Char} {c : Char}
    (split : splitTrivia inComment text = (gap, c :: rest)) :
    splitTrivia inComment (text ++ b :: more) = (gap, c :: (rest ++ b :: more)) := by
  have notSlash := ne_of_blank blank (show Text.isBlank '/' = false by decide)
  induction text generalizing inComment gap with
  | nil => cases split
  | cons d text ih =>
      have next : decide ((text ++ b :: more).head? = some '/') =
          decide (text.head? = some '/') := by
        cases text <;> simp [notSlash]
      rcases splitTrivia_cons inComment d (text.head? = some '/') with ⟨state, step⟩ | step
      · rw [step text rfl] at split
        rw [List.cons_append, step _ next]
        cases inner : splitTrivia state text with
        | mk gap' rest' =>
            rw [inner] at split
            cases split
            rw [ih inner]
            rfl
      · rw [step text rfl] at split
        rw [List.cons_append, step _ next]
        cases split
        rfl

theorem tokensFrom_of_nil {pos : Position} {text gap : List Char}
    (trivia : splitTrivia false text = (gap, [])) :
    tokensFrom pos text = .ok [⟨.eof, pos.advance gap⟩] := by
  unfold tokensFrom
  split
  · rename_i found
    cases found.symm.trans trivia
    rfl
  · rename_i found
    cases found.symm.trans trivia

theorem tokensFrom_of_cons {pos : Position} {text gap rest : List Char} {c : Char}
    (trivia : splitTrivia false text = (gap, c :: rest)) :
    tokensFrom pos text = match lexeme c rest with
      | .error fault => .error ⟨fault, pos.advance gap⟩
      | .ok token => (tokensFrom ((pos.advance gap).advance token.text) token.rest).map
          (⟨token.kind, pos.advance gap⟩ :: ·) := by
  conv => left; unfold tokensFrom
  split
  · rename_i found
    cases found.symm.trans trivia
  · rename_i found
    cases found.symm.trans trivia
    dsimp only
    split <;> rename_i read <;> rw [read]

end Qalam.Scan
