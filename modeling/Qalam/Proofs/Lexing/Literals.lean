/-
# String literals and what stands around them

Whether a character stands in a string literal is decided by the quotes and backslashes before it,
without anything else that the lexer knows. What the reader of a string literal does with a
character does not depend on what follows: the literal ends, it is refused, or the reader goes on.
So a literal that ends is not changed by what comes behind it, its end is the one that quotes and
backslashes tell, and a literal that ends within a text is read from that text alone.
-/

import Qalam.Token.Stream

namespace Qalam.Scan

/-- Where a reader stands who knows of nothing but string literals and their escapes. -/
inductive Spot
  | outside | inside | escaped
  deriving DecidableEq

namespace Spot

/-- The spot behind one more character. A quote begins a literal or ends it, but one behind a
backslash belongs to it. -/
def step : Spot → Char → Spot
  | outside, c => if c = '"' then inside else outside
  | inside, c => if c = '"' then outside else if c = '\\' then escaped else inside
  | escaped, _ => inside

/-- The spot behind a text. -/
def after (spot : Spot) (text : List Char) : Spot := text.foldl step spot

theorem after_append (spot : Spot) (text more : List Char) :
    spot.after (text ++ more) = (spot.after text).after more :=
  List.foldl_append

/-- A text without quotes begins no literal. -/
theorem after_of_notMem {text : List Char} (plain : '"' ∉ text) : outside.after text = outside := by
  induction text with
  | nil => rfl
  | cons c rest ih =>
      rw [List.mem_cons, not_or] at plain
      change (outside.step c).after rest = outside
      rw [step, if_neg (Ne.symm plain.1)]
      exact ih plain.2

end Spot

/-- The spot at which the reader of a string literal stands. -/
def StringState.spot : StringState → Spot
  | escape => .escaped
  | plain | brace | hex _ => .inside

/-- What the reader of a string literal does with a character, whatever follows it. -/
inductive StringState.Does (state : StringState) (c : Char) : Prop
  | ends (spot : state.spot.step c = .outside)
      (read : ∀ rest, stringBody state (c :: rest) = .ok ⟨[], [c], rest⟩)
  | refuses (fault : SyntaxFault) (read : ∀ rest, stringBody state (c :: rest) = .error fault)
  | goesOn (next : StringState) (value : Option Char) (spot : state.spot.step c = next.spot)
      (read : ∀ rest,
        stringBody state (c :: rest) = (stringBody next rest).map (.prepend c value))

theorem StringState.does (state : StringState) (c : Char) : state.Does c := by
  cases state with
  | plain =>
      by_cases quote : c = '"'
      · exact .ends (by simp [spot, Spot.step, quote]) fun rest => by simp [stringBody, quote]
      by_cases backslash : c = '\\'
      · refine .goesOn .escape none ?_ fun rest => ?_
        · simp [spot, Spot.step, backslash]
        · rw [stringBody, if_neg quote, if_pos backslash]
      by_cases feed : c = '\n'
      · exact .refuses .lineFeedInString fun rest => by simp [stringBody, feed]
      · refine .goesOn .plain (some c) ?_ fun rest => ?_
        · simp [spot, Spot.step, quote, backslash]
        · rw [stringBody, if_neg quote, if_neg backslash, if_neg feed]
  | escape =>
      by_cases code : c = 'u'
      · exact .goesOn .brace none rfl fun rest => by rw [stringBody, if_pos code]
      cases known : simpleEscape? c with
      | some value =>
          exact .goesOn .plain (some value) rfl fun rest => by
            rw [stringBody, if_neg code, known]
      | none =>
          exact .refuses (.invalidEscape c) fun rest => by rw [stringBody, if_neg code, known]
  | brace =>
      by_cases opening : c = '\x7b'
      · refine .goesOn (.hex []) none ?_ fun rest => by rw [stringBody, if_pos opening]
        simp [spot, Spot.step, opening]
      · exact .refuses .unicodeEscapeWithoutBrace fun rest => by rw [stringBody, if_neg opening]
  | hex digits =>
      by_cases closing : c = '\x7d'
      · cases empty : digits.isEmpty with
        | true =>
            exact .refuses .invalidUnicodeEscape fun rest => by
              rw [stringBody, if_pos closing, if_pos empty]
        | false =>
            cases known : charOfCode? (hexValue digits) with
            | none =>
                exact .refuses (.invalidCodePoint (String.ofList digits)) fun rest => by
                  rw [stringBody, if_pos closing, empty, if_neg Bool.false_ne_true, known]
            | some value =>
                refine .goesOn .plain (some value) ?_ fun rest => ?_
                · simp [spot, Spot.step, closing]
                · rw [stringBody, if_pos closing, empty, if_neg Bool.false_ne_true, known]
      by_cases further : ((hexDigit? c).isSome && digits.length < 6) = true
      · refine .goesOn (.hex (digits ++ [c])) none ?_ fun rest => ?_
        · -- neither a quote nor a backslash is a digit
          have other : ∀ d, (hexDigit? d).isSome = false → c ≠ d := by
            rintro d none rfl
            rw [none] at further
            cases further
          simp [spot, Spot.step, other '"' (by decide), other '\\' (by decide)]
        · rw [stringBody, if_neg closing, if_pos further]
      · exact .refuses .invalidUnicodeEscape fun rest => by
          rw [stringBody, if_neg closing, if_neg further]

/-- A literal behind its first character. -/
theorem exists_of_prepend {c : Char} {value : Option Char}
    {read : Except SyntaxFault StringLiteral} {literal : StringLiteral}
    (found : read.map (.prepend c value) = .ok literal) :
    ∃ behind, read = .ok behind ∧ literal = behind.prepend c value := by
  cases read with
  | error fault => cases found
  | ok behind =>
      cases found
      exact ⟨behind, rfl, rfl⟩

section

variable {state : StringState} {text : List Char} {literal : StringLiteral}

/-- A string literal that ends is not changed by what comes behind it. -/
theorem stringBody_append_right (more : List Char) (read : stringBody state text = .ok literal) :
    stringBody state (text ++ more) = .ok { literal with rest := literal.rest ++ more } := by
  induction text generalizing state literal with
  | nil => cases state <;> cases read
  | cons c text ih =>
      rw [List.cons_append]
      cases state.does c with
      | ends _ step =>
          rw [step] at read ⊢
          cases read
          rfl
      | refuses fault step =>
          rw [step] at read
          cases read
      | goesOn next value _ step =>
          rw [step] at read ⊢
          obtain ⟨behind, further, rfl⟩ := exists_of_prepend read
          rw [ih further]
          rfl

/-- Behind a string literal nothing is open. -/
theorem after_of_stringBody (read : stringBody state text = .ok literal) :
    state.spot.after literal.text = .outside := by
  induction text generalizing state literal with
  | nil => cases state <;> cases read
  | cons c text ih =>
      cases state.does c with
      | ends spot step =>
          rw [step] at read
          cases read
          exact spot
      | refuses fault step =>
          rw [step] at read
          cases read
      | goesOn next value spot step =>
          rw [step] at read
          obtain ⟨behind, further, rfl⟩ := exists_of_prepend read
          change (state.spot.step c).after behind.text = _
          rw [spot]
          exact ih further

/-- A literal that is read from a text which ends outside of it can be read up to there. -/
theorem exists_of_stringBody_append {more : List Char}
    (read : stringBody state (text ++ more) = .ok literal)
    (closed : state.spot.after text = .outside) :
    ∃ shorter, stringBody state text = .ok shorter := by
  induction text generalizing state literal with
  | nil => cases state <;> cases closed
  | cons c text ih =>
      rw [List.cons_append] at read
      cases state.does c with
      | ends _ step => exact ⟨_, step text⟩
      | refuses fault step =>
          rw [step] at read
          cases read
      | goesOn next value spot step =>
          rw [step] at read
          obtain ⟨behind, further, -⟩ := exists_of_prepend read
          obtain ⟨shorter, here⟩ := ih further (spot ▸ closed)
          exact ⟨shorter.prepend c value, by rw [step, here]; rfl⟩

end

end Qalam.Scan
