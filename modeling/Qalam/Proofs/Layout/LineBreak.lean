/-
# Line feeds separate tokens

No token reaches over a line feed: a string literal with one is refused, and the two words of a
keyword stand on one line. Only blanks and comments go on, and a comment ends there. So a text
followed by a line feed and another text is cut into the tokens of the first, without its end, and
then into those of the second.
-/

import Qalam.Proofs.Lexing.Separation

namespace Qalam.Scan

variable (more : List Char)

/-! ## Blanks and comments -/

/-- Blanks and comments up to the end of a text go on behind a line feed, which ends a comment. -/
theorem splitTrivia_of_feed {inComment : Bool} {text gap : List Char}
    (split : splitTrivia inComment text = (gap, [])) :
    splitTrivia inComment (text ++ '\n' :: more) =
      (text ++ '\n' :: (splitTrivia false more).1, (splitTrivia false more).2) := by
  induction text generalizing inComment gap with
  | nil => cases inComment <;> rfl
  | cons d text ih =>
      have next : decide ((text ++ '\n' :: more).head? = some '/') =
          decide (text.head? = some '/') := by
        cases text <;> simp
      rcases splitTrivia_cons inComment d (text.head? = some '/') with ⟨state, step⟩ | step
      · rw [step text rfl] at split
        rw [List.cons_append, step _ next]
        cases inner : splitTrivia state text with
        | mk gap' rest' =>
            rw [inner] at split
            cases split
            rw [ih inner]
            rfl
      · rw [step text rfl] at split
        cases split

/-! ## Tokens -/

/-- Behind a text of blanks and comments the tokens are those of the other text. -/
theorem tokensFrom_trivia {text gap : List Char} (trivia : splitTrivia false text = (gap, []))
    (pos : Position) :
    tokensFrom pos (text ++ '\n' :: more) = tokensFrom (pos.advance (text ++ ['\n'])) more := by
  have whole := splitTrivia_of_feed more trivia
  have reached : ∀ gap', pos.advance (text ++ '\n' :: gap') =
      (pos.advance (text ++ ['\n'])).advance gap' := by
    intro gap'
    rw [← Position.advance_append, List.append_assoc]
    rfl
  cases behind : splitTrivia false more with
  | mk gap' rest =>
      rw [behind] at whole
      cases rest with
      | nil => rw [tokensFrom_of_nil whole, tokensFrom_of_nil behind, reached]
      | cons c rest => rw [tokensFrom_of_cons whole, tokensFrom_of_cons behind, reached]

/-- The tokens of a text with a line feed and another text behind it are its own, but for the last
one, and those of the other text. -/
theorem tokensFrom_break {pos : Position} {text : List Char} {tokens : List Token}
    (read : tokensFrom pos text = .ok tokens) :
    tokensFrom pos (text ++ '\n' :: more) =
      (tokensFrom (pos.advance (text ++ ['\n'])) more).map (tokens.dropLast ++ ·) := by
  fun_induction tokensFrom pos text generalizing tokens with
  | case1 pos text gap trivia =>
      cases read
      rw [tokensFrom_trivia more trivia]
      show _ = Except.map id _
      rw [Except.map_id]
      rfl
  | case2 => cases read
  | case3 pos text gap c rest trivia start token lexed =>
      rename_i ih
      obtain ⟨others, further, rfl⟩ := exists_of_map_ok read
      have whole := splitTrivia_of_blank (show Text.isBlank '\n' = true by decide) more trivia
      have joined : text = gap ++ (token.text ++ token.rest) := by
        rw [(lexeme_reads lexed).2]
        have parts := splitTrivia_append false text
        rw [trivia] at parts
        exact parts.symm
      have reached : pos.advance (text ++ ['\n']) =
          (start.advance token.text).advance (token.rest ++ ['\n']) := by
        rw [← Position.advance_append, ← Position.advance_append, joined]
        simp only [List.append_assoc]
      have full : others ≠ [] := by
        obtain ⟨body, last, rfl, -⟩ := tokensFrom_ends further
        simp
      rw [tokensFrom_of_cons whole, lexeme_blank (by decide) more lexed fun _ => .inl (by decide)]
      show Except.map _ (tokensFrom (start.advance token.text) (token.rest ++ '\n' :: more)) =
        Except.map ((_ :: others).dropLast ++ ·) _
      rw [ih further, reached, List.dropLast_cons_of_ne_nil full]
      cases tokensFrom ((start.advance token.text).advance (token.rest ++ ['\n'])) more <;> rfl

end Qalam.Scan
