/-
# Where tokens begin

Cutting a text into tokens comes from one token to the next, past the blanks and comments between
them. The places that it comes to in this way are the beginnings of tokens, and a token has the
position to which the characters before it lead. A character at which no token can begin or be
completed stands at such a place, too. So every position that is recorded in this way lies in the
text: on one of its lines, and at most one column behind the last character of that line.
-/

import Qalam.Proofs.Layout.LineBreak
import Qalam.Proofs.Layout.Concatenation

namespace Qalam

namespace Position

/-- A position lies in a text: there is such a line, and the column is at most one behind its last
character. -/
structure LiesIn (pos : Position) (text : List Char) : Prop where
  line_pos : 1 ≤ pos.line
  line_le : pos.line ≤ 1 + text.count '\n'
  column_pos : 1 ≤ pos.column
  column_le : ∃ line, (text.splitOn '\n')[pos.line - 1]? = some line ∧
    pos.column ≤ line.length + 1

theorem column_pos_step {pos : Position} (positive : 1 ≤ pos.column) (c : Char) :
    1 ≤ (pos.step c).column := by
  rw [step]
  split
  · exact le_rfl
  · exact Nat.le_add_right_of_le positive

theorem column_pos_advance {pos : Position} (positive : 1 ≤ pos.column) (text : List Char) :
    1 ≤ (pos.advance text).column := by
  induction text generalizing pos with
  | nil => exact positive
  | cons c rest ih => exact ih (column_pos_step positive c)

/-- Behind the first part of a text the column exceeds what there is of the line by no more than it
did at the beginning, and by no more than one if the line began later. -/
theorem column_advance_le (before behind : List Char) (pos : Position) :
    ∃ line, ((before ++ behind).splitOn '\n')[before.count '\n']? = some line ∧
      (pos.advance before).column ≤
        line.length + if '\n' ∈ before then 1 else pos.column := by
  induction before generalizing pos with
  | nil =>
      obtain ⟨line, others, split⟩ :=
        List.exists_cons_of_ne_nil (List.splitOnP_ne_nil (· == '\n') behind)
      refine ⟨line, ?_, ?_⟩
      · rw [List.nil_append, List.splitOn_eq_splitOnP, split]
        rfl
      · simp [advance]
  | cons c rest ih =>
      obtain ⟨line, found, bound⟩ := ih (pos.step c)
      rw [List.splitOn_eq_splitOnP] at found
      rw [List.cons_append, List.splitOn_eq_splitOnP, List.splitOnP_cons_eq_if_modifyHead]
      by_cases feed : c = '\n'
      · subst feed
        refine ⟨line, ?_, ?_⟩
        · simpa using found
        · have fresh : (pos.step '\n').column = 1 := rfl
          rw [fresh, ite_self] at bound
          rw [if_pos List.mem_cons_self]
          exact bound
      · have wider : (pos.step c).column = pos.column + 1 := by rw [step, if_neg feed]
        have other : (c == '\n') = false := by simpa using feed
        have later : '\n' ∈ c :: rest ↔ '\n' ∈ rest := by simp [Ne.symm feed]
        rw [wider] at bound
        rw [other, List.count_cons_of_ne feed]
        simp only [later, Bool.false_eq_true, if_false, List.getElem?_modifyHead]
        by_cases below : '\n' ∈ rest
        · -- the line of the place is a later one, which the character is not on
          have index : rest.count '\n' ≠ 0 := (List.count_pos_iff.mpr below).ne'
          rw [if_pos below] at bound
          refine ⟨line, by simpa [index] using found, ?_⟩
          rw [if_pos below]
          exact bound
        · have index : rest.count '\n' = 0 := List.count_eq_zero.mpr below
          rw [if_neg below] at bound
          refine ⟨c :: line, ?_, ?_⟩
          · rw [index] at found ⊢
            simp [found]
          · rw [if_neg below, List.length_cons]
            exact bound.trans (by omega)

/-- The characters before a place of a text lead to a position in the text. -/
theorem liesIn_advance (before behind : List Char) :
    (start.advance before).LiesIn (before ++ behind) := by
  have line : (start.advance before).line = 1 + before.count '\n' := line_advance start before
  obtain ⟨content, found, bound⟩ := column_advance_le before behind start
  have one : (if '\n' ∈ before then 1 else start.column) = 1 := ite_self 1
  rw [one] at bound
  constructor
  · omega
  · rw [line, List.count_append]
    omega
  · exact column_pos_advance le_rfl before
  · refine ⟨content, ?_, bound⟩
    rw [line, Nat.add_sub_cancel_left]
    exact found

end Position

namespace Scan

/-- Cutting a text into tokens comes past its first part to what is left, where the next token
begins or the text ends. -/
inductive Reaches : List Char → List Char → List Char → Prop
  | gap (text : List Char) : Reaches text (splitTrivia false text).1 (splitTrivia false text).2
  | token {text gap rest before behind : List Char} {c : Char} {token : Lexeme} :
      splitTrivia false text = (gap, c :: rest) → lexeme c rest = .ok token →
      Reaches token.rest before behind → Reaches text (gap ++ (token.text ++ before)) behind

/-- What a text begins with: the end, if it is empty, or else a token of the given kind. -/
def Begins (kind : TokenKind) : List Char → Prop
  | [] => kind = .eof
  | c :: rest => ∃ token, lexeme c rest = .ok token ∧ token.kind = kind

theorem Reaches.append {text before behind : List Char} (reaches : Reaches text before behind) :
    before ++ behind = text := by
  induction reaches with
  | gap text => exact splitTrivia_append false text
  | @token text _ _ _ _ _ _ trivia lexed _ ih =>
      have whole := splitTrivia_append false text
      rw [trivia] at whole
      rw [List.append_assoc, List.append_assoc, ih, (lexeme_reads lexed).2]
      exact whole

/-- Blanks and comments at the beginning of a text only move its tokens. -/
theorem tokensFrom_of_gap {pos : Position} {text gap rest : List Char}
    (trivia : splitTrivia false text = (gap, rest)) (solid : splitTrivia false rest = ([], rest)) :
    tokensFrom pos text = tokensFrom (pos.advance gap) rest := by
  cases rest with
  | nil =>
      rw [tokensFrom_of_nil trivia, tokensFrom_of_nil solid]
      rfl
  | cons c rest =>
      rw [tokensFrom_of_cons trivia, tokensFrom_of_cons solid]
      rfl

/-- Cutting a text goes on, at a place that it comes to and where no blank and no comment stands, as
if the text began there. -/
theorem Reaches.tokensFrom_eq {text before behind : List Char}
    (reaches : Reaches text before behind) (solid : splitTrivia false behind = ([], behind))
    (pos : Position) :
    ∃ tokens, tokensFrom pos text =
      (tokensFrom (pos.advance before) behind).map (tokens ++ ·) := by
  induction reaches generalizing pos with
  | gap text =>
      refine ⟨[], ?_⟩
      rw [tokensFrom_of_gap rfl solid]
      cases tokensFrom _ _ <;> rfl
  | @token text gap rest before behind c token trivia lexed _ ih =>
      obtain ⟨tokens, further⟩ := ih solid ((pos.advance gap).advance token.text)
      refine ⟨⟨token.kind, pos.advance gap⟩ :: tokens, ?_⟩
      rw [tokensFrom_of_cons trivia, lexed]
      dsimp only
      rw [further, Position.advance_append, Position.advance_append]
      cases tokensFrom _ behind <;> rfl

/-- Every token begins at a place that cutting the text comes to, and has the position to which the
characters before that place lead. -/
theorem reaches_of_mem {pos : Position} {text : List Char} {tokens : List Token}
    (read : tokensFrom pos text = .ok tokens) :
    ∀ token ∈ tokens, ∃ before behind, Reaches text before behind ∧
      token.pos = pos.advance before ∧ Begins token.kind behind := by
  fun_induction tokensFrom pos text generalizing tokens with
  | case1 pos text gap trivia =>
      cases read
      rw [List.forall_mem_singleton]
      have reaches := Reaches.gap text
      rw [trivia] at reaches
      exact ⟨gap, [], reaches, rfl, rfl⟩
  | case2 => cases read
  | case3 pos text gap c rest trivia start lexed found =>
      rename_i ih
      obtain ⟨others, further, rfl⟩ := exists_of_map_ok read
      rw [List.forall_mem_cons]
      constructor
      · have reaches := Reaches.gap text
        rw [trivia] at reaches
        exact ⟨gap, c :: rest, reaches, rfl, lexed, found, rfl⟩
      · intro token mem
        obtain ⟨before, behind, reaches, place, begins⟩ := ih further token mem
        refine ⟨_, behind, .token trivia found reaches, ?_, begins⟩
        rw [Position.advance_append, Position.advance_append]
        exact place

/-- A text is refused at a place that cutting it comes to, for what is wrong with the token
there. -/
theorem reaches_of_error {pos : Position} {text : List Char} {error : SyntaxError}
    (refused : tokensFrom pos text = .error error) :
    ∃ before c rest, Reaches text before (c :: rest) ∧ error.pos = pos.advance before ∧
      lexeme c rest = .error error.fault := by
  fun_induction tokensFrom pos text with
  | case1 => cases refused
  | case2 pos text gap c rest trivia start fault lexed =>
      cases refused
      have reaches := Reaches.gap text
      rw [trivia] at reaches
      exact ⟨gap, c, rest, reaches, rfl, lexed⟩
  | case3 pos text gap c rest trivia start token lexed =>
      rename_i ih
      have further : tokensFrom (start.advance token.text) token.rest = .error error := by
        cases reached : tokensFrom (start.advance token.text) token.rest with
        | ok tokens =>
            rw [reached] at refused
            cases refused
        | error error' =>
            rw [reached] at refused
            cases refused
            rfl
      obtain ⟨before, c', rest', reaches, place, wrong⟩ := ih further
      refine ⟨_, c', rest', .token trivia lexed reaches, ?_, wrong⟩
      rw [Position.advance_append, Position.advance_append]
      exact place

end Scan

end Qalam
