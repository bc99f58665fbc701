/-
# Texts one below the other

Reading is compatible with writing one text below another: if both can be read, then so can the two
with a line feed between them, and the statements are those of the first followed by those of the
second, moved down. The text decides where a token stands only through the characters before it,
so the tokens of the second text move down together; and the statements of a program are complete,
so none of the first program can go on in the second.
-/

import Mathlib.Computability.Primrec.List
import Qalam.Compiler
import Qalam.Proofs.Layout.LineBreak
import Qalam.Proofs.Layout.Parsing

namespace Qalam

open Relabel

namespace Position

/-- The position that many lines further down. -/
def down (lines : Nat) (pos : Position) : Position := ⟨pos.line + lines, pos.column⟩

theorem down_step (lines : Nat) (pos : Position) (c : Char) :
    (pos.step c).down lines = (pos.down lines).step c := by
  rw [step, step]
  split
  · simp [down, Nat.add_right_comm]
  · rfl

/-- A text moves a position down by the number of its line feeds. -/
theorem line_advance (pos : Position) (text : List Char) :
    (pos.advance text).line = pos.line + text.count '\n' := by
  induction text generalizing pos with
  | nil => rfl
  | cons c rest ih =>
      show ((pos.step c).advance rest).line = _
      rw [ih, step]
      split
      · rename_i feed
        rw [feed, List.count_cons_self]
        show pos.line + 1 + _ = _
        omega
      · rename_i other
        simp [other]

/-- Below a text another one begins at the left. -/
theorem advance_break (text : List Char) :
    start.advance (text ++ ['\n']) = start.down (text.count '\n' + 1) := by
  rw [advance_append]
  show (⟨(start.advance text).line + 1, 1⟩ : Position) = _
  rw [line_advance, Nat.add_assoc]
  rfl

end Position

/-- Where a text begins matters only to the positions of its tokens. -/
theorem Scan.tokensFrom_relocate {move : Position → Position}
    (steps : ∀ pos c, move (pos.step c) = (move pos).step c) (pos : Position) (text : List Char) :
    tokensFrom (move pos) text = ((tokensFrom pos text).map
      (List.map (relocate move).token)).mapError (relocate move).syntaxError := by
  have advances : ∀ (pos : Position) (text : List Char),
      (move pos).advance text = move (pos.advance text) := by
    intro pos text
    induction text generalizing pos with
    | nil => rfl
    | cons c rest ih =>
        show ((move pos).step c).advance rest = _
        rw [← steps, ih]
        rfl
  fun_induction tokensFrom pos text with
  | case1 pos text gap trivia =>
      rw [tokensFrom_of_nil trivia, advances]
      rfl
  | case2 pos text gap c rest trivia start fault lexed =>
      rw [tokensFrom_of_cons trivia, lexed, advances]
      rfl
  | case3 pos text gap c rest trivia start token lexed =>
      rename_i ih
      rw [tokensFrom_of_cons trivia, lexed]
      show Except.map _ (tokensFrom (((move pos).advance gap).advance token.text) token.rest) = _
      rw [advances, advances, ih]
      cases tokensFrom (start.advance token.text) token.rest <;> rfl

/-- Statements one after the other are statements. -/
theorem Grammar.Forms.append {ts us : List Token} {first second : List Statement}
    (here : Forms .statements ts first) (there : Forms .statements us second) :
    Forms .statements (ts ++ us) (first ++ second) := by
  induction first generalizing ts with
  | nil =>
      cases here
      exact there
  | cons s others ih =>
      cases here with
      | nextStatement forms rest =>
          rw [List.append_assoc]
          exact .nextStatement forms (ih rest)

/-- What reading a text succeeds with comes from its tokens. -/
theorem parseSource_ok {source : String} {program : Program} :
    parseSource source = .ok program ↔
      ∃ tokens, tokenize source = .ok tokens ∧ Program.ofTokens tokens = .ok program := by
  show Except.bind ((tokenize source).mapError _) _ = _ ↔ _
  cases tokenize source with
  | error error => simp [Except.mapError, Except.bind]
  | ok tokens =>
      show (Program.ofTokens tokens).mapError _ = _ ↔ _
      cases parsed : Program.ofTokens tokens <;> simp [Except.mapError, parsed]

/-- The tokens of one text below another. -/
theorem tokenize_append {source source' : String} {body tokens' : List Token} {last : Token}
    (lexed : tokenize source = .ok (body ++ [last])) (lexed' : tokenize source' = .ok tokens') :
    tokenize (source ++ "\n" ++ source') =
      .ok (body ++ tokens'.map
        (relocate (Position.down (source.toList.count '\n' + 1))).token) := by
  have text : (source ++ "\n" ++ source').toList = source.toList ++ '\n' :: source'.toList := by
    simp
  rw [tokenize] at lexed lexed'
  rw [tokenize, text, Scan.tokensFrom_break _ lexed, Position.advance_break,
    Scan.tokensFrom_relocate (Position.down_step _), lexed', List.dropLast_concat]
  rfl

/-- If two texts can be read, then so can one below the other. The statements of the first are
followed by those of the second, which stand further down by the lines of the first. -/
theorem parseSource_append {source source' : String} {first second : Program}
    (read : parseSource source = .ok first) (read' : parseSource source' = .ok second) :
    ∃ whole, parseSource (source ++ "\n" ++ source') = .ok whole ∧
      whole.statements = first.statements ++
        ((relocate (Position.down (source.toList.count '\n' + 1))).program second).statements := by
  obtain ⟨tokens, lexed, parsed⟩ := parseSource_ok.mp read
  obtain ⟨tokens', lexed', parsed'⟩ := parseSource_ok.mp read'
  obtain ⟨body, last, rfl, ends, real⟩ := Scan.tokensFrom_ends lexed
  obtain ⟨body', last', rfl, ends', real'⟩ := Scan.tokensFrom_ends lexed'
  generalize below : relocate (Position.down (source.toList.count '\n' + 1)) = change
  have fits : change.Fits (body' ++ [last']) := .inr ⟨last', by simp, ends'⟩
  have plain : change.Plain := below ▸ plain_relocate _
  have moved := Program.ofTokens_relabel plain fits
  have realMoved : ∀ token ∈ body'.map change.token, token.kind ≠ .eof := by
    intro token mem
    obtain ⟨original, listed, rfl⟩ := List.mem_map.mp mem
    exact real' original listed
  have endsMoved : (change.token last').kind = .eof := ends'
  rw [parsed', List.map_append] at moved
  have here := (Program.ofTokens_ok_iff real ends).mp parsed
  have there := (Program.ofTokens_ok_iff realMoved endsMoved).mp moved
  have realBoth := List.forall_mem_append.mpr ⟨real, realMoved⟩
  have whole := (@Program.ofTokens_ok_iff _ _ ⟨_⟩ realBoth endsMoved).mpr (here.append there)
  refine ⟨_, parseSource_ok.mpr ⟨_, tokenize_append lexed lexed', ?_⟩, rfl⟩
  rw [below, List.map_append, ← List.append_assoc]
  exact whole

/-- The tokens of a condition without an alternative, on the first line of a text. -/
def conditionTokens : List Token :=
  [⟨.keyword .ifKw, ⟨1, 1⟩⟩, ⟨.symbol .lparen, ⟨1, 4⟩⟩, ⟨.keyword .trueKw, ⟨1, 5⟩⟩,
    ⟨.symbol .rparen, ⟨1, 7⟩⟩, ⟨.symbol .lbrace, ⟨1, 9⟩⟩, ⟨.symbol .rbrace, ⟨1, 10⟩⟩,
    ⟨.eof, ⟨2, 1⟩⟩]

/-- A condition that could go on, with a comment and a line feed behind it, and once more below. -/
theorem parseSource_append_condition :
    let source := "لو (صح) \x7b\x7d // آخر\n"
    ∃ first whole, parseSource source = .ok first ∧
      parseSource (source ++ "\n" ++ source) = .ok whole ∧ whole.statements =
        first.statements ++ ((relocate (Position.down 2)).program first).statements := by
  have lexed : tokenize "لو (صح) \x7b\x7d // آخر\n" = .ok conditionTokens := by cbv
  have lines : "لو (صح) \x7b\x7d // آخر\n".toList.count '\n' = 1 := by simp
  have read := parseSource_ok.mpr ⟨_, lexed, rfl⟩
  obtain ⟨whole, readWhole, same⟩ := parseSource_append read read
  rw [lines] at same
  exact ⟨_, whole, read, readWhole, same⟩

end Qalam
