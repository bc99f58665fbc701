/-
# Positions of tokens are exact

The tokens of a text begin at certain offsets, counted in characters, and nothing but blanks and
comments stands between the end of one token and the beginning of the next. The position of a token
says how many line feeds there are before its offset and how many characters behind the last of
them. A text that cannot be cut into tokens is refused at such an offset, too: the one behind those
of its leading tokens, at which none can be read.

What a comment is, and what the position of an offset, is said here without the loop that cuts the
text; only what a single token is comes from the reader of tokens.
-/

import Mathlib.Data.List.DropRight
import Mathlib.Data.List.Forall2
import Qalam.Proofs.Layout.Keys
import Qalam.Proofs.Location.Reached

namespace Qalam

namespace Position

/-- The position behind a text: a line more for each line feed, and a column more for each character
behind the last of them. -/
def behind (text : List Char) : Position :=
  ⟨1 + text.count '\n', 1 + (text.rtakeWhile (· ≠ '\n')).length⟩

/-- Keeping count character by character leads to the position behind the text. -/
theorem advance_start (text : List Char) : start.advance text = behind text := by
  induction text using List.reverseRecOn with
  | nil => rfl
  | append_singleton text c ih =>
      rw [advance_append, ih]
      change (behind text).step c = _
      rw [step]
      split
      · rename_i feed
        rw [feed, behind, behind, List.rtakeWhile_concat_neg _ _ _ (by simp), List.count_append]
        rfl
      · rename_i other
        rw [behind, behind, List.rtakeWhile_concat_pos _ _ _ (by simpa using other)]
        simp [other, Nat.add_assoc]

end Position

namespace Scan

/-- Blanks and comments in front of another text. A comment goes on to the end of its line, or to
that of the text. -/
inductive Trivia : List Char → List Char → Prop
  | nil (behind : List Char) : Trivia [] behind
  | blank {c : Char} {gap behind : List Char} : Text.isBlank c = true → Trivia gap behind →
      Trivia (c :: gap) behind
  | comment {content gap behind : List Char} : '\n' ∉ content →
      (∀ c ∈ (gap ++ behind).head?, c = '\n') → Trivia gap behind →
      Trivia ('/' :: '/' :: content ++ gap) behind

/-- From one offset of a text to another there is nothing but blanks and comments. -/
def OnlyTrivia (text : List Char) (offset stop : Nat) : Prop :=
  ∃ gap, offset + gap.length = stop ∧ text.drop offset = gap ++ text.drop stop ∧
    Trivia gap (text.drop stop)

/-- A token can be read at one offset of a text, and from its end to the other offset there is
nothing but blanks and comments. -/
def Precedes (text : List Char) (offset next : Nat) : Prop :=
  ∃ c rest token, text.drop offset = c :: rest ∧ lexeme c rest = .ok token ∧
    OnlyTrivia text (offset + token.text.length) next

/-- Offsets of a text at which tokens stand one behind the other, from the beginning of the text on.
Nothing is said about what stands at the last one. -/
structure Cuts (text : List Char) (offsets : List Nat) : Prop where
  first : ∃ offset, offsets.head? = some offset ∧ OnlyTrivia text 0 offset
  next : offsets.IsChain (Precedes text)

/-- A token begins at an offset of a text and has the position of that offset. -/
structure Stands (text : List Char) (token : Token) (offset : Nat) : Prop where
  inside : offset ≤ text.length
  pos : token.pos = .behind (text.take offset)
  begins : Begins token.kind (text.drop offset)

/-! ## Gaps -/

/-- The rest of a comment, with what follows it, up to the next token. -/
def InComment (gap behind : List Char) : Prop :=
  ∃ content more, gap = content ++ more ∧ '\n' ∉ content ∧
    (∀ c ∈ (more ++ behind).head?, c = '\n') ∧ Trivia more behind

theorem trivia_of_split {inComment : Bool} {text gap behind : List Char}
    (split : splitTrivia inComment text = (gap, behind)) :
    if inComment then InComment gap behind else Trivia gap behind := by
  induction text generalizing inComment gap with
  | nil =>
      cases split
      cases inComment with
      | true => exact ⟨[], [], rfl, List.not_mem_nil, nofun, .nil _⟩
      | false => exact .nil _
  | cons c rest ih =>
      rw [splitTrivia] at split
      cases inComment with
      | true =>
          cases further : splitTrivia (decide (c ≠ '\n')) rest with
          | mk more behind' =>
              rw [if_pos rfl, further] at split
              cases split
              have inner := ih further
              by_cases feed : c = '\n'
              · rw [if_neg (by simpa using feed)] at inner
                have blank : Text.isBlank c = true := by rw [feed]; decide
                exact ⟨[], c :: more, rfl, List.not_mem_nil, by simpa using feed,
                  .blank blank inner⟩
              · rw [if_pos (by simpa using feed)] at inner
                obtain ⟨content, others, rfl, plain, ends, trivia⟩ := inner
                refine ⟨c :: content, others, rfl, ?_, ends, trivia⟩
                rw [List.mem_cons, not_or]
                exact ⟨Ne.symm feed, plain⟩
      | false =>
          rw [if_neg Bool.false_ne_true] at split ⊢
          by_cases blank : Text.isBlank c = true
          · cases further : splitTrivia false rest with
            | mk more behind' =>
                rw [if_pos blank, further] at split
                cases split
                exact .blank blank (ih further)
          rw [if_neg blank] at split
          by_cases slashes : (c = '/' && rest.head? = some '/') = true
          · cases further : splitTrivia true rest with
            | mk more behind' =>
                rw [if_pos slashes, further] at split
                cases split
                obtain ⟨content, others, rfl, plain, ends, trivia⟩ := ih further
                rw [Bool.and_eq_true, decide_eq_true_iff, decide_eq_true_iff] at slashes
                have whole := splitTrivia_append true rest
                rw [further, List.append_assoc] at whole
                -- the second slash belongs to the comment, so it is the first character of it
                cases content with
                | nil =>
                    rw [List.nil_append] at whole
                    rw [whole, slashes.2] at ends
                    exact absurd (ends '/' rfl) (by decide)
                | cons d content =>
                    have second : rest.head? = some d := by rw [← whole]; rfl
                    cases slashes.2.symm.trans second
                    rw [slashes.1]
                    exact .comment (fun mem => plain (List.mem_cons_of_mem _ mem)) ends trivia
          · rw [if_neg slashes] at split
            cases split
            exact .nil _

section

variable {text gap rest : List Char}

theorem append_of_split (split : splitTrivia false text = (gap, rest)) : gap ++ rest = text := by
  have whole := splitTrivia_append false text
  rwa [split] at whole

theorem take_of_split (split : splitTrivia false text = (gap, rest)) (before : List Char) :
    (before ++ text).take (before.length + gap.length) = before ++ gap := by
  rw [← append_of_split split, ← List.append_assoc, ← List.length_append, List.take_left]

theorem drop_of_split (split : splitTrivia false text = (gap, rest)) (before : List Char) :
    (before ++ text).drop (before.length + gap.length) = rest := by
  rw [← append_of_split split, ← List.append_assoc, ← List.length_append, List.drop_left]

theorem length_of_split (split : splitTrivia false text = (gap, rest)) (before : List Char) :
    (before ++ text).length = before.length + gap.length + rest.length := by
  rw [← append_of_split split, List.length_append, List.length_append, Nat.add_assoc]

/-- Behind what has been read of a text there is a gap up to the next token or the end. -/
theorem onlyTrivia_of_split (split : splitTrivia false text = (gap, rest)) (before : List Char) :
    OnlyTrivia (before ++ text) before.length (before.length + gap.length) := by
  refine ⟨gap, rfl, ?_, ?_⟩
  · rw [drop_of_split split, List.drop_left, append_of_split split]
  · rw [drop_of_split split]
    exact trivia_of_split split

end

/-! ## Offsets of tokens -/

theorem Precedes.lt {text : List Char} {offset next : Nat} (precedes : Precedes text offset next) :
    offset < next := by
  obtain ⟨c, rest, token, -, lexed, gap, reached, -⟩ := precedes
  have some := List.length_pos_iff.mpr (lexeme_reads lexed).1
  omega

theorem Cuts.increasing {text : List Char} {offsets : List Nat} (cuts : Cuts text offsets) :
    offsets.Pairwise (· < ·) :=
  List.isChain_iff_pairwise.mp (cuts.next.imp fun _ _ precedes => precedes.lt)

section

variable {before text gap rest : List Char} {c : Char} {token : Lexeme}

theorem append_of_lexed (split : splitTrivia false text = (gap, c :: rest))
    (lexed : lexeme c rest = .ok token) :
    before ++ gap ++ token.text ++ token.rest = before ++ text := by
  rw [List.append_assoc, (lexeme_reads lexed).2, List.append_assoc, append_of_split split]

/-- A token that is read behind a gap precedes what comes behind the next gap. -/
theorem precedes_of_lexed (split : splitTrivia false text = (gap, c :: rest))
    (lexed : lexeme c rest = .ok token) {next : Nat}
    (further : OnlyTrivia (before ++ text) (before ++ gap ++ token.text).length next) :
    Precedes (before ++ text) (before.length + gap.length) next := by
  rw [List.length_append, List.length_append] at further
  exact ⟨c, rest, token, drop_of_split split before, lexed, further⟩

end

/-- The tokens of what is left of a text stand at offsets one behind the other up to the end, the
first one behind what was read before. -/
theorem stands_of_tokensFrom {before text : List Char} {pos : Position} {tokens : List Token}
    (place : pos = Position.start.advance before) (read : tokensFrom pos text = .ok tokens) :
    ∃ offset offsets, OnlyTrivia (before ++ text) before.length offset ∧
      (offset :: offsets).IsChain (Precedes (before ++ text)) ∧
      List.Forall₂ (Stands (before ++ text)) tokens (offset :: offsets) ∧
      (offset :: offsets).getLast? = some (before ++ text).length := by
  fun_induction tokensFrom pos text generalizing before tokens with
  | case1 pos text gap trivia =>
      cases read
      have ends := length_of_split trivia before
      refine ⟨_, [], onlyTrivia_of_split trivia before, .singleton _, .cons ?_ .nil, ?_⟩
      · refine ⟨ends.ge, ?_, ?_⟩
        · rw [take_of_split trivia, ← Position.advance_start, Position.advance_append, place]
        · rw [drop_of_split trivia]
          rfl
      · rw [ends]
        rfl
  | case2 => cases read
  | case3 pos text gap c rest trivia start token lexed =>
      rename_i ih
      obtain ⟨others, further, rfl⟩ := exists_of_map_ok read
      have passed : start = Position.start.advance (before ++ gap) := by
        rw [Position.advance_append, ← place]
      have behind : start.advance token.text =
          Position.start.advance (before ++ gap ++ token.text) := by
        rw [passed, ← Position.advance_append]
      obtain ⟨next, offsets, gapNext, chain, stand, last⟩ := ih behind further
      rw [append_of_lexed trivia lexed] at gapNext chain stand last
      refine ⟨_, next :: offsets, onlyTrivia_of_split trivia before,
        .cons_cons (precedes_of_lexed trivia lexed gapNext) chain, .cons ⟨?_, ?_, ?_⟩ stand, ?_⟩
      · rw [length_of_split trivia]
        exact Nat.le_add_right _ _
      · rw [take_of_split trivia, ← Position.advance_start]
        exact passed
      · rw [drop_of_split trivia]
        exact ⟨token, lexed, rfl⟩
      · rw [List.getLast?_cons_cons]
        exact last

/-- A place that cutting a text comes to is the last of some offsets. -/
theorem cuts_of_reaches {text before behind : List Char} (reaches : Reaches text before behind)
    (passed : List Char) :
    ∃ offset offsets, OnlyTrivia (passed ++ text) passed.length offset ∧
      (offset :: offsets).IsChain (Precedes (passed ++ text)) ∧
      (offset :: offsets).getLast? = some (passed ++ before).length := by
  induction reaches generalizing passed with
  | gap text =>
      refine ⟨_, [], onlyTrivia_of_split rfl passed, .singleton _, ?_⟩
      rw [List.length_append]
      rfl
  | @token text gap rest before behind c token trivia lexed _ ih =>
      obtain ⟨next, offsets, gapNext, chain, last⟩ := ih (passed ++ gap ++ token.text)
      rw [append_of_lexed trivia lexed] at gapNext chain
      refine ⟨_, next :: offsets, onlyTrivia_of_split trivia passed,
        .cons_cons (precedes_of_lexed trivia lexed gapNext) chain, ?_⟩
      rw [List.getLast?_cons_cons, last, List.append_assoc, List.append_assoc]

end Scan

/-- Positions are exact. The tokens of a text that can be cut stand at increasing offsets, the last
one, the end, at the length of the text; between a token and the next one there are only blanks and
comments, and the position of a token is that behind the characters before its offset. So their
positions increase by lines and columns. A text that cannot be cut is refused at an offset of this
kind, at which no token can be read, with the position of that offset. -/
theorem tokenize_placed (source : String) :
    (∀ tokens, tokenize source = .ok tokens → ∃ offsets,
      List.Forall₂ (Scan.Stands source.toList) tokens offsets ∧
      Scan.Cuts source.toList offsets ∧ offsets.Pairwise (· < ·) ∧
      offsets.getLast? = some source.length ∧
      tokens.Pairwise fun first later => first.pos.rank < later.pos.rank) ∧
    ∀ error, tokenize source = .error error → ∃ offsets offset c rest,
      Scan.Cuts source.toList (offsets ++ [offset]) ∧
      source.toList.drop offset = c :: rest ∧ Scan.lexeme c rest = .error error.fault ∧
      error.pos = .behind (source.toList.take offset) := by
  constructor
  · intro tokens read
    have nothing : Position.start = Position.start.advance [] := rfl
    obtain ⟨offset, offsets, gap, chain, stand, last⟩ := Scan.stands_of_tokensFrom nothing read
    have cuts : Scan.Cuts source.toList (offset :: offsets) := ⟨⟨offset, rfl, gap⟩, chain⟩
    exact ⟨_, stand, cuts, cuts.increasing, last, (Scan.tokensFrom_increasing read).2⟩
  · intro error refused
    obtain ⟨before, c, rest, reaches, place, wrong⟩ := Scan.reaches_of_error refused
    obtain ⟨offset, offsets, gap, chain, last⟩ := Scan.cuts_of_reaches reaches []
    obtain ⟨passed, same⟩ := List.getLast?_eq_some_iff.mp last
    have whole := reaches.append
    refine ⟨passed, before.length, c, rest, ?_, ?_, wrong, ?_⟩
    · rw [List.nil_append] at same
      rw [← same]
      exact ⟨⟨offset, rfl, gap⟩, chain⟩
    · rw [← whole, List.drop_left]
    · rw [← whole, List.take_left, place, Position.advance_start]

/-- A keyword of two words with a comment behind it and a number on the next line, and a text whose
second line begins a string literal that does not end. -/
theorem tokenize_placed_comment :
    (∃ tokens offsets, tokenize "خلاف ذلك // 5\n\t7" = .ok tokens ∧
      tokens = [⟨.keyword .defaultKw, ⟨1, 1⟩⟩, ⟨.int 7, ⟨2, 2⟩⟩, ⟨.eof, ⟨2, 3⟩⟩] ∧
      List.Forall₂ (Scan.Stands "خلاف ذلك // 5\n\t7".toList) tokens offsets ∧
      Scan.Cuts "خلاف ذلك // 5\n\t7".toList offsets ∧ offsets.Pairwise (· < ·) ∧
      offsets.getLast? = some "خلاف ذلك // 5\n\t7".length ∧
      tokens.Pairwise fun first later => first.pos.rank < later.pos.rank) ∧
    ∃ error, tokenize "س\n  \"\\" = .error error ∧
      error = ⟨.unterminatedString, ⟨2, 3⟩⟩ ∧ ∃ offsets offset c rest,
        Scan.Cuts "س\n  \"\\".toList (offsets ++ [offset]) ∧
        "س\n  \"\\".toList.drop offset = c :: rest ∧
        Scan.lexeme c rest = .error error.fault ∧
        error.pos = .behind ("س\n  \"\\".toList.take offset) := by
  have read : tokenize "خلاف ذلك // 5\n\t7" =
      .ok [⟨.keyword .defaultKw, ⟨1, 1⟩⟩, ⟨.int 7, ⟨2, 2⟩⟩, ⟨.eof, ⟨2, 3⟩⟩] := by cbv
  have refused : tokenize "س\n  \"\\" = .error ⟨.unterminatedString, ⟨2, 3⟩⟩ := by
    decide +kernel
  obtain ⟨offsets, placed⟩ := (tokenize_placed _).1 _ read
  have wrong := (tokenize_placed _).2 _ refused
  exact ⟨⟨_, offsets, read, rfl, placed⟩, ⟨_, refused, rfl, wrong⟩⟩

end Qalam
