/-
# Blanks between tokens are interchangeable, but for one label

A run of blanks that stands outside of string literals and comments separates what is before it
from what is behind it: the tokens of the whole text are those of the two parts. So it does not
matter which blanks these are. There is one exception, the label of two words. The second word is
looked for behind spaces and tabs only, so between these words spaces and tabs make one token of
them, while any other blank, as a line feed, leaves two names.

Positions are of no interest here: it is compared what the tokens stand for.
-/

import Mathlib.Data.List.TakeWhile
import Qalam.Proofs.Lexing.Kinds

namespace Qalam.Scan

/-- No comment begins in a text: where two slashes stand, they stand in a string literal. -/
def Uncommented (text : List Char) : Prop :=
  ∀ before behind, text = before ++ '/' :: '/' :: behind → Spot.outside.after before ≠ .outside

instance (text : List Char) : Decidable (Uncommented text) :=
  decidable_of_iff (∀ n < text.length, text.drop n = '/' :: '/' :: text.drop (n + 2) →
      Spot.outside.after (text.take n) ≠ .outside) <| by
    constructor
    · rintro every before behind rfl
      simpa using every before.length (by simp)
    · intro plain n _ slashes
      refine plain (text.take n) (text.drop (n + 2)) ?_
      rw [← slashes, List.take_append_drop]

/-- Some blanks, and nothing else. -/
structure BlankRun (run : List Char) : Prop where
  some : run ≠ []
  blank : run.all Text.isBlank = true

/-- A text behind which a run of blanks can begin: it has no comments, its string literals have
ended, and it does not end with a blank. -/
structure Open (before : List Char) : Prop where
  plain : Uncommented before
  outside : Spot.outside.after before = .outside
  solid : before.getLast?.any Text.isBlank = false

/-- A run of all the blanks that stand at a place between two texts, outside of string literals and
behind no comment. -/
structure Separates (run before after : List Char) : Prop extends Open before, BlankRun run where
  next : after.head?.any Text.isBlank = false

/-- Two texts with the words of the label of two words at the end of the first and at the beginning
of the second: the first word is a token, the second a whole word. -/
structure SplitsLabel (before after : List Char) : Prop where
  first : ∃ front, kinds? before = some (front ++ [.ident "خلاف", .eof])
  second : ∃ behind, after = "ذلك".toList ++ behind ∧ behind.head?.any isWordChar = false

theorem BlankRun.of_mem {run : List Char} (blanks : BlankRun run) {c : Char} (mem : c ∈ run) :
    Text.isBlank c = true :=
  List.all_eq_true.mp blanks.blank c mem

/-! ## Texts without comments -/

section

variable {before after : List Char}

theorem Uncommented.right (plain : Uncommented (before ++ after))
    (outside : Spot.outside.after before = .outside) : Uncommented after := by
  intro front behind split
  have opened := plain (before ++ front) behind (by rw [split, List.append_assoc])
  rwa [Spot.after_append, outside] at opened

theorem Open.right (opens : Open (before ++ after))
    (outside : Spot.outside.after before = .outside) : Open after := by
  refine ⟨opens.plain.right outside, ?_, ?_⟩
  · have whole := opens.outside
    rwa [Spot.after_append, outside] at whole
  · have solid := opens.solid
    rw [List.getLast?_append] at solid
    cases last : after.getLast? with
    | none => rfl
    | some c =>
        rw [last] at solid
        exact solid

/-- Without comments there are only blanks in front of a token. -/
theorem blank_of_splitTrivia {text gap rest : List Char} (plain : Uncommented text)
    (split : splitTrivia false text = (gap, rest)) : ∀ c ∈ gap, Text.isBlank c = true := by
  induction text generalizing gap with
  | nil =>
      cases split
      exact List.forall_mem_nil _
  | cons c text ih =>
      rw [splitTrivia, if_neg Bool.false_ne_true] at split
      by_cases blank : Text.isBlank c = true
      · rw [if_pos blank] at split
        cases further : splitTrivia false text with
        | mk gap' rest' =>
            rw [further] at split
            cases split
            have outside : Spot.outside.after [c] = .outside :=
              after_of_blank (by simpa using blank)
            exact List.forall_mem_cons.mpr ⟨blank, ih (Uncommented.right plain outside) further⟩
      · rw [if_neg blank] at split
        by_cases slashes : (c = '/' && text.head? = some '/') = true
        · rw [Bool.and_eq_true, decide_eq_true_iff, decide_eq_true_iff] at slashes
          obtain ⟨rfl, second⟩ := slashes
          obtain ⟨behind, rfl⟩ := List.head?_eq_some_iff.mp second
          exact absurd rfl (plain [] behind rfl)
        · rw [if_neg slashes] at split
          cases split
          exact List.forall_mem_nil _

/-- A text behind which blanks can begin does not consist of blanks. -/
theorem Open.eq_nil (opens : Open before) {gap : List Char}
    (trivia : splitTrivia false before = (gap, [])) : before = [] := by
  have whole := splitTrivia_append false before
  rw [trivia, List.append_nil] at whole
  have blank := blank_of_splitTrivia opens.plain trivia
  cases last : before.getLast? with
  | none => exact List.getLast?_eq_none_iff.mp last
  | some c =>
      have inside : c ∈ before := List.mem_of_getLast? last
      rw [← whole] at inside
      have solid := opens.solid
      rw [last] at solid
      cases solid.symm.trans (blank c inside)

section

variable {gap rest : List Char} {c : Char} (trivia : splitTrivia false before = (gap, c :: rest))

include trivia

/-- A text behind which blanks can begin is one behind its leading blanks. -/
theorem Open.behind_gap (opens : Open before) : Open (c :: rest) := by
  have whole := splitTrivia_append false before
  rw [trivia] at whole
  have outside := after_of_blank (blank_of_splitTrivia opens.plain trivia)
  have parts : Open (gap ++ c :: rest) := whole ▸ opens
  exact parts.right outside

/-- A text behind which blanks can begin is one behind its first token. -/
theorem Open.behind_token (opens : Open before) {token : Lexeme}
    (read : lexeme c rest = .ok token) : Open token.rest := by
  have here := opens.behind_gap trivia
  rw [← (lexeme_reads read).2] at here
  exact here.right (after_of_lexeme read)

end

end

/-! ## The words of the label -/

/-- The second word of the label at the front of a text, as a whole word: what is behind it. -/
def behindSecond? (after : List Char) : Option (List Char) :=
  (after? "ذلك".toList after).filter fun behind => !behind.head?.any isWordChar

theorem behindSecond?_eq_some {after behind : List Char} :
    behindSecond? after = some behind ↔
      after = "ذلك".toList ++ behind ∧ behind.head?.any isWordChar = false := by
  rw [behindSecond?, Option.filter_eq_some_iff, Bool.not_eq_true']
  refine and_congr_left fun _ => ⟨fun found => (append_of_after? found).symm, ?_⟩
  rintro rfl
  rfl

/-- Behind a run of blanks the second word is found if and only if these are spaces and tabs. -/
theorem secondWord?_run {run after : List Char} (blanks : BlankRun run)
    (next : after.head?.any Text.isBlank = false) :
    (secondWord? "ذلك".toList (run ++ after)).map Prod.snd =
      if run.all isGap then behindSecond? after else none := by
  obtain ⟨b, others, rfl⟩ := List.exists_cons_of_ne_nil blanks.some
  rw [secondWord?]
  cases gaps : (b :: others).all isGap with
  | true =>
      have all := List.all_eq_true.mp gaps
      have first : isGap b = true := all b List.mem_cons_self
      have solid : after.dropWhile isGap = after := by
        cases after with
        | nil => rfl
        | cons c rest =>
            have other : ¬ isGap c = true := fun gap =>
              Bool.false_ne_true (next.symm.trans (isBlank_of_isGap gap))
            rw [List.dropWhile_cons_of_neg other]
      rw [List.dropWhile_append_of_pos all, solid, if_pos (by simpa using first), if_pos rfl,
        behindSecond?]
      cases after? "ذلك".toList after with
      | none => rfl
      | some behind =>
          dsimp only
          rw [Option.filter_some]
          cases behind.head?.any isWordChar <;> rfl
  | false =>
      -- the gap ends at a blank, with which the second word does not begin
      have missing : after? "ذلك".toList ((b :: others ++ after).dropWhile isGap) = none := by
        rw [List.dropWhile_append]
        cases left : (b :: others).dropWhile isGap with
        | nil =>
            have all := List.dropWhile_eq_nil_iff.mp left
            rw [List.all_eq_true.mpr all] at gaps
            cases gaps
        | cons d rest =>
            have inside : d ∈ b :: others :=
              (List.dropWhile_sublist _).mem (left ▸ List.mem_cons_self)
            have other : 'ذ' ≠ d := (ne_of_blank (blanks.of_mem inside) (by decide)).symm
            exact if_neg other
      rw [missing]
      split <;> rfl

/-- The first word of the label at the end of a text, with a blank behind it, is the label or a name
according to what follows. -/
theorem lexeme_first {c : Char} {rest : List Char} {token : Lexeme}
    (read : lexeme c rest = .ok token) (first : token.kind = .ident "خلاف") (ends : token.rest = [])
    {b : Char} (blank : Text.isBlank b = true) (more : List Char) :
    ∃ found, lexeme c (rest ++ b :: more) = .ok found ∧
      match secondWord? "ذلك".toList (b :: more) with
      | some (_, behind) => found.kind = .keyword .defaultKw ∧ found.rest = behind
      | none => found.kind = .ident "خلاف" ∧ found.rest = b :: more := by
  rcases lexeme_cases read with ⟨_, same⟩ | ⟨_, same⟩ | ⟨_, same⟩ | ⟨_, _, same⟩ | ⟨start, rfl⟩
  · cases same.symm.trans first
  · cases same.symm.trans first
  · cases same.symm.trans first
  · cases same.symm.trans first
  refine ⟨_, lexeme_of_isWordStart start _, ?_⟩
  have parts : Keyword.ofWord? (String.ofList (splitWord (c :: rest)).1) = none ∧
      String.ofList (splitWord (c :: rest)).1 = "خلاف" ∧ (splitWord (c :: rest)).2 = [] := by
    simp only [word] at first ends
    split at first
    · cases first
    · rename_i free
      rw [free] at ends
      dsimp only at ends
      split at first
      · rename_i named
        rw [if_pos named] at ends
        split at first
        · cases first
        · rename_i missing
          rw [missing] at ends
          exact ⟨free, named, ends⟩
      · rename_i other
        exact absurd (TokenKind.ident.inj first) other
  obtain ⟨free, named, left⟩ := parts
  have split := splitWord_blank blank more (c :: rest)
  rw [left, List.nil_append, List.cons_append] at split
  rw [named] at free
  simp only [word, split, named, free, if_true]
  cases secondWord? "ذلك".toList (b :: more) <;> exact ⟨rfl, rfl⟩

/-- The second word of the label is a name where it stands alone. -/
theorem kinds?_second {behind : List Char} (ends : behind.head?.any isWordChar = false) :
    kinds? ("ذلك".toList ++ behind) = (kinds? behind).map (.ident "ذلك" :: ·) := by
  have letters : splitWord ("ذلك".toList ++ behind) = ("ذلك".toList, behind) := by
    have stops : splitWord behind = ([], behind) := by
      cases behind with
      | nil => rfl
      | cons c rest =>
          have other : isWordChar c = false := ends
          simp [splitWord, other]
    have long : "ذلك".toList ++ behind = 'ذ' :: 'ل' :: 'ك' :: behind := rfl
    have wordChars : isWordChar 'ذ' = true ∧ isWordChar 'ل' = true ∧ isWordChar 'ك' = true := by
      decide +kernel
    rw [long]
    simp [splitWord, stops, wordChars, consume]
  have read : lexeme 'ذ' ('ل' :: 'ك' :: behind) =
      .ok ⟨.ident "ذلك", "ذلك".toList, behind⟩ := by
    rw [lexeme_of_isWordStart (by decide +kernel)]
    change Except.ok (word ("ذلك".toList ++ behind)) = _
    rw [word, letters]
    rfl
  have solid : splitTrivia false ("ذلك".toList ++ behind) = ([], 'ذ' :: 'ل' :: 'ك' :: behind) := rfl
  exact kinds?_of_ok solid read

/-! ## Texts with blanks between them -/

section

variable {before after run : List Char}

/-- The first token of a text is also the first one with blanks and more text behind it, unless it
is the first word of the label at the end of the text. -/
theorem Open.kinds?_append (opens : Open before) {gap rest : List Char} {c : Char} {token : Lexeme}
    (trivia : splitTrivia false before = (gap, c :: rest)) (read : lexeme c rest = .ok token)
    (other : token.rest = [] → token.kind ≠ .ident "خلاف") {b : Char}
    (blank : Text.isBlank b = true) (more : List Char) :
    kinds? (before ++ b :: more) = (kinds? (token.rest ++ b :: more)).map (token.kind :: ·) := by
  have here := splitTrivia_of_blank blank more trivia
  have ends : token.kind = .ident "خلاف" →
      isGap b = false ∨ ∃ d ∈ token.rest, isGap d = false := by
    intro first
    cases last : token.rest.getLast? with
    | none => exact absurd first (other (List.getLast?_eq_none_iff.mp last))
    | some d =>
        have solid := (opens.behind_token trivia read).solid
        rw [last] at solid
        refine .inr ⟨d, List.mem_of_getLast? last, Bool.not_eq_true _ ▸ fun gap => ?_⟩
        exact Bool.false_ne_true (solid.symm.trans (isBlank_of_isGap gap))
  exact kinds?_of_ok here (lexeme_blank blank more read ends)

/-- A label at the front of what is left splits the whole text, too. -/
theorem SplitsLabel.of_rest {rest : List Char} {kind : TokenKind}
    (read : kinds? before = (kinds? rest).map (kind :: ·)) (splits : SplitsLabel rest after) :
    SplitsLabel before after := by
  obtain ⟨front, known⟩ := splits.first
  exact ⟨⟨kind :: front, by rw [read, known]; rfl⟩, splits.second⟩

theorem behindSecond?_eq_none
    (splits : ∃ front, kinds? before = some (front ++ [.ident "خلاف", .eof]))
    (missing : ¬ SplitsLabel before after) : behindSecond? after = none := by
  cases found : behindSecond? after with
  | none => rfl
  | some behind => exact absurd ⟨splits, behind, behindSecond?_eq_some.mp found⟩ missing

/-- The tokens of two texts with blanks between them are those of the first, without its end, and
those of the second, unless the blanks are spaces and tabs between the words of the label. -/
theorem kinds?_join (opens : Open before) (blanks : BlankRun run)
    (next : after.head?.any Text.isBlank = false)
    (apart : run.all isGap = true → ¬ SplitsLabel before after) :
    kinds? (before ++ (run ++ after)) =
      (kinds? before).bind fun front => (kinds? after).map (front.dropLast ++ ·) := by
  obtain ⟨b, others, rfl⟩ := List.exists_cons_of_ne_nil blanks.some
  have blank : Text.isBlank b = true := blanks.of_mem List.mem_cons_self
  have skipped : kinds? (b :: (others ++ after)) = kinds? after :=
    kinds?_append (fun _ => blanks.of_mem) after
  rw [List.cons_append]
  have pos := Position.start
  fun_induction tokensFrom pos before with
  | case1 pos text gap trivia =>
      cases opens.eq_nil trivia
      rw [kinds?_nil, List.nil_append, skipped]
      cases kinds? after <;> rfl
  | case2 pos text gap c rest trivia start fault refused =>
      obtain ⟨fault', wrong⟩ :=
        error_of_blank blank (others ++ after) refused (opens.behind_gap trivia).outside
      rw [kinds?_of_error trivia refused,
        kinds?_of_error (splitTrivia_of_blank blank _ trivia) wrong]
      rfl
  | case3 pos text gap c rest trivia start token read =>
      rename_i ih
      have whole := kinds?_of_ok trivia read
      by_cases last : token.rest = [] ∧ token.kind = .ident "خلاف"
      · obtain ⟨ends, first⟩ := last
        rw [ends, kinds?_nil, first] at whole
        obtain ⟨found, lexed, outcome⟩ := lexeme_first read first ends blank (others ++ after)
        have missing : secondWord? "ذلك".toList (b :: (others ++ after)) = none := by
          rw [← Option.map_eq_none_iff, ← List.cons_append, secondWord?_run blanks next]
          split
          · rename_i gaps
            exact behindSecond?_eq_none ⟨[], whole⟩ (apart gaps)
          · rfl
        rw [missing] at outcome
        rw [kinds?_of_ok (splitTrivia_of_blank blank _ trivia) lexed, outcome.1, outcome.2, skipped,
          whole]
        rfl
      · have other : token.rest = [] → token.kind ≠ .ident "خلاف" := fun ends first =>
          last ⟨ends, first⟩
        rw [opens.kinds?_append trivia read other blank, whole,
          ih (opens.behind_token trivia read) fun gaps splits => apart gaps (splits.of_rest whole)]
        cases further : kinds? token.rest with
        | none => rfl
        | some front =>
            simp only [Option.map_some, Option.bind_some, Option.map_map,
              List.dropLast_cons_of_ne_nil (ne_nil_of_kinds? further)]
            rfl

/-- A text behind which blanks can begin and which has no tokens is empty. -/
theorem Open.eq_nil_of_kinds? (opens : Open before) (nothing : kinds? before = some [.eof]) :
    before = [] := by
  cases trivia : splitTrivia false before with
  | mk gap behind =>
      cases behind with
      | nil => exact opens.eq_nil trivia
      | cons c rest =>
          cases read : lexeme c rest with
          | error fault => cases (kinds?_of_error trivia read).symm.trans nothing
          | ok token =>
              rw [kinds?_of_ok trivia read, Option.map_eq_some_iff] at nothing
              obtain ⟨_, -, same⟩ := nothing
              exact absurd (List.cons.inj same).1 (lexeme_kind read)

/-- Spaces and tabs between the two words of the label make one token of them. -/
theorem kinds?_label {behind : List Char} {front : List TokenKind} (opens : Open before)
    (blanks : BlankRun run) (next : after.head?.any Text.isBlank = false)
    (gaps : run.all isGap = true)
    (first : kinds? before = some (front ++ [TokenKind.ident "خلاف", .eof]))
    (second : behindSecond? after = some behind) :
    kinds? (before ++ (run ++ after)) =
      (kinds? behind).map (front ++ .keyword .defaultKw :: ·) := by
  obtain ⟨b, others, rfl⟩ := List.exists_cons_of_ne_nil blanks.some
  have blank : Text.isBlank b = true := blanks.of_mem List.mem_cons_self
  rw [List.cons_append]
  have pos := Position.start
  fun_induction tokensFrom pos before generalizing front with
  | case1 pos text gap trivia =>
      rw [kinds?_of_nil trivia] at first
      have short := congrArg List.length (Option.some.inj first)
      simp at short
  | case2 pos text gap c rest trivia start fault =>
      rename_i refused
      cases (kinds?_of_error trivia refused).symm.trans first
  | case3 pos text gap c rest trivia start token read =>
      rename_i ih
      have whole := kinds?_of_ok trivia read
      rw [first] at whole
      obtain ⟨kinds, further, same⟩ := Option.map_eq_some_iff.mp whole.symm
      cases front with
      | nil =>
          obtain ⟨kind, rfl⟩ := List.cons.inj same
          have ends := (opens.behind_token trivia read).eq_nil_of_kinds? further
          obtain ⟨found, lexed, outcome⟩ := lexeme_first read kind ends blank (others ++ after)
          have joined := secondWord?_run blanks next
          rw [gaps, if_pos rfl, second, Option.map_eq_some_iff] at joined
          obtain ⟨⟨gap', rest'⟩, found', rfl⟩ := joined
          rw [← List.cons_append, found'] at outcome
          rw [kinds?_of_ok (splitTrivia_of_blank blank _ trivia) lexed, outcome.1, outcome.2]
          rfl
      | cons kind front =>
          obtain ⟨rfl, rfl⟩ := List.cons.inj same
          have other : token.rest = [] → token.kind ≠ .ident "خلاف" := by
            intro ends
            rw [ends, kinds?_nil] at further
            have short := congrArg List.length (Option.some.inj further)
            simp at short
          rw [opens.kinds?_append trivia read other blank,
            ih (opens.behind_token trivia read) further, Option.map_map]
          rfl

/-- Between the words of the label spaces and tabs make one token of them, and other blanks two. -/
theorem SplitsLabel.kinds?_eq (splits : SplitsLabel before after) (opens : Open before)
    (next : after.head?.any Text.isBlank = false) :
    ∃ front behind, ∀ run, BlankRun run → kinds? (before ++ (run ++ after)) =
      (kinds? behind).map fun kinds => front ++ ((if run.all isGap then [.keyword .defaultKw]
        else [.ident "خلاف", .ident "ذلك"]) ++ kinds) := by
  obtain ⟨⟨front, first⟩, behind, rfl, ends⟩ := splits
  refine ⟨front, behind, fun run blanks => ?_⟩
  cases gaps : run.all isGap with
  | true =>
      have second := behindSecond?_eq_some.mpr ⟨rfl, ends⟩
      rw [kinds?_label opens blanks next gaps first second]
      rfl
  | false =>
      rw [kinds?_join opens blanks next fun all => absurd (gaps.symm.trans all) nofun, first,
        kinds?_second ends, Option.bind_some, Option.map_map]
      congr 1
      funext kinds
      simp

/-- What the tokens stand for does not depend on the blanks between two texts, unless these have the
words of the label, and one run consists of spaces and tabs and the other one does not. -/
theorem Separates.kinds?_iff (separates : Separates run before after) {run' : List Char}
    (blanks : BlankRun run') {kinds : List TokenKind}
    (read : kinds? (before ++ (run ++ after)) = some kinds) :
    ∃ kinds', kinds? (before ++ (run' ++ after)) = some kinds' ∧
      (kinds' = kinds ↔ ¬ (SplitsLabel before after ∧ run.all isGap ≠ run'.all isGap)) := by
  have opens := separates.toOpen
  by_cases splits : SplitsLabel before after
  · obtain ⟨front, behind, known⟩ := splits.kinds?_eq opens separates.next
    rw [known run separates.toBlankRun, Option.map_eq_some_iff] at read
    obtain ⟨others, found, rfl⟩ := read
    refine ⟨_, by rw [known run' blanks, found]; rfl, ?_⟩
    rw [List.append_cancel_left_eq, List.append_cancel_right_eq, not_and_not_right]
    cases run.all isGap <;> cases run'.all isGap <;> simp [splits]
  · have same : kinds? (before ++ (run' ++ after)) = kinds? (before ++ (run ++ after)) := by
      rw [kinds?_join opens blanks separates.next fun _ => splits,
        kinds?_join opens separates.toBlankRun separates.next fun _ => splits]
    exact ⟨kinds, same.trans read, by simp [splits]⟩

end

end Qalam.Scan

namespace Qalam

/-- Blanks between tokens are interchangeable, but for the label of two words. If a source that can
be cut into tokens has a run of blanks outside of string literals, with no comment before it, then
with any other blanks in place of this run it can be cut, too, and its tokens stand for the same as
before, unless the run stands between the two words of the label and one of the two runs consists of
spaces and tabs and the other one does not: in this case they never do. -/
theorem tokenize_blanks {before run run' after : String} {tokens : List Token}
    (separates : Scan.Separates run.toList before.toList after.toList)
    (blanks : Scan.BlankRun run'.toList) (read : tokenize (before ++ run ++ after) = .ok tokens) :
    ∃ tokens', tokenize (before ++ run' ++ after) = .ok tokens' ∧
      (tokens'.map Token.kind = tokens.map Token.kind ↔
        ¬ (Scan.SplitsLabel before.toList after.toList ∧
          run.toList.all Scan.isGap ≠ run'.toList.all Scan.isGap)) := by
  have whole : ∀ run : String, (before ++ run ++ after).toList =
      before.toList ++ (run.toList ++ after.toList) := by
    intro run
    rw [String.toList_append, String.toList_append, List.append_assoc]
  have known := Scan.kinds?_toList.mpr ⟨tokens, read, rfl⟩
  rw [whole] at known
  obtain ⟨kinds, known', same⟩ := separates.kinds?_iff blanks known
  rw [← whole, Scan.kinds?_toList] at known'
  obtain ⟨tokens', read', rfl⟩ := known'
  exact ⟨tokens', read', same⟩

/-- A line feed in front of a name, behind a string literal with two slashes, and an ideographic
space with a tab instead of it. -/
theorem tokenize_blanks_slashes :
    Scan.Separates "\n".toList "\"//\" ،".toList "س".toList ∧ Scan.BlankRun "\u3000\t".toList ∧
      ∃ tokens tokens', tokenize ("\"//\" ،" ++ "\n" ++ "س") = .ok tokens ∧
        tokenize ("\"//\" ،" ++ "\u3000\t" ++ "س") = .ok tokens' ∧
        tokens = [⟨.str "//", ⟨1, 1⟩⟩, ⟨.symbol .comma, ⟨1, 6⟩⟩, ⟨.ident "س", ⟨2, 1⟩⟩,
          ⟨.eof, ⟨2, 2⟩⟩] ∧
        tokens'.map Token.kind = tokens.map Token.kind := by
  have separates : Scan.Separates "\n".toList "\"//\" ،".toList "س".toList :=
    ⟨⟨by decide, by decide, by decide⟩, ⟨by decide, by decide⟩, by decide⟩
  have blanks : Scan.BlankRun "\u3000\t".toList := ⟨by decide, by decide⟩
  have read : tokenize ("\"//\" ،" ++ "\n" ++ "س") = .ok [⟨.str "//", ⟨1, 1⟩⟩,
      ⟨.symbol .comma, ⟨1, 6⟩⟩, ⟨.ident "س", ⟨2, 1⟩⟩, ⟨.eof, ⟨2, 2⟩⟩] := by
    decide +kernel
  obtain ⟨tokens', read', same⟩ := tokenize_blanks separates blanks read
  refine ⟨separates, blanks, _, tokens', read, read', rfl, same.mpr ?_⟩
  rintro ⟨⟨-, behind, second, -⟩, -⟩
  have first : some 'س' = some 'ذ' := congrArg List.head? second
  exact absurd first (by decide)

/-- A line feed between the two words of the label leaves two names, although a space makes one
token of them. -/
theorem tokenize_label_feed :
    Scan.Uncommented ("خلاف" ++ " " ++ "ذلك").toList ∧
      Scan.Separates " ".toList "خلاف".toList "ذلك".toList ∧ Scan.BlankRun "\n".toList ∧
      ∃ tokens tokens', tokenize ("خلاف" ++ " " ++ "ذلك") = .ok tokens ∧
        tokenize ("خلاف" ++ "\n" ++ "ذلك") = .ok tokens' ∧
        tokens.map Token.kind = [.keyword .defaultKw, .eof] ∧
        tokens'.map Token.kind = [.ident "خلاف", .ident "ذلك", .eof] ∧
        tokens'.map Token.kind ≠ tokens.map Token.kind := by
  have one : tokenize ("خلاف" ++ " " ++ "ذلك") =
      .ok [⟨.keyword .defaultKw, ⟨1, 1⟩⟩, ⟨.eof, ⟨1, 9⟩⟩] := by decide +kernel
  have two : tokenize ("خلاف" ++ "\n" ++ "ذلك") =
      .ok [⟨.ident "خلاف", ⟨1, 1⟩⟩, ⟨.ident "ذلك", ⟨2, 1⟩⟩, ⟨.eof, ⟨2, 4⟩⟩] := by decide +kernel
  exact ⟨by decide, ⟨⟨by decide, by decide, by decide⟩, ⟨by decide, by decide⟩, by decide⟩,
    ⟨by decide, by decide⟩, _, _, one, two, rfl, rfl, by decide⟩

end Qalam
