/-
# Words

A name is a word that is no keyword: it begins like a word, goes on with characters of words, and
nowhere has the two ampersands that are an operator. Such a text is read as that name if nothing
follows it, and every name that is read from a text is one of these.
-/

import Mathlib.Data.List.Infix
import Qalam.Proofs.Lexing.Separation

namespace Qalam

/-- A text that can stand for a name. -/
structure IsName (name : String) : Prop where
  begins : name.toList.head?.any Scan.isWordStart = true
  continues : ∀ c ∈ name.toList, Scan.isWordChar c = true
  apart : ¬ ['&', '&'] <:+: name.toList
  free : Keyword.ofWord? name = none

-- the characters are gone through one by one: a library may also offer to decide what holds of a
-- character by going through the whole type
instance (name : String) : Decidable (IsName name) :=
  decidable_of_iff (name.toList.head?.any Scan.isWordStart = true ∧
      name.toList.all Scan.isWordChar = true ∧ ¬ ['&', '&'] <:+: name.toList ∧
      Keyword.ofWord? name = none)
    ⟨fun ⟨begins, continues, apart, free⟩ => ⟨begins, List.all_eq_true.mp continues, apart, free⟩,
      fun ⟨begins, continues, apart, free⟩ => ⟨begins, List.all_eq_true.mpr continues, apart, free⟩⟩

namespace Scan

/-! ## Characters -/

theorem isWordChar_of_isWordStart {c : Char} (start : isWordStart c = true) :
    isWordChar c = true := by
  simp only [isWordStart, isWordChar, Bool.or_eq_true] at start ⊢
  rcases start with letter | underscore
  · exact .inl (.inl (.inl (.inl letter)))
  · exact .inl (.inl (.inr underscore))

/-- The code points of decimal digits. -/
theorem mem_of_digit? {c : Char} (digit : (digit? c).isSome = true) :
    c.toNat ∈ List.range' 0x30 10 ++ (List.range' 0x660 10 ++ List.range' 0x6F0 10) := by
  simp only [List.mem_append, List.mem_range'_1]
  rw [digit?] at digit
  split at digit
  · omega
  · split at digit
    · omega
    · split at digit
      · omega
      · cases digit

/-- No word begins with a digit. -/
theorem not_digit_of_isWordStart {c : Char} (start : isWordStart c = true) :
    (digit? c).isSome = false := by
  have letters : ∀ code ∈ List.range' 0x30 10 ++ (List.range' 0x660 10 ++ List.range' 0x6F0 10),
      Text.inRanges Text.isAlphabeticRanges code = false := by decide +kernel
  by_contra digit
  have mem := mem_of_digit? (Bool.not_eq_false _ ▸ digit)
  rw [isWordStart, Text.isAlphabetic, letters _ mem] at start
  have underscore : c = '_' := by simpa using start
  subst underscore
  exact digit rfl

theorem not_latin_digit_of_isWordStart {c : Char} (start : isWordStart c = true) :
    ¬ (0x30 ≤ c.toNat ∧ c.toNat ≤ 0x39) := by
  intro bounds
  have other := not_digit_of_isWordStart start
  rw [digit?, if_pos bounds] at other
  cases other

/-- No word begins with a blank. -/
theorem not_blank_of_isWordStart {c : Char} (start : isWordStart c = true) :
    Text.isBlank c = false := by
  by_contra blank
  have other := not_isWordChar_of_blank (Bool.not_eq_false _ ▸ blank)
  rw [isWordChar_of_isWordStart start] at other
  cases other

theorem after?_of_head {spelling : List Char} {c : Char} {holds : Char → Bool}
    (some : spelling ≠ []) (other : spelling.head?.any holds = false) (held : holds c = true)
    (rest : List Char) : after? spelling (c :: rest) = none := by
  cases spelling with
  | nil => exact absurd rfl some
  | cons d spelling =>
      have different : d ≠ c := by
        rintro rfl
        exact Bool.false_ne_true (other.symm.trans held)
      rw [after?, if_neg different]

/-- No symbol stands at the front of a text that begins with a character of a kind which no symbol
begins with. -/
theorem symbol?_eq_none {holds : Char → Bool}
    (others : ∀ entry ∈ symbolSpellings, entry.1.head?.any holds = false) {c : Char}
    (held : holds c = true) (rest : List Char) : symbol? (c :: rest) = none := by
  rw [symbol?, List.findSome?_eq_none_iff]
  rintro ⟨spelling, sign⟩ mem
  have noMatch := after?_of_head (symbolSpellings_ne_nil _ mem) (others _ mem) held rest
  exact Option.map_eq_none_iff.mpr noMatch

/-- A text that begins like a word is read as a word. -/
theorem lexeme_of_isWordStart {c : Char} (start : isWordStart c = true) (rest : List Char) :
    lexeme c rest = .ok (word (c :: rest)) := by
  have noSymbol : ∀ entry ∈ symbolSpellings, entry.1.head?.any isWordStart = false := by
    decide +kernel
  have other : ∀ d, isWordStart d = false → c ≠ d := by
    rintro d different rfl
    exact Bool.false_ne_true (different.symm.trans start)
  have ampersand : c ≠ '&' := other '&' (by decide +kernel)
  have bar : c ≠ '|' := other '|' (by decide +kernel)
  have quote : c ≠ '"' := other '"' (by decide +kernel)
  rw [lexeme, symbol?_eq_none noSymbol start]
  simp [ampersand, bar, quote, not_digit_of_isWordStart start, start]

/-! ## The characters of a word -/

/-- A text without anything else than a word is split into all of it and nothing. -/
theorem splitWord_eq_self {text : List Char} (continues : ∀ c ∈ text, isWordChar c = true)
    (apart : ¬ ['&', '&'] <:+: text) : splitWord text = (text, []) := by
  induction text with
  | nil => rfl
  | cons c rest ih =>
      rw [List.forall_mem_cons] at continues
      have further := ih continues.2 fun inside => apart (List.infix_cons inside)
      have single : c = '&' → rest.head? ≠ some '&' := by
        rintro rfl next
        obtain ⟨others, rfl⟩ := List.head?_eq_some_iff.mp next
        exact apart ⟨[], others, rfl⟩
      have goesOn : (isWordChar c && !(c = '&' && rest.head? = some '&')) = true := by
        simpa [continues.1, ← imp_iff_not_or] using single
      rw [splitWord, if_pos goesOn, further]
      rfl

theorem isWordChar_of_mem_splitWord (text : List Char) :
    ∀ c ∈ (splitWord text).1, isWordChar c = true := by
  induction text with
  | nil => exact List.forall_mem_nil _
  | cons c rest ih =>
      rw [splitWord]
      split
      · rename_i goesOn
        exact List.forall_mem_cons.mpr ⟨(Bool.and_eq_true_iff.mp goesOn).1, ih⟩
      · exact List.forall_mem_nil _

/-- The first character that is split off a text is the first character of the text. -/
theorem head?_splitWord {text : List Char} {c : Char} (first : (splitWord text).1.head? = some c) :
    text.head? = some c := by
  rw [← splitWord_append text, List.head?_append, first]
  rfl

theorem splitWord_apart (text : List Char) : ¬ ['&', '&'] <:+: (splitWord text).1 := by
  induction text with
  | nil => simp [splitWord]
  | cons c rest ih =>
      rw [splitWord]
      split
      · rename_i goesOn
        rw [consume, List.infix_cons_iff, not_or]
        refine ⟨?_, ih⟩
        intro begins
        rw [List.cons_prefix_cons] at begins
        obtain ⟨same, next⟩ := begins
        have follows : rest.head? = some '&' := by
          obtain ⟨others, whole⟩ := next
          exact head?_splitWord (by rw [← whole]; rfl)
        simp [← same, follows] at goesOn
      · simp

/-! ## Names -/

/-- A name with nothing behind it is read as that name. -/
theorem word_of_isName {name : String} (named : IsName name) :
    word name.toList = ⟨.ident name, name.toList, []⟩ := by
  have split := splitWord_eq_self named.continues named.apart
  have spelled : String.ofList name.toList = name := String.ofList_toList
  simp only [word, split, spelled, named.free]
  split <;> rfl

/-- A word that is read as a name is one. -/
theorem isName_of_word {c : Char} {rest : List Char} (start : isWordStart c = true) {name : String}
    (named : (word (c :: rest)).kind = .ident name) : IsName name := by
  have letters : name = String.ofList (splitWord (c :: rest)).1 ∧ Keyword.ofWord? name = none := by
    simp only [word] at named
    split at named
    · cases named
    · rename_i free
      split at named
      · split at named
        · cases named
        · cases named
          exact ⟨rfl, free⟩
      · cases named
        exact ⟨rfl, free⟩
  obtain ⟨spelled, free⟩ := letters
  have chars : name.toList = (splitWord (c :: rest)).1 := by rw [spelled, String.toList_ofList]
  have first : (splitWord (c :: rest)).1.head? = some c := by
    have notAmpersand : c ≠ '&' := by
      rintro rfl
      exact absurd start (by decide +kernel)
    rw [splitWord, if_pos (by simp [isWordChar_of_isWordStart start, notAmpersand])]
    rfl
  refine ⟨?_, ?_, ?_, free⟩
  · rw [chars, first]
    exact start
  · rw [chars]
    exact isWordChar_of_mem_splitWord _
  · rw [chars]
    exact splitWord_apart _

/-- Every name among the tokens of a text is a name. -/
theorem isName_of_lexeme {c : Char} {rest : List Char} {token : Lexeme} {name : String}
    (read : lexeme c rest = .ok token) (named : token.kind = .ident name) : IsName name := by
  rcases lexeme_cases read with ⟨_, same⟩ | ⟨_, same⟩ | ⟨_, same⟩ | ⟨_, _, same⟩ | ⟨start, rfl⟩
  · cases same.symm.trans named
  · cases same.symm.trans named
  · cases same.symm.trans named
  · cases same.symm.trans named
  · exact isName_of_word start named

/-- What holds of every token that can be read holds of the tokens of a text, but for the last. -/
theorem forall_kind_of_tokensFrom {holds : TokenKind → Prop}
    (every : ∀ c rest token, lexeme c rest = .ok token → holds token.kind) {pos : Position}
    {text : List Char} {tokens : List Token} (read : tokensFrom pos text = .ok tokens) :
    ∀ token ∈ tokens, token.kind = .eof ∨ holds token.kind := by
  fun_induction tokensFrom pos text generalizing tokens with
  | case1 pos text gap trivia =>
      cases read
      rw [List.forall_mem_singleton]
      exact .inl rfl
  | case2 => cases read
  | case3 pos text gap c rest trivia start token lexed =>
      rename_i ih
      obtain ⟨others, further, rfl⟩ := exists_of_map_ok read
      rw [List.forall_mem_cons]
      exact ⟨.inr (every c rest token lexed), ih further⟩

/-- A token that stands for a name stands for one that can be spelled. -/
def Named (kind : TokenKind) : Prop := ∀ name, kind = .ident name → IsName name

theorem isName_of_tokensFrom {pos : Position} {text : List Char} {tokens : List Token}
    (read : tokensFrom pos text = .ok tokens) {token : Token} (mem : token ∈ tokens)
    {name : String} (named : token.kind = .ident name) : IsName name := by
  have every : ∀ c rest found, lexeme c rest = .ok found → Named found.kind :=
    fun _ _ _ lexed _ same => isName_of_lexeme lexed same
  rcases forall_kind_of_tokensFrom every read token mem with ends | known
  · cases ends.symm.trans named
  · exact known name named

end Scan

end Qalam
