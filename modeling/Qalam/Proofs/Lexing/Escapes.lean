/-
# Spellings of texts

A text can be spelled in many ways between quotes: each of its characters stands for itself, or is
named by a letter behind a backslash, or by its code point in hexadecimal digits. What such a
spelling means is said here without the scanner, and so is what can be wrong behind an opening
quote. The scanner gives the text for each of its spellings and refuses whatever is wrong; there is
no third possibility.
-/

import Qalam.Proofs.Lexing.Digits
import Qalam.Proofs.Lexing.Literals

namespace Qalam.Scan

/-! ## Digits -/

/-- A hexadecimal digit with its value. The letters may stand in lower or upper case. -/
def IsHexDigit (c : Char) (value : Nat) : Prop :=
  value < 10 ∧ c.toNat = '0'.toNat + value ∨
    10 ≤ value ∧ value < 16 ∧
      (c.toNat + 10 = 'a'.toNat + value ∨ c.toNat + 10 = 'A'.toNat + value)

theorem hexDigit?_eq_some {c : Char} {value : Nat} :
    hexDigit? c = some value ↔ IsHexDigit c value := by
  have between (first last : Char) :
      (first ≤ c ∧ c ≤ last) ↔ first.toNat ≤ c.toNat ∧ c.toNat ≤ last.toNat := by
    simp only [Char.le_def, UInt32.le_iff_toNat_le, Char.toNat]
  have codes : '0'.toNat = 48 ∧ '9'.toNat = 57 ∧ 'a'.toNat = 97 ∧ 'f'.toNat = 102 ∧
      'A'.toNat = 65 ∧ 'F'.toNat = 70 := by decide
  obtain ⟨zero, nine, a, f, a', f'⟩ := codes
  simp only [hexDigit?, IsHexDigit, between, zero, nine, a, f, a', f']
  split_ifs <;> simp only [Option.some.injEq, false_iff] <;> omega

/-- One to six hexadecimal digits that write a number. -/
structure HexNumber (digits : List Char) (code : Nat) : Prop where
  nonempty : digits ≠ []
  short : digits.length ≤ 6
  value : ∃ values, List.Forall₂ IsHexDigit digits values ∧ code = Nat.ofDigits 16 values.reverse

theorem HexNumber.isSome {digits : List Char} {code : Nat} (number : HexNumber digits code) :
    ∀ c ∈ digits, (hexDigit? c).isSome = true := by
  obtain ⟨values, spelled, -⟩ := number.value
  clear number
  induction spelled with
  | nil => simp
  | cons first _ ih =>
      rw [List.forall_mem_cons, hexDigit?_eq_some.mpr first]
      exact ⟨rfl, ih⟩

/-- Digits write a number. -/
theorem HexNumber.of_isSome {digits : List Char} (nonempty : digits ≠ [])
    (short : digits.length ≤ 6) (known : ∀ c ∈ digits, (hexDigit? c).isSome = true) :
    HexNumber digits (hexValue digits) := by
  have spelled : List.Forall₂ IsHexDigit digits (digits.map fun c => (hexDigit? c).getD 0) := by
    rw [List.forall₂_map_right_iff, List.forall₂_same]
    intro c mem
    obtain ⟨value, digit⟩ := Option.isSome_iff_exists.mp (known c mem)
    rw [digit]
    exact hexDigit?_eq_some.mp digit
  exact ⟨nonempty, short, _, spelled, foldl_eq_ofDigits (spelled.imp fun _ _ =>
    hexDigit?_eq_some.mpr)⟩

theorem HexNumber.hexValue_eq {digits : List Char} {code : Nat} (number : HexNumber digits code) :
    hexValue digits = code := by
  obtain ⟨values, spelled, rfl⟩ := number.value
  exact foldl_eq_ofDigits (spelled.imp fun _ _ => hexDigit?_eq_some.mpr)

/-! ## What stands in quotes -/

/-- The letters behind a backslash, and what they name. -/
def namedCharacters : List (Char × Char) :=
  [('n', '\n'), ('t', '\t'), ('r', '\r'), ('\\', '\\'), ('"', '"'), ('\x27', '\x27')]

/-- The ways to write a character in quotes. -/
inductive SpellsChar : List Char → Char → Prop
  | raw {c : Char} (quote : c ≠ '"') (backslash : c ≠ '\\') (feed : c ≠ '\n') : SpellsChar [c] c
  | named {letter c : Char} (known : (letter, c) ∈ namedCharacters) : SpellsChar ['\\', letter] c
  | code {digits : List Char} {c : Char} (number : HexNumber digits c.toNat) :
      SpellsChar ('\\' :: 'u' :: '\x7b' :: (digits ++ ['\x7d'])) c

/-- The ways to write a text in quotes, character by character. -/
inductive SpellsText : List Char → List Char → Prop
  | nil : SpellsText [] []
  | cons {written more value : List Char} {c : Char} (first : SpellsChar written c)
      (others : SpellsText more value) : SpellsText (written ++ more) (c :: value)

/-- What cannot be the end of a text in quotes nor go on with it. -/
inductive Breaks : List Char → Prop
  | unclosed : Breaks []
  | feed (rest : List Char) : Breaks ('\n' :: rest)
  | dangling : Breaks ['\\']
  | unknown {letter : Char} (rest : List Char) (code : letter ≠ 'u')
      (nothing : ∀ c, (letter, c) ∉ namedCharacters) : Breaks ('\\' :: letter :: rest)
  | noNumber {rest : List Char} (none : ∀ digits code behind, HexNumber digits code →
      rest ≠ '\x7b' :: (digits ++ '\x7d' :: behind)) : Breaks ('\\' :: 'u' :: rest)
  | noCharacter {digits : List Char} {code : Nat} (number : HexNumber digits code)
      (none : 0xD800 ≤ code ∧ code ≤ 0xDFFF ∨ 0x110000 ≤ code) (rest : List Char) :
      Breaks ('\\' :: 'u' :: '\x7b' :: (digits ++ '\x7d' :: rest))

/-- What is wrong behind an opening quote: after characters that are well spelled, if any, comes
something else than a further one or a closing quote. -/
def Malformed (text : List Char) : Prop :=
  ∃ written value behind, SpellsText written value ∧ Breaks behind ∧ text = written ++ behind

/-- A text behind an opening quote is spelled up to a closing one. -/
def WellFormed (text : List Char) : Prop :=
  ∃ written value behind, SpellsText written value ∧ text = written ++ '"' :: behind

theorem Breaks.malformed {text : List Char} (wrong : Breaks text) : Malformed text :=
  ⟨[], [], text, .nil, wrong, rfl⟩

/-- A character in front does not change whether a text is well spelled. -/
theorem SpellsChar.wellFormed_or_malformed {first rest : List Char} {c : Char}
    (spells : SpellsChar first c) (either : WellFormed rest ∨ Malformed rest) :
    WellFormed (first ++ rest) ∨ Malformed (first ++ rest) := by
  rcases either with ⟨written, value, behind, others, rfl⟩ | wrong
  · exact .inl ⟨first ++ written, c :: value, behind, .cons spells others, by simp⟩
  · obtain ⟨written, value, behind, others, wrong, rfl⟩ := wrong
    exact .inr ⟨first ++ written, c :: value, behind, .cons spells others, wrong, by simp⟩

/-- A code point that is neither a surrogate nor out of range is that of a character. -/
theorem exists_toNat_eq {code : Nat} (valid : ¬ (0xD800 ≤ code ∧ code ≤ 0xDFFF ∨ 0x110000 ≤ code)) :
    ∃ c : Char, c.toNat = code := by
  have isChar : code.isValidChar := by
    rw [Nat.isValidChar]
    omega
  exact ⟨Char.ofNat code, by rw [Char.ofNat, dif_pos isChar]; rfl⟩

/-- There is nothing between what is well spelled and what is malformed. -/
theorem wellFormed_or_malformed (text : List Char) : WellFormed text ∨ Malformed text := by
  match text with
  | [] => exact .inr Breaks.unclosed.malformed
  | c :: rest =>
      by_cases quote : c = '"'
      · exact .inl ⟨[], [], rest, .nil, by rw [quote]; rfl⟩
      by_cases feed : c = '\n'
      · rw [feed]
        exact .inr (Breaks.feed rest).malformed
      by_cases backslash : c = '\\'
      · subst backslash
        match rest with
        | [] => exact .inr Breaks.dangling.malformed
        | letter :: rest =>
            by_cases coded : letter = 'u'
            · subst coded
              by_cases braced : ∃ digits code behind, HexNumber digits code ∧
                  rest = '\x7b' :: (digits ++ '\x7d' :: behind)
              · obtain ⟨digits, code, behind, number, rfl⟩ := braced
                by_cases none : 0xD800 ≤ code ∧ code ≤ 0xDFFF ∨ 0x110000 ≤ code
                · exact .inr (Breaks.noCharacter number none behind).malformed
                · obtain ⟨c, rfl⟩ := exists_toNat_eq none
                  simpa using (SpellsChar.code number).wellFormed_or_malformed
                    (wellFormed_or_malformed behind)
              · refine .inr (Breaks.noNumber ?_).malformed
                rintro digits code behind number rfl
                exact braced ⟨digits, code, behind, number, rfl⟩
            by_cases known : ∃ c, (letter, c) ∈ namedCharacters
            · obtain ⟨c, known⟩ := known
              exact (SpellsChar.named known).wellFormed_or_malformed (wellFormed_or_malformed rest)
            · exact .inr (Breaks.unknown rest coded (not_exists.mp known)).malformed
      · exact (SpellsChar.raw quote backslash feed).wellFormed_or_malformed
          (wellFormed_or_malformed rest)
termination_by text.length

/-! ## How spellings are read -/

/-- Put characters that were consumed, and those of the value that they complete, in front of a
literal. -/
def StringLiteral.behind (text value : List Char) (literal : StringLiteral) : StringLiteral :=
  ⟨value ++ literal.value, text ++ literal.text, literal.rest⟩

theorem prepend_eq_behind (c : Char) (value : Option Char) :
    StringLiteral.prepend c value = .behind [c] value.toList := rfl

theorem map_behind_behind (found : Except SyntaxFault StringLiteral)
    (text value text' value' : List Char) :
    (found.map (StringLiteral.behind text' value')).map (StringLiteral.behind text value) =
      found.map (StringLiteral.behind (text ++ text') (value ++ value')) := by
  cases found with
  | error => rfl
  | ok => simp [Except.map, StringLiteral.behind]

theorem charOfCode?_toNat (c : Char) : charOfCode? c.toNat = some c := by
  have valid : c.toNat < 0xD800 ∨ 0xDFFF < c.toNat ∧ c.toNat < 0x110000 := c.valid
  rw [charOfCode?, if_pos valid, Char.ofNat_toNat]

/-- Digits of a code point are gathered. -/
theorem stringBody_hex {read digits : List Char}
    (known : ∀ c ∈ digits, (hexDigit? c).isSome = true) (short : (read ++ digits).length ≤ 6)
    (rest : List Char) :
    stringBody (.hex read) (digits ++ rest) =
      (stringBody (.hex (read ++ digits)) rest).map (.behind digits []) := by
  induction digits generalizing read with
  | nil =>
      rw [List.append_nil, List.nil_append]
      cases stringBody (.hex read) rest <;> rfl
  | cons c digits ih =>
      rw [List.forall_mem_cons] at known
      have other : c ≠ '\x7d' := by
        rintro rfl
        exact absurd known.1 (by decide)
      have room : read.length < 6 := by
        simp only [List.length_append, List.length_cons] at short
        omega
      rw [List.cons_append, stringBody, if_neg other, if_pos (by simp [known.1, room]),
        ih known.2 (by simpa using short), List.append_assoc, prepend_eq_behind, map_behind_behind]
      rfl

/-- A code point in braces is that of a character or it is refused. -/
theorem stringBody_code {digits : List Char} {code : Nat} (number : HexNumber digits code)
    (rest : List Char) :
    stringBody .plain ('\\' :: 'u' :: '\x7b' :: (digits ++ '\x7d' :: rest)) =
      match charOfCode? code with
      | some c => (stringBody .plain rest).map
          (.behind ('\\' :: 'u' :: '\x7b' :: (digits ++ ['\x7d'])) [c])
      | none => .error (.invalidCodePoint (String.ofList digits)) := by
  have nonempty : digits.isEmpty = false := by simp [number.nonempty]
  have short : ([] ++ digits).length ≤ 6 := number.short
  have gathered := stringBody_hex number.isSome short ('\x7d' :: rest)
  rw [stringBody, if_neg (by decide), if_pos rfl, stringBody, if_pos rfl, stringBody, if_pos rfl,
    gathered, List.nil_append, stringBody, if_pos rfl, nonempty, number.hexValue_eq]
  cases charOfCode? code with
  | none => rfl
  | some c =>
      simp only [prepend_eq_behind, map_behind_behind, Bool.false_eq_true, if_false]
      rfl

theorem simpleEscape?_of_mem {letter c : Char} (known : (letter, c) ∈ namedCharacters) :
    letter ≠ 'u' ∧ simpleEscape? letter = some c := by
  have all : ∀ entry ∈ namedCharacters,
      entry.1 ≠ 'u' ∧ simpleEscape? entry.1 = some entry.2 := by decide
  exact all _ known

theorem mem_of_simpleEscape? {letter c : Char} (known : simpleEscape? letter = some c) :
    (letter, c) ∈ namedCharacters := by
  rw [simpleEscape?] at known
  split_ifs at known with n t r backslash quote apostrophe <;> cases known <;> subst letter <;>
    decide

/-- A spelled character is read as that character. -/
theorem SpellsChar.read {written : List Char} {c : Char} (spells : SpellsChar written c)
    (rest : List Char) :
    stringBody .plain (written ++ rest) = (stringBody .plain rest).map (.behind written [c]) := by
  cases spells with
  | raw quote backslash feed =>
      rw [List.singleton_append, stringBody, if_neg quote, if_neg backslash, if_neg feed]
      rfl
  | @named letter _ known =>
      obtain ⟨other, meant⟩ := simpleEscape?_of_mem known
      rw [List.cons_append, List.singleton_append, stringBody, if_neg (by decide), if_pos rfl,
        stringBody, if_neg other, meant]
      simp only [prepend_eq_behind, map_behind_behind]
      rfl
  | @code digits _ number =>
      have read := stringBody_code number rest
      rw [charOfCode?_toNat] at read
      simpa using read

/-- A spelled text is read as that text. -/
theorem SpellsText.read {written value : List Char} (spells : SpellsText written value)
    (rest : List Char) :
    stringBody .plain (written ++ rest) = (stringBody .plain rest).map (.behind written value) := by
  induction spells with
  | nil =>
      rw [List.nil_append]
      cases stringBody .plain rest <;> rfl
  | cons first _ ih =>
      rw [List.append_assoc, first.read, ih, map_behind_behind]
      rfl

/-- Where a code point in braces is accepted, there are digits up to the closing brace. -/
theorem exists_digits_of_stringBody {read text : List Char} {literal : StringLiteral}
    (short : read.length ≤ 6) (ends : stringBody (.hex read) text = .ok literal) :
    ∃ digits behind, text = digits ++ '\x7d' :: behind ∧ read ++ digits ≠ [] ∧
      (read ++ digits).length ≤ 6 ∧ ∀ c ∈ digits, (hexDigit? c).isSome = true := by
  induction text generalizing read literal with
  | nil => cases ends
  | cons c rest ih =>
      rw [stringBody] at ends
      by_cases closing : c = '\x7d'
      · rw [if_pos closing] at ends
        refine ⟨[], rest, by rw [closing]; rfl, ?_, by simpa using short, by simp⟩
        rintro empty
        rw [List.append_nil] at empty
        rw [empty] at ends
        cases ends
      · rw [if_neg closing] at ends
        split_ifs at ends with digit
        · rw [Bool.and_eq_true, decide_eq_true_eq] at digit
          obtain ⟨behind, further, -⟩ := exists_of_prepend ends
          have room : (read ++ [c]).length ≤ 6 := by
            rw [List.length_append]
            exact digit.2
          obtain ⟨digits, last, rfl, some, fits, known⟩ := ih room further
          refine ⟨c :: digits, last, rfl, ?_, ?_, ?_⟩
          · simp
          · simpa using fits
          · exact List.forall_mem_cons.mpr ⟨digit.1, known⟩

/-- What cannot go on with a text in quotes is refused. -/
theorem Breaks.refused {text : List Char} (wrong : Breaks text) :
    ∃ fault, stringBody .plain text = .error fault := by
  cases wrong with
  | unclosed => exact ⟨_, rfl⟩
  | feed rest => exact ⟨_, rfl⟩
  | dangling => exact ⟨_, rfl⟩
  | @unknown letter rest other nothing =>
      have unnamed : simpleEscape? letter = none :=
        Option.eq_none_iff_forall_ne_some.mpr fun c known =>
          nothing c (mem_of_simpleEscape? known)
      refine ⟨.invalidEscape letter, ?_⟩
      rw [stringBody, if_neg (by decide), if_pos rfl, stringBody, if_neg other, unnamed]
      rfl
  | @noNumber rest none =>
      rw [stringBody, if_neg (by decide), if_pos rfl, stringBody, if_pos rfl]
      cases read : stringBody .brace rest with
      | error fault => exact ⟨fault, rfl⟩
      | ok literal =>
          exfalso
          cases rest with
          | nil => cases read
          | cons c rest =>
              rw [stringBody] at read
              split_ifs at read with brace
              obtain ⟨behind, further, -⟩ := exists_of_prepend read
              have empty : ([] : List Char).length ≤ 6 := Nat.zero_le 6
              obtain ⟨digits, last, rfl, some, fits, known⟩ :=
                exists_digits_of_stringBody empty further
              exact none digits _ last (.of_isSome some fits known) (by rw [brace])
  | @noCharacter digits code number none rest =>
      have refused : charOfCode? code = Option.none := by
        rw [charOfCode?, if_neg (by omega)]
      exact ⟨_, by rw [stringBody_code number, refused]⟩

theorem Malformed.refused {text : List Char} (malformed : Malformed text) :
    ∃ fault, stringBody .plain text = .error fault := by
  obtain ⟨written, value, behind, spells, wrong, rfl⟩ := malformed
  obtain ⟨fault, refused⟩ := wrong.refused
  exact ⟨fault, by rw [spells.read, refused]; rfl⟩

/-! ## The tokens of literals -/

/-- What begins with a quote is a literal or refused, and nothing of it is skipped. -/
theorem tokensFrom_quote (pos : Position) (rest : List Char) :
    tokensFrom pos ('"' :: rest) = match stringBody .plain rest with
      | .error fault => .error ⟨fault, pos⟩
      | .ok literal => (tokensFrom (pos.advance ('"' :: literal.text)) literal.rest).map
          (⟨.str (String.ofList literal.value), pos⟩ :: ·) := by
  have noSymbol : ∀ entry ∈ symbolSpellings, entry.1.head?.any (· == '"') = false := by decide
  have solid := splitTrivia_of_solid (c := '"') (by decide) (by decide) rest
  rw [tokensFrom_of_cons solid, lexeme, symbol?_eq_none noSymbol rfl, string]
  cases stringBody .plain rest <;> rfl

theorem SpellsText.tokensFrom_eq {written value : List Char} (spells : SpellsText written value)
    (pos : Position) (rest : List Char) :
    tokensFrom pos ('"' :: (written ++ '"' :: rest)) =
      (tokensFrom (pos.advance ('"' :: (written ++ ['"']))) rest).map
        (⟨.str (String.ofList value), pos⟩ :: ·) := by
  have closed : stringBody .plain ('"' :: rest) = .ok ⟨[], ['"'], rest⟩ := rfl
  rw [tokensFrom_quote, spells.read, closed]
  simp [Except.map, StringLiteral.behind]

theorem Malformed.tokensFrom_eq {text : List Char} (malformed : Malformed text) (pos : Position) :
    ∃ fault, tokensFrom pos ('"' :: text) = .error ⟨fault, pos⟩ := by
  obtain ⟨fault, refused⟩ := malformed.refused
  exact ⟨fault, by rw [tokensFrom_quote, refused]⟩

end Qalam.Scan
