/-
# Lexing undoes spelling

Tokens can be written down one on each line, each in its canonical spelling: keywords and symbols by
their spellings, integers by their decimal digits, names as they are, and texts in quotes with the
characters escaped that would end the text or the line. Cutting such a source into tokens gives back
what was written. What cutting any source gives can be written in this way, but for numbers with a
point and the end of the source.

A line feed keeps tokens apart, so it suffices that each token alone is read back. That no symbol is
read as the beginning of another one, that no slash begins a comment and that the first word of a
keyword of two words is not joined with a name on the next line need no argument of their own.
-/

import Qalam.Proofs.Layout.Concatenation
import Qalam.Proofs.Lexing.Word

namespace Qalam

namespace Scan

/-- A character as it is written in a string literal. -/
def escaped (c : Char) : List Char :=
  if c = '"' then ['\\', '"'] else if c = '\\' then ['\\', '\\']
  else if c = '\n' then ['\\', 'n'] else [c]

end Scan

namespace TokenKind

/-- The canonical spelling of a token. Numbers with a point are written as in messages, and the end
of a source has no characters. -/
def spelling : TokenKind → String
  | keyword word => word.spelling
  | symbol sign => sign.spelling
  | int value => Decimal.digitText value
  | float value => value.text
  | str value => String.ofList ('"' :: (value.toList.flatMap Scan.escaped ++ ['"']))
  | ident name => name
  | eof => ""

/-- A token that can be read back from its canonical spelling. -/
def Spellable : TokenKind → Prop
  | ident name => IsName name
  | float _ | eof => False
  | _ => True

instance : DecidablePred Spellable
  | ident name => inferInstanceAs (Decidable (IsName name))
  | float _ | eof => inferInstanceAs (Decidable False)
  | keyword _ | symbol _ | int _ | str _ => inferInstanceAs (Decidable True)

/-- The canonical spellings of tokens on a line each. -/
def spelled (kinds : List TokenKind) : String := "\n".intercalate (kinds.map spelling)

end TokenKind

namespace Scan

/-! ## One token -/

/-- A text is read as one token and nothing else. -/
structure Spells (kind : TokenKind) (text : List Char) : Prop where
  solid : splitTrivia false text = ([], text)
  whole : ∃ c rest, text = c :: rest ∧ lexeme c rest = .ok ⟨kind, text, []⟩

theorem splitTrivia_of_solid {c : Char} (blank : Text.isBlank c = false) (slash : c ≠ '/')
    (rest : List Char) : splitTrivia false (c :: rest) = ([], c :: rest) := by
  simp [splitTrivia, blank, slash]

theorem spells_symbol (sign : Symbol) : Spells (.symbol sign) sign.spelling.toList := by
  have found : symbol? sign.spelling.toList =
      some ⟨.symbol sign, sign.spelling.toList, []⟩ := by
    cases sign <;> rfl
  refine ⟨by cases sign <;> decide +kernel, ?_⟩
  cases chars : sign.spelling.toList with
  | nil =>
      rw [chars] at found
      cases found
  | cons c rest =>
      rw [chars] at found
      exact ⟨c, rest, rfl, by rw [lexeme, found]⟩

/-- What begins like a word and is read as a word. -/
theorem spells_word {kind : TokenKind} {text : List Char}
    (begins : text.head?.any isWordStart = true) (read : word text = ⟨kind, text, []⟩) :
    Spells kind text := by
  cases text with
  | nil => cases begins
  | cons c rest =>
      have start : isWordStart c = true := begins
      have slash : c ≠ '/' := by
        rintro rfl
        exact absurd start (by decide +kernel)
      refine ⟨splitTrivia_of_solid (not_blank_of_isWordStart start) slash rest, c, rest, rfl, ?_⟩
      rw [lexeme_of_isWordStart start, read]

theorem spells_ident {name : String} (named : IsName name) : Spells (.ident name) name.toList :=
  spells_word named.begins (word_of_isName named)

/-- Keywords of one word are spelled by words. -/
theorem oneWord_spelling : ∀ keyword ∈ Keyword.oneWord,
    keyword.spelling.toList.head?.any isWordStart = true ∧
      keyword.spelling.toList.all isWordChar = true ∧ '&' ∉ keyword.spelling.toList ∧
      Keyword.ofWord? keyword.spelling = some keyword := by
  decide +kernel

theorem spells_keyword (keyword : Keyword) :
    Spells (.keyword keyword) keyword.spelling.toList := by
  have one : keyword ∈ Keyword.oneWord ∨ keyword = .defaultKw := by
    cases keyword <;> decide
  rcases one with one | rfl
  · obtain ⟨begins, continues, single, known⟩ := oneWord_spelling keyword one
    have apart : ¬ ['&', '&'] <:+: keyword.spelling.toList :=
      fun inside => single (inside.subset List.mem_cons_self)
    have split := splitWord_eq_self (List.all_eq_true.mp continues) apart
    apply spells_word begins
    simp only [word, split, String.ofList_toList, known]
  · exact spells_word (by decide +kernel) (by cbv)

theorem toNat_of_isDigit {c : Char} (digit : c.isDigit = true) :
    0x30 ≤ c.toNat ∧ c.toNat ≤ 0x39 := by
  simpa [Char.isDigit, UInt32.le_iff_toNat_le] using digit

theorem digit?_of_isDigit {c : Char} (digit : c.isDigit = true) :
    digit? c = some (c.toNat - '0'.toNat) := by
  rw [digit?, if_pos (toNat_of_isDigit digit)]
  rfl

theorem not_blank_of_isDigit {c : Char} (digit : c.isDigit = true) : Text.isBlank c = false := by
  rw [Bool.eq_false_iff]
  intro blank
  exact Bool.false_ne_true ((Text.not_isDigit_of_isBlank blank).symm.trans digit)

theorem splitDigits_eq_self {text : List Char} (digits : ∀ c ∈ text, c.isDigit = true) :
    splitDigits text = (text, []) := by
  induction text with
  | nil => rfl
  | cons c rest ih =>
      rw [List.forall_mem_cons] at digits
      rw [splitDigits, digit?_of_isDigit digits.1, ih digits.2]
      rfl

theorem digitsValue_toDigits (n : Nat) : digitsValue (Nat.toDigits 10 n) = n := by
  have step : ∀ (value : Nat), ∀ c ∈ Nat.toDigits 10 n,
      10 * value + (digit? c).getD 0 = 10 * value + (c.toNat - '0'.toNat) := by
    intro value c mem
    rw [digit?_of_isDigit (Nat.isDigit_of_mem_toDigits (by decide) (by decide) mem)]
    rfl
  rw [digitsValue, List.foldl_ext _ _ 0 step]
  exact Nat.ofDigitChars_toDigits (by decide) (by decide)

theorem spells_int (n : Nat) : Spells (.int n) (Nat.toDigits 10 n) := by
  have digits : ∀ c ∈ Nat.toDigits 10 n, c.isDigit = true :=
    fun c mem => Nat.isDigit_of_mem_toDigits (by decide) (by decide) mem
  have noSymbol : ∀ entry ∈ symbolSpellings, entry.1.head?.any Char.isDigit = false := by decide
  have read : number (Nat.toDigits 10 n) = ⟨.int n, Nat.toDigits 10 n, []⟩ := by
    simp only [number, splitDigits_eq_self digits, digitsValue_toDigits]
  cases chars : Nat.toDigits 10 n with
  | nil => exact absurd chars Nat.toDigits_ne_nil
  | cons c rest =>
      rw [chars] at digits read
      have digit := digits c List.mem_cons_self
      have other : ∀ d : Char, d.isDigit = false → c ≠ d := by
        rintro d different rfl
        exact Bool.false_ne_true (different.symm.trans digit)
      have value := digit?_of_isDigit digit
      have solid : Text.isBlank c = false := not_blank_of_isDigit digit
      refine ⟨splitTrivia_of_solid solid (other '/' rfl) rest, c, rest, rfl, ?_⟩
      rw [lexeme, symbol?_eq_none noSymbol digit]
      simp [other '&' rfl, other '|' rfl, other '"' rfl, value, read]

/-- An escaped character is read as the character. -/
theorem stringBody_escaped (c : Char) (more : List Char) :
    stringBody .plain (escaped c ++ more) = (stringBody .plain more).map fun literal =>
      ⟨c :: literal.value, escaped c ++ literal.text, literal.rest⟩ := by
  have joined : ∀ first second value : Char,
      ((stringBody .plain more).map (.prepend second value)).map
          (StringLiteral.prepend first none) =
        (stringBody .plain more).map fun literal =>
          ⟨value :: literal.value, first :: second :: literal.text, literal.rest⟩ := by
    intro first second value
    cases stringBody .plain more <;> rfl
  rw [escaped]
  split
  · rename_i quote
    rw [quote]
    exact joined '\\' '"' '"'
  · rename_i quote
    split
    · rename_i backslash
      rw [backslash]
      exact joined '\\' '\\' '\\'
    · rename_i backslash
      split
      · rename_i feed
        rw [feed]
        exact joined '\\' 'n' '\n'
      · rename_i feed
        rw [List.singleton_append, stringBody, if_neg quote, if_neg backslash, if_neg feed]
        rfl

/-- A text that was written in quotes is read up to the closing one. -/
theorem stringBody_quoted (value : List Char) :
    stringBody .plain (value.flatMap escaped ++ ['"']) =
      .ok ⟨value, value.flatMap escaped ++ ['"'], []⟩ := by
  induction value with
  | nil => rfl
  | cons c rest ih =>
      rw [List.flatMap_cons, List.append_assoc, stringBody_escaped, ih]
      simp [Except.map]

theorem spells_str (value : String) :
    Spells (.str value) (TokenKind.str value).spelling.toList := by
  rw [TokenKind.spelling, String.toList_ofList]
  refine ⟨splitTrivia_of_solid (by decide) (by decide) _, _, _, rfl, ?_⟩
  have noSymbol : ∀ entry ∈ symbolSpellings, entry.1.head?.any (· == '"') = false := by decide
  rw [lexeme, symbol?_eq_none noSymbol rfl]
  simp [string, stringBody_quoted, Except.map]

theorem spells_of_spellable {kind : TokenKind} (spellable : kind.Spellable) :
    Spells kind kind.spelling.toList := by
  cases kind with
  | keyword keyword => exact spells_keyword keyword
  | symbol sign => exact spells_symbol sign
  | int n =>
      rw [TokenKind.spelling, Decimal.digitText, String.toList_ofList]
      exact spells_int n
  | str value => exact spells_str value
  | ident name => exact spells_ident spellable
  | float | eof => exact spellable.elim

end Scan

/-! ## Lines of tokens -/

open TokenKind

theorem Scan.tokensFrom_nil (pos : Position) : tokensFrom pos [] = .ok [⟨.eof, pos⟩] := by
  have nothing : splitTrivia false [] = ([], []) := rfl
  rw [tokensFrom_of_nil nothing]
  rfl

/-- What is read from a text alone is the only token of the text. -/
theorem tokenize_of_spells {kind : TokenKind} {source : String}
    (spells : Scan.Spells kind source.toList) :
    ∃ last : Token, last.kind = .eof ∧ tokenize source = .ok ([⟨kind, .start⟩] ++ [last]) := by
  obtain ⟨c, rest, chars, read⟩ := spells.whole
  have solid := spells.solid
  rw [chars] at solid read
  refine ⟨⟨.eof, Position.start.advance source.toList⟩, rfl, ?_⟩
  rw [tokenize, chars, Scan.tokensFrom_of_cons solid, read]
  dsimp only
  rw [Scan.tokensFrom_nil]
  rfl

/-- Tokens that are written down one on each line are read back. -/
theorem tokenize_spelled {kinds : List TokenKind} (spellable : ∀ kind ∈ kinds, kind.Spellable) :
    ∃ tokens, tokenize (spelled kinds) = .ok tokens ∧
      tokens.map Token.kind = kinds ++ [TokenKind.eof] := by
  induction kinds with
  | nil => exact ⟨[⟨.eof, .start⟩], Scan.tokensFrom_nil .start, rfl⟩
  | cons kind others ih =>
      rw [List.forall_mem_cons] at spellable
      obtain ⟨last, ends, alone⟩ := tokenize_of_spells (Scan.spells_of_spellable spellable.1)
      cases others with
      | nil => exact ⟨_, alone, by simp [ends]⟩
      | cons next others =>
          obtain ⟨tokens, read, kinds⟩ := ih spellable.2
          have lines : spelled (kind :: next :: others) =
              kind.spelling ++ "\n" ++ spelled (next :: others) :=
            String.intercalate_cons_cons
          refine ⟨_, by rw [lines]; exact tokenize_append alone read, ?_⟩
          rw [List.map_append, List.map_map]
          exact congrArg (kind :: ·) kinds

/-- A token that is not the end can be spelled or is a number with a point. -/
def TokenKind.SpellableOrFloat (kind : TokenKind) : Prop :=
  kind.Spellable ∨ ∃ value, kind = .float value

theorem spellableOrFloat_of_lexeme (c : Char) (rest : List Char) (token : Scan.Lexeme)
    (read : Scan.lexeme c rest = .ok token) : token.kind.SpellableOrFloat := by
  cases kind : token.kind with
  | keyword | symbol | int | str => exact .inl trivial
  | float value => exact .inr ⟨value, rfl⟩
  | ident name => exact .inl (Scan.isName_of_lexeme read kind)
  | eof => exact absurd kind (Scan.lexeme_kind read)

/-- Tokens that can be spelled are read back from their lines, and what is read from any source can
be spelled, but for numbers with a point and the end. So whatever is read without such numbers is
read once more from its spelling. -/
theorem tokenize_inverts_spelling :
    (∀ kinds : List TokenKind, (∀ kind ∈ kinds, kind.Spellable) → ∃ tokens,
      tokenize (spelled kinds) = .ok tokens ∧ tokens.map Token.kind = kinds ++ [.eof]) ∧
    ∀ source tokens, tokenize source = .ok tokens → ∃ body last,
      tokens = body ++ [last] ∧ last.kind = .eof ∧
      (∀ token ∈ body, token.kind.SpellableOrFloat) ∧
      ∀ kinds : List TokenKind, kinds.Sublist (body.map Token.kind) →
        (∀ value, .float value ∉ kinds) → ∃ tokens',
          tokenize (spelled kinds) = .ok tokens' ∧ tokens'.map Token.kind = kinds ++ [.eof] := by
  refine ⟨fun kinds => tokenize_spelled, fun source tokens read => ?_⟩
  obtain ⟨body, last, rfl, ends, real⟩ := Scan.tokensFrom_ends read
  have known : ∀ token ∈ body, token.kind.SpellableOrFloat := by
    intro token mem
    have either := Scan.forall_kind_of_tokensFrom spellableOrFloat_of_lexeme read token
      (List.mem_append_left _ mem)
    exact either.resolve_left (real token mem)
  refine ⟨body, last, rfl, ends, known, fun kinds among exact => tokenize_spelled ?_⟩
  intro kind mem
  obtain ⟨token, listed, rfl⟩ := List.mem_map.mp (among.subset mem)
  refine (known token listed).resolve_right ?_
  rintro ⟨value, same⟩
  exact exact value (same ▸ mem)

/-- Tokens that could be mistaken for others if they stood side by side. -/
def closeKinds : List TokenKind :=
  [.symbol .lt, .symbol .eq, .ident "خلاف", .ident "ذلك", .keyword .defaultKw, .int 5,
    .symbol .dot, .int 3, .symbol .slash, .symbol .slash, .ident "ا&ب", .symbol .andAnd,
    .str "\"\\\n"]

theorem tokenize_inverts_spelling_close :
    (∃ tokens, tokenize (spelled closeKinds) = .ok tokens ∧
      tokens.map Token.kind = closeKinds ++ [.eof]) ∧
    ∃ tokens, tokenize "متغير" = .ok tokens ∧ ∃ tokens',
      tokenize (spelled [.keyword .letKw]) = .ok tokens' ∧
        tokens'.map Token.kind = tokens.map Token.kind := by
  have first : ∀ kind ∈ closeKinds, kind.Spellable := by decide +kernel
  have read : tokenize "متغير" = .ok [⟨.keyword .letKw, ⟨1, 1⟩⟩, ⟨.eof, ⟨1, 6⟩⟩] := by cbv
  refine ⟨tokenize_inverts_spelling.1 closeKinds first, _, read, ?_⟩
  obtain ⟨body, last, whole, -, -, again⟩ := tokenize_inverts_spelling.2 _ _ read
  have split : [⟨.keyword .letKw, ⟨1, 1⟩⟩] ++ [⟨.eof, ⟨1, 6⟩⟩] = body ++ [last] := whole
  obtain ⟨rfl, -⟩ := List.append_inj' split rfl
  exact again [.keyword .letKw] (List.Sublist.refl _) (by simp)

end Qalam
