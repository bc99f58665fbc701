/-
# Constants keep their values

Whatever way an integer or a text is written in a source, the generated text denotes the same value.
An integer keeps all its digits and gets no leading zero, which would make it an octal number. A
text is decoded here as a string literal of JavaScript: with all escapes of that language, and to
code units of sixteen bits, since that is what its strings are made of.
-/

import Qalam.Compiler
import Qalam.Proofs.EcmaScript.Spelling
import Qalam.Proofs.Lexing.Escapes
import Qalam.Proofs.Location.Reached

namespace Qalam

/-! ## A program that is a constant -/

/-- A source has a bound tree, for which this text is generated with any names. -/
def Emits (source text : String) : Prop :=
  ∃ bound, analyzeSource source = .ok bound ∧
    ∀ oracle indent, bound.program.generate oracle indent = text

namespace Scan

/-- A semicolon and the end of the text. -/
theorem tokensFrom_semicolon (pos : Position) :
    tokensFrom pos ['؛'] = .ok [⟨.symbol .semi, pos⟩, ⟨.eof, pos.step '؛'⟩] := by
  have solid : splitTrivia false ['؛'] = ([], ['؛']) :=
    splitTrivia_of_solid (by decide) (by decide) []
  have read : lexeme '؛' [] = .ok ⟨.symbol .semi, ['؛'], []⟩ := rfl
  rw [tokensFrom_of_cons solid, read]
  dsimp only
  rw [tokensFrom_nil]
  rfl

end Scan

/-- A constant in front of a semicolon. -/
theorem emits_constant {source : String} {kind : TokenKind} {value : Literal}
    {first second : Position} (constant : Parser.literal? kind = some value)
    (lexed : tokenize source = (Scan.tokensFrom second ['؛']).map (⟨kind, first⟩ :: ·)) :
    Emits source (JavaScript.literal value ++ ";") := by
  have read (third : Position) :
      Program.ofTokens [⟨kind, first⟩, ⟨.symbol .semi, second⟩, ⟨.eof, third⟩] =
        .ok ⟨[.expr first (.literal (.at first) value)]⟩ := by
    cases kind with
    | int | float | str =>
        cases constant
        rfl
    | keyword keyword => cases keyword <;> cases constant <;> rfl
    | _ => cases constant
  have bound : ∃ bound, (Program.mk [.expr first (.literal (.at first) value)]).bind = .ok bound ∧
      ∀ oracle indent, bound.program.generate oracle indent = JavaScript.literal value ++ ";" :=
    ⟨_, rfl, fun _ _ => rfl⟩
  rw [Scan.tokensFrom_semicolon] at lexed
  obtain ⟨bound, binds, generates⟩ := bound
  have parsed := parseSource_ok.mpr ⟨_, lexed, read _⟩
  refine ⟨bound, ?_, generates⟩
  rw [analyzeSource, parsed]
  exact congrArg (Except.mapError CompileError.semantic) binds

/-! ## Integers -/

section

open Scan

/-- A decimal digit of ASCII, with its value. -/
def IsAsciiDigit (c : Char) (value : Nat) : Prop := value < 10 ∧ c.toNat = 0x30 + value

/-- A text is a number in decimal digits without leading zeros. -/
structure IsDecimal (text : String) (value : Nat) : Prop where
  digits : ∃ values, List.Forall₂ IsAsciiDigit text.toList values ∧
    Nat.ofDigits 10 values.reverse = value
  nonempty : text ≠ ""
  leading : text.toList.head? = some '0' → value = 0 ∧ text = "0"

theorem isDecimal_digitText (n : Nat) : IsDecimal (Decimal.digitText n) n := by
  have ascii : ∀ c ∈ Nat.toDigits 10 n, 0x30 ≤ c.toNat ∧ c.toNat ≤ 0x39 := fun c mem =>
    toNat_of_isDigit (Nat.isDigit_of_mem_toDigits (by decide) (by decide) mem)
  have digits : List.Forall₂ IsAsciiDigit (Nat.toDigits 10 n)
      ((Nat.toDigits 10 n).map fun c => c.toNat - 0x30) := by
    rw [List.forall₂_map_right_iff, List.forall₂_same]
    intro c mem
    have bounds := ascii c mem
    exact ⟨by omega, by omega⟩
  have value : digitsValue (Nat.toDigits 10 n) = _ := foldl_eq_ofDigits <| digits.imp
    fun c value digit => digit?_eq_some.mpr ⟨digit.1, .inl digit.2⟩
  rw [digitsValue_toDigits] at value
  have text : (Decimal.digitText n).toList = Nat.toDigits 10 n := String.toList_ofList
  constructor
  · rw [text]
    exact ⟨_, digits, value.symm⟩
  · intro empty
    rw [empty] at text
    exact Nat.toDigits_ne_nil text.symm
  · intro leading
    rw [text] at leading
    rcases (EcmaScript.isWhole_toDigits n).2 with zero | ⟨-, other⟩
    · have null : n = 0 := (digitsValue_toDigits n).symm.trans (congrArg digitsValue zero)
      exact ⟨null, by rw [Decimal.digitText, zero]⟩
    · exact absurd leading other

theorem digitText_injective {n m : Nat} (same : Decimal.digitText n = Decimal.digitText m) :
    n = m := by
  have digits := String.ofList_injective same
  rw [← digitsValue_toDigits n, digits, digitsValue_toDigits]

end

/-! ## Texts -/

namespace EcmaScript

/-- The code units of sixteen bits that stand for a code point. -/
def codeUnits (code : Nat) : List Nat :=
  if code < 0x10000 then [code]
  else [0xD800 + (code - 0x10000) / 0x400, 0xDC00 + (code - 0x10000) % 0x400]

/-- The code units of a text. -/
def utf16 (text : List Char) : List Nat := text.flatMap fun c => codeUnits c.toNat

theorem utf16_ne_nil (c : Char) (text : List Char) : utf16 (c :: text) ≠ [] := by
  rw [utf16, List.flatMap_cons, codeUnits]
  split <;> simp

/-- The first character of a text is told by its first code units. -/
theorem codeUnits_append_inj {c d : Char} {units others : List Nat}
    (same : codeUnits c.toNat ++ units = codeUnits d.toNat ++ others) :
    c.toNat = d.toNat ∧ units = others := by
  have valid : c.toNat < 0xD800 ∨ 0xDFFF < c.toNat ∧ c.toNat < 0x110000 := c.valid
  have valid' : d.toNat < 0xD800 ∨ 0xDFFF < d.toNat ∧ d.toNat < 0x110000 := d.valid
  simp only [codeUnits] at same
  split_ifs at same <;>
    simp only [List.cons_append, List.nil_append, List.cons.injEq] at same <;>
    first
    | exact ⟨same.1, same.2⟩
    | exact ⟨by omega, same.2.2⟩
    | omega

/-- Texts are told by their code units. -/
theorem utf16_injective {text other : List Char} (same : utf16 text = utf16 other) :
    text = other := by
  induction text generalizing other with
  | nil =>
      cases other with
      | nil => rfl
      | cons d other => exact absurd same.symm (utf16_ne_nil d other)
  | cons c text ih =>
      cases other with
      | nil => exact absurd same (utf16_ne_nil c text)
      | cons d other =>
          obtain ⟨code, behind⟩ := codeUnits_append_inj same
          rw [Char.toNat_inj.mp code, ih behind]

/-- Where a reader of a string literal stands: between characters, behind a backslash, behind what
could be the beginning of an octal escape or of a line end of two characters, within the digits of
an escape, or behind the closing quote. -/
inductive LiteralState
  | plain
  | escape
  | zero
  | carriage
  | opening
  | hex (missing value : Nat)
  | braced (value : Option Nat)
  | closed
  deriving DecidableEq

/-- The value of a hexadecimal digit. -/
def hexadecimal? (c : Char) : Option Nat :=
  if isDigit c then some (c.toNat - 0x30)
  else if 0x61 ≤ c.toNat ∧ c.toNat ≤ 0x66 then some (c.toNat - 0x57)
  else if 0x41 ≤ c.toNat ∧ c.toNat ≤ 0x46 then some (c.toNat - 0x37)
  else none

/-- Characters that end a line. -/
def isLineEnd (c : Char) : Bool :=
  c = '\n' || c = '\r' || c.toNat = 0x2028 || c.toNat = 0x2029

/-- The code point that a character behind a backslash stands for. Most stand for themselves. -/
def escapedCode (c : Char) : Nat :=
  if c = 'b' then 0x08
  else if c = 't' then 0x09
  else if c = 'n' then 0x0A
  else if c = 'v' then 0x0B
  else if c = 'f' then 0x0C
  else if c = 'r' then 0x0D
  else c.toNat

namespace LiteralState

/-- Read a character that belongs to no escape. -/
def readPlain (c : Char) : Option (List Nat × LiteralState) :=
  if c = '"' then some ([], closed)
  else if c = '\\' then some ([], escape)
  else if c = '\n' || c = '\r' then none
  else some (codeUnits c.toNat, plain)

/-- Read one of a fixed number of hexadecimal digits. -/
def readHex (missing value : Nat) (c : Char) : Option (List Nat × LiteralState) :=
  (hexadecimal? c).map fun digit =>
    if missing ≤ 1 then ([16 * value + digit], plain)
    else ([], hex (missing - 1) (16 * value + digit))

/-- Read one more character: the code units that it completes, and the state behind it. -/
def read : LiteralState → Char → Option (List Nat × LiteralState)
  | plain, c => readPlain c
  | zero, c => if isDigit c then none else readPlain c
  | carriage, c => if c = '\n' then some ([], plain) else readPlain c
  | escape, c =>
    if c = 'x' then some ([], hex 2 0)
    else if c = 'u' then some ([], opening)
    else if c = '0' then some ([0], zero)
    else if isDigit c then none
    else if c = '\r' then some ([], carriage)
    else if isLineEnd c then some ([], plain)
    else some (codeUnits (escapedCode c), plain)
  | opening, c => if c = '\x7b' then some ([], braced none) else readHex 4 0 c
  | hex missing value, c => readHex missing value c
  | braced value, c =>
    if c = '\x7d' then
      value.bind fun code => if code ≤ 0x10FFFF then some (codeUnits code, plain) else none
    else (hexadecimal? c).map fun digit => ([], braced (some (16 * value.getD 0 + digit)))
  | closed, _ => none

/-- The code units of what is left of a literal. -/
def units? : LiteralState → List Char → Option (List Nat)
  | closed, [] => some []
  | _, [] => none
  | state, c :: rest => (state.read c).bind fun next =>
    (units? next.2 rest).map (next.1 ++ ·)

end LiteralState

/-- The code units that a string literal in double quotes stands for, as the language has it in its
strict form. -/
def stringValue? (text : String) : Option (List Nat) :=
  match text.toList with
  | '"' :: rest => LiteralState.plain.units? rest
  | _ => none

/-! ## Data literals -/

namespace LiteralState

theorem units?_of_read {state next : LiteralState} {c : Char} {units : List Nat}
    (reads : state.read c = some (units, next)) (rest : List Char) :
    state.units? (c :: rest) = (next.units? rest).map (units ++ ·) := by
  have step : state.units? (c :: rest) = (state.read c).bind fun next =>
      (next.2.units? rest).map (next.1 ++ ·) := by
    cases state <;> rfl
  rw [step, reads]
  rfl

/-- A control character without a letter of its own is written by the four digits of its code. -/
theorem units?_control {n : Nat} (small : n < 32) (rest : List Char) :
    plain.units? ('\\' :: 'u' :: (Text.hexFour n ++ rest)) =
      (plain.units? rest).map ([n] ++ ·) := by
  have digits : ∀ n < 32, Text.hexFour n = ['0', '0', (n / 16).digitChar, (n % 16).digitChar] ∧
      hexadecimal? (n / 16).digitChar = some (n / 16) ∧
      hexadecimal? (n % 16).digitChar = some (n % 16) := by decide
  obtain ⟨spelled, third, fourth⟩ := digits n small
  have first : opening.read '0' = some ([], hex 3 0) := rfl
  have second : (hex 3 0).read '0' = some ([], hex 2 0) := rfl
  have more : (hex 2 0).read (n / 16).digitChar = some ([], hex 1 (n / 16)) := by
    simp [read, readHex, third]
  have last : (hex 1 (n / 16)).read (n % 16).digitChar = some ([n], plain) := by
    simp [read, readHex, fourth, Nat.div_add_mod]
  have escaped : plain.read '\\' = some ([], escape) := rfl
  have coded : escape.read 'u' = some ([], opening) := rfl
  rw [spelled, units?_of_read escaped, units?_of_read coded]
  simp only [List.cons_append, List.nil_append, units?_of_read first, units?_of_read second,
    units?_of_read more, units?_of_read last]
  cases plain.units? rest <;> rfl

/-- A character of a data literal stands for its code units. -/
theorem units?_dataChar (c : Char) (rest : List Char) :
    plain.units? (Text.dataChar c ++ rest) =
      (plain.units? rest).map (codeUnits c.toNat ++ ·) := by
  cases dataForm c with
  | @named letter known same =>
      have meant : ∀ entry ∈ dataLetters,
          escape.read entry.1 = some (codeUnits entry.2.toNat, plain) := by
        decide
      have backslash : plain.read '\\' = some ([], escape) := rfl
      rw [same, List.cons_append, List.singleton_append, units?_of_read backslash,
        units?_of_read (meant _ known)]
      cases plain.units? rest <;> rfl
  | control small same =>
      have single : codeUnits c.toNat = [c.toNat] := if_pos (by omega)
      rw [same, single]
      exact units?_control small rest
  | raw quote backslash control same =>
      have lineEnd : c ≠ '\n' ∧ c ≠ '\r' := by
        constructor <;> rintro rfl <;> exact absurd control (by decide)
      have alone : plain.read c = some (codeUnits c.toNat, plain) := by
        simp [read, readPlain, quote, backslash, lineEnd]
      rw [same]
      exact units?_of_read alone rest

end LiteralState

/-- A data literal stands for the code units of its text. -/
theorem stringValue?_dataLiteral (value : String) :
    stringValue? (Text.dataLiteral value) = some (utf16 value.toList) := by
  have body (chars : List Char) :
      LiteralState.plain.units? (chars.flatMap Text.dataChar ++ ['"']) = some (utf16 chars) := by
    induction chars with
    | nil => rfl
    | cons c chars ih =>
        rw [List.flatMap_cons, List.append_assoc, LiteralState.units?_dataChar, ih]
        rfl
  rw [stringValue?, Text.dataLiteral, String.toList_ofList]
  exact body value.toList

/-- A data literal stands on one line. -/
theorem dataLiteral_unbroken (value : String) :
    '\n' ∉ (Text.dataLiteral value).toList ∧ '\r' ∉ (Text.dataLiteral value).toList := by
  have within (c d : Char) (small : d.toNat < 32) : d ∉ Text.dataChar c := fun mem =>
    not_control_dataChar mem small
  rw [Text.dataLiteral, String.toList_ofList]
  constructor <;> simp [within]

end EcmaScript

/-! ## From source to generated text -/

section

open Scan EcmaScript

variable {source : String} {before rest written digits : List Char} {values : List Nat}

/-- A run of digits, wherever it stands in a source, is the token of the number that it writes. -/
theorem tokenize_run (nonempty : digits ≠ []) (run : List.Forall₂ IsDigit digits values)
    (reaches : Reaches source.toList before (digits ++ rest)) (ends : EndsInteger rest) :
    ∃ tokens, tokenize source =
      (tokensFrom (Position.start.advance (before ++ digits)) rest).map fun others =>
        tokens ++ ⟨.int (Nat.ofDigits 10 values.reverse), Position.start.advance before⟩ ::
          others := by
  obtain ⟨tokens, further⟩ := reaches.tokensFrom_eq (solid_of_run nonempty run rest) .start
  refine ⟨tokens, ?_⟩
  rw [tokenize, further, tokensFrom_run nonempty run ends, Position.advance_append]
  cases tokensFrom _ rest <;> rfl

/-- A spelled text, wherever it stands in a source, is the token of that text. -/
theorem tokenize_spells {value : String} (spells : SpellsText written value.toList)
    (reaches : Reaches source.toList before ('"' :: (written ++ '"' :: rest))) :
    ∃ tokens, tokenize source =
      (tokensFrom (Position.start.advance (before ++ '"' :: (written ++ ['"']))) rest).map
        fun others => tokens ++ ⟨.str value, Position.start.advance before⟩ :: others := by
  obtain ⟨tokens, further⟩ :=
    reaches.tokensFrom_eq (splitTrivia_of_solid (by decide) (by decide) _) .start
  refine ⟨tokens, ?_⟩
  rw [tokenize, further, spells.tokensFrom_eq, Position.advance_append, String.ofList_toList]
  cases tokensFrom _ rest <;> rfl

/-- A source with a malformed text in it is refused. -/
theorem tokenize_malformed (malformed : Malformed rest)
    (reaches : Reaches source.toList before ('"' :: rest)) :
    ∃ fault, tokenize source = .error ⟨fault, Position.start.advance before⟩ := by
  obtain ⟨tokens, further⟩ :=
    reaches.tokensFrom_eq (splitTrivia_of_solid (by decide) (by decide) _) .start
  obtain ⟨fault, refused⟩ := malformed.tokensFrom_eq (Position.start.advance before)
  exact ⟨fault, by rw [tokenize, further, refused]; rfl⟩

theorem emits_run (nonempty : digits ≠ []) (run : List.Forall₂ IsDigit digits values) :
    Emits (String.ofList (digits ++ ['؛']))
      (JavaScript.literal (.int (Nat.ofDigits 10 values.reverse)) ++ ";") := by
  have ends : EndsInteger ['؛'] := .of_head (by decide) (by decide)
  have lexed : tokenize (String.ofList (digits ++ ['؛'])) =
      (tokensFrom (Position.start.advance digits) ['؛']).map
        (⟨.int (Nat.ofDigits 10 values.reverse), .start⟩ :: ·) := by
    rw [tokenize, String.toList_ofList, tokensFrom_run nonempty run ends]
  have constant : Parser.literal? (.int (Nat.ofDigits 10 values.reverse)) = some (.int _) := rfl
  exact emits_constant constant lexed

theorem emits_spells {value : String} (spells : SpellsText written value.toList) :
    Emits (String.ofList ('"' :: (written ++ ['"', '؛'])))
      (JavaScript.literal (.str value) ++ ";") := by
  have lexed : tokenize (String.ofList ('"' :: (written ++ ['"', '؛']))) =
      (tokensFrom (Position.start.advance ('"' :: (written ++ ['"']))) ['؛']).map
        (⟨.str value, .start⟩ :: ·) := by
    rw [tokenize, String.toList_ofList, spells.tokensFrom_eq, String.ofList_toList]
  have constant : Parser.literal? (.str value) = some (.str value) := rfl
  exact emits_constant constant lexed

/-- The kinds of the tokens of a run of digits that is all of a source. -/
theorem kinds_run (nonempty : digits ≠ []) (run : List.Forall₂ IsDigit digits values) :
    (tokenize (String.ofList digits)).map (List.map Token.kind) =
      .ok [.int (Nat.ofDigits 10 values.reverse), .eof] := by
  have read := tokensFrom_run nonempty run .nil .start
  rw [List.append_nil, tokensFrom_nil] at read
  rw [tokenize, String.toList_ofList, read]
  rfl

/-- An integer is kept exactly, whatever digits it is written with. Where a run of digits stands in
a source it is the token of its number; the text that is generated for it is that number in decimal
digits without leading zeros. Two such runs give equal tokens, and equal texts, just if their
numbers are equal. -/
theorem integers_exact (nonempty : digits ≠ []) (run : List.Forall₂ IsDigit digits values) :
    let value := Nat.ofDigits 10 values.reverse
    (∀ (source : String) (before rest : List Char),
      Reaches source.toList before (digits ++ rest) → EndsInteger rest →
      ∃ tokens, tokenize source =
        (tokensFrom (Position.start.advance (before ++ digits)) rest).map fun others =>
          tokens ++ ⟨.int value, Position.start.advance before⟩ :: others) ∧
    (∀ note, IsDecimal (JavaScript.expr (.literal note (.int value))) value) ∧
    (∀ note, Emits (String.ofList (digits ++ ['؛']))
      (JavaScript.expr (.literal note (.int value)) ++ ";")) ∧
    ∀ (digits' : List Char) (values' : List Nat), digits' ≠ [] →
      List.Forall₂ IsDigit digits' values' →
      let value' := Nat.ofDigits 10 values'.reverse
      ((tokenize (String.ofList digits)).map (List.map Token.kind) =
        (tokenize (String.ofList digits')).map (List.map Token.kind) ↔ value = value') ∧
      ∀ note note', JavaScript.expr (.literal note (.int value)) =
        JavaScript.expr (.literal note' (.int value')) ↔ value = value' := by
  intro value
  refine ⟨fun source before rest => tokenize_run nonempty run,
    fun note => isDecimal_digitText value, fun note => emits_run nonempty run, ?_⟩
  intro digits' values' nonempty' run' value'
  constructor
  · rw [kinds_run nonempty run, kinds_run nonempty' run']
    simp [value, value']
  · exact fun note note' => ⟨digitText_injective, congrArg Decimal.digitText⟩

/-- Texts are kept exactly. A text that is spelled in a source is the token of that text; what is
generated for it is a string literal on one line that stands for that text and no other. A literal
with anything wrong in it is refused. Every literal is spelled well or has something wrong. -/
theorem texts_exact :
    (∀ (value : String) (written : List Char), SpellsText written value.toList →
      (∀ (source : String) (before rest : List Char),
        Reaches source.toList before ('"' :: (written ++ '"' :: rest)) →
        ∃ tokens, tokenize source =
          (tokensFrom (Position.start.advance (before ++ '"' :: (written ++ ['"']))) rest).map
            fun others => tokens ++ ⟨.str value, Position.start.advance before⟩ :: others) ∧
      ∀ note, Emits (String.ofList ('"' :: (written ++ ['"', '؛'])))
        (JavaScript.expr (.literal note (.str value)) ++ ";")) ∧
    (∀ (value : String) (note : Note),
      let text := JavaScript.expr (.literal note (.str value))
      '\n' ∉ text.toList ∧ '\r' ∉ text.toList ∧
        ∀ other : String, stringValue? text = some (utf16 other.toList) ↔ other = value) ∧
    (∀ (source : String) (before rest : List Char), Reaches source.toList before ('"' :: rest) →
      Malformed rest → ∃ fault, tokenize source = .error ⟨fault, Position.start.advance before⟩) ∧
    ∀ text, WellFormed text ∨ Malformed text := by
  refine ⟨fun value written spells => ⟨fun source before rest => tokenize_spells spells,
    fun note => emits_spells spells⟩, ?_, fun source before rest reaches malformed =>
    tokenize_malformed malformed reaches, wellFormed_or_malformed⟩
  intro value note text
  obtain ⟨noFeed, noReturn⟩ := dataLiteral_unbroken value
  refine ⟨noFeed, noReturn, fun other => ?_⟩
  have stands : stringValue? text = some (utf16 value.toList) := stringValue?_dataLiteral value
  rw [stands, Option.some.injEq]
  constructor
  · exact fun same => String.toList_injective (utf16_injective same).symm
  · rintro rfl
    rfl

/-- Digits of three scripts, with zeros in front. -/
theorem integers_exact_mixed :
    let digits := ['٠', '۰', '7', '٢']
    let value := Nat.ofDigits 10 [2, 7, 0, 0]
    (∀ (source : String) (before rest : List Char),
      Reaches source.toList before (digits ++ rest) → EndsInteger rest →
      ∃ tokens, tokenize source =
        (tokensFrom (Position.start.advance (before ++ digits)) rest).map fun others =>
          tokens ++ ⟨.int value, Position.start.advance before⟩ :: others) ∧
    (∀ note, IsDecimal (JavaScript.expr (.literal note (.int value))) value) ∧ value = 72 := by
  have run : List.Forall₂ IsDigit ['٠', '۰', '7', '٢'] [0, 0, 7, 2] := by
    simp only [List.forall₂_cons, List.Forall₂.nil, and_true, ← digit?_eq_some]
    decide
  have exact := integers_exact (by simp) run
  exact ⟨exact.1, exact.2.1, by decide⟩

/-- A character beyond the first plane, named by its code point. The code point in the second source
is that of a surrogate. -/
theorem texts_exact_codes :
    let code (digits : List Char) : List Char :=
      '\\' :: 'u' :: '\x7b' :: (digits ++ ['\x7d'])
    SpellsText (code ['1', 'F', '6', '0', '0'] ++ []) "😀".toList ∧
    (∀ note, Emits (String.ofList ('"' :: (code ['1', 'F', '6', '0', '0'] ++ ['"', '؛'])))
      (JavaScript.expr (.literal note (.str "😀")) ++ ";")) ∧
    ∃ fault, tokenize (String.ofList ('"' :: code ['D', '8', '0', '0'])) =
      .error ⟨fault, .start⟩ := by
  intro code
  have face : HexNumber ['1', 'F', '6', '0', '0'] '😀'.toNat := by
    refine ⟨by decide, by decide, [1, 15, 6, 0, 0], ?_, by decide⟩
    simp only [List.forall₂_cons, List.Forall₂.nil, and_true, ← hexDigit?_eq_some]
    decide
  have surrogate : HexNumber ['D', '8', '0', '0'] 0xD800 := by
    refine ⟨by decide, by decide, [13, 8, 0, 0], ?_, by decide⟩
    simp only [List.forall₂_cons, List.Forall₂.nil, and_true, ← hexDigit?_eq_some]
    decide
  have spells : SpellsText (code ['1', 'F', '6', '0', '0'] ++ []) "😀".toList :=
    .cons (.code face) .nil
  have malformed : Malformed (code ['D', '8', '0', '0']) :=
    (Breaks.noCharacter surrogate (by decide) []).malformed
  have reaches : Reaches (String.ofList ('"' :: code ['D', '8', '0', '0'])).toList []
      ('"' :: code ['D', '8', '0', '0']) := by
    rw [String.toList_ofList]
    exact .gap _
  exact ⟨spells, (texts_exact.1 "😀" _ spells).2, texts_exact.2.2.1 _ _ _ reaches malformed⟩

end

end Qalam
