/-
# From text to tokens

A text is cut into tokens from the left. Blanks and comments are skipped, then the longest
token of its kind is taken. A token is recognised from its characters alone, so positions are
kept apart: they follow from the characters consumed so far. A fault inside a token is
reported at the first character of that token.

Every token consumes at least one character, which is why the loop ends.
-/

import Qalam.Fault.Syntax
import Qalam.Text.Alphabetic
import Qalam.Text.Blank

namespace Qalam.Scan

/-- The value of a decimal digit in one of the three scripts that are read: ASCII,
Arabic-Indic and Extended Arabic-Indic. -/
def digit? (c : Char) : Option Nat :=
  if 0x30 ≤ c.toNat ∧ c.toNat ≤ 0x39 then some (c.toNat - 0x30)
  else if 0x660 ≤ c.toNat ∧ c.toNat ≤ 0x669 then some (c.toNat - 0x660)
  else if 0x6F0 ≤ c.toNat ∧ c.toNat ≤ 0x6F9 then some (c.toNat - 0x6F0)
  else none

/-- The diacritics of Arabic writing that may stand inside a word. -/
def isDiacritic (c : Char) : Bool :=
  (0x64B ≤ c.toNat && c.toNat ≤ 0x65F) || c.toNat = 0x670

/-- Characters that begin a word. -/
def isWordStart (c : Char) : Bool :=
  Text.isAlphabetic c || c = '_'

/-- Characters that continue a word. -/
def isWordChar (c : Char) : Bool :=
  Text.isAlphabetic c || (digit? c).isSome || c = '_' || c = '&' || isDiacritic c

/-- Put a consumed character in front of what a split consumed before. -/
def consume (c : Char) (split : List Char × List Char) : List Char × List Char :=
  (c :: split.1, split.2)

/-- Split off blanks and comments. A comment runs from two slashes to the end of its line. -/
def splitTrivia : Bool → List Char → List Char × List Char
  | _, [] => ([], [])
  | inComment, c :: rest =>
    if inComment then consume c (splitTrivia (c ≠ '\n') rest)
    else if Text.isBlank c then consume c (splitTrivia false rest)
    else if c = '/' && rest.head? = some '/' then consume c (splitTrivia true rest)
    else ([], c :: rest)

/-- Split off the characters of a word. Two ampersands in a row are an operator and end the
word; a single one belongs to it. -/
def splitWord : List Char → List Char × List Char
  | [] => ([], [])
  | c :: rest =>
    if isWordChar c && !(c = '&' && rest.head? = some '&') then consume c (splitWord rest)
    else ([], c :: rest)

/-- Split off the leading digits. -/
def splitDigits : List Char → List Char × List Char
  | [] => ([], [])
  | c :: rest => if (digit? c).isSome then consume c (splitDigits rest) else ([], c :: rest)

/-- The natural number written by decimal digits. -/
def digitsValue (digits : List Char) : Nat :=
  digits.foldl (fun value c => 10 * value + (digit? c).getD 0) 0

/-- A token that was read: what it stands for, its characters, and what follows them. -/
structure Lexeme where
  kind : TokenKind
  text : List Char
  rest : List Char

/-- Read a number. A point belongs to it only when a digit follows. -/
def number (text : List Char) : Lexeme :=
  let (whole, rest) := splitDigits text
  match rest with
  | '.' :: more =>
    let (fraction, rest') := splitDigits more
    if fraction.isEmpty then ⟨.int (digitsValue whole), whole, rest⟩
    else
      let digits := digitsValue (whole ++ fraction)
      let value := Binary64.ofQuotient digits (Nat.pow 10 fraction.length)
      ⟨.float value, whole ++ '.' :: fraction, rest'⟩
  | _ => ⟨.int (digitsValue whole), whole, rest⟩

/-- What follows a given spelling at the front of a text. -/
def after? : List Char → List Char → Option (List Char)
  | [], text => some text
  | _ :: _, [] => none
  | c :: spelling, d :: text => if c = d then after? spelling text else none

/-- Spaces and tabs, the only characters that may stand between the two words of the default
label. -/
def isGap (c : Char) : Bool := c = ' ' || c = '\t'

/-- Split off the second word of a two-word keyword with the gap before it, if that whole word
comes next after at least one space or tab. -/
def secondWord? (word rest : List Char) : Option (List Char × List Char) :=
  if rest.head?.any isGap then
    match after? word (rest.dropWhile isGap) with
    | some rest' =>
      if rest'.head?.any isWordChar then none else some (rest.takeWhile isGap ++ word, rest')
    | none => none
  else none

/-- Read a keyword or an identifier. -/
def word (text : List Char) : Lexeme :=
  let (letters, rest) := splitWord text
  let name := String.ofList letters
  match Keyword.ofWord? name with
  | some keyword => ⟨.keyword keyword, letters, rest⟩
  | none =>
    if name = "خلاف" then
      match secondWord? "ذلك".toList rest with
      | some (second, rest') => ⟨.keyword .defaultKw, letters ++ second, rest'⟩
      | none => ⟨.ident name, letters, rest⟩
    else ⟨.ident name, letters, rest⟩

/-- All spellings of symbols, the longer ones first. -/
def symbolSpellings : List (List Char × Symbol) :=
  [(['+', '+'], .plusPlus), (['+', '='], .plusEq), (['-', '-'], .minusMinus),
    (['-', '='], .minusEq), (['*', '*'], .starStar), (['!', '='], .notEq), (['=', '='], .eqEq),
    (['<', '='], .le), (['>', '='], .ge), (['&', '&'], .andAnd), (['|', '|'], .orOr),
    (['+'], .plus), (['-'], .minus), (['*'], .star), (['/'], .slash), (['%'], .percent),
    (['٪'], .percent), (['<'], .lt), (['>'], .gt), (['!'], .bang), (['='], .eq), (['.'], .dot),
    (['؟'], .question), (['?'], .question), (['('], .lparen), ([')'], .rparen),
    (['\x7b'], .lbrace), (['\x7d'], .rbrace), (['['], .lbracket), ([']'], .rbracket),
    (['،'], .comma), ([','], .comma), (['؛'], .semi), ([':'], .colon)]

/-- Read the longest symbol at the front of a text. -/
def symbol? (text : List Char) : Option Lexeme :=
  symbolSpellings.findSome? fun (spelling, sign) =>
    (after? spelling text).map fun rest => ⟨.symbol sign, spelling, rest⟩

/-- The character named by the letter of a simple escape. -/
def simpleEscape? (c : Char) : Option Char :=
  if c = 'n' then some '\n'
  else if c = 't' then some '\t'
  else if c = 'r' then some '\r'
  else if c = '\\' then some '\\'
  else if c = '"' then some '"'
  else if c = '\x27' then some '\x27'
  else none

/-- The value of a hexadecimal digit. -/
def hexDigit? (c : Char) : Option Nat :=
  if '0' ≤ c ∧ c ≤ '9' then some (c.toNat - 0x30)
  else if 'a' ≤ c ∧ c ≤ 'f' then some (c.toNat - 0x61 + 10)
  else if 'A' ≤ c ∧ c ≤ 'F' then some (c.toNat - 0x41 + 10)
  else none

/-- The natural number written by hexadecimal digits. -/
def hexValue (digits : List Char) : Nat :=
  digits.foldl (fun value c => 16 * value + (hexDigit? c).getD 0) 0

/-- The character with a code point, unless it is a surrogate or out of range. -/
def charOfCode? (code : Nat) : Option Char :=
  if code < 0xD800 ∨ (0xDFFF < code ∧ code < 0x110000) then some (Char.ofNat code) else none

/-- Where the reader of a string literal stands. -/
inductive StringState
  | plain
  | escape
  | brace
  | hex (digits : List Char)

/-- A string literal that was read from its middle on: the rest of its value, the characters
consumed and what follows them. -/
structure StringLiteral where
  value : List Char
  text : List Char
  rest : List Char

/-- Put a consumed character, and the character of the value that it completes, in front of a
literal. -/
def StringLiteral.prepend (c : Char) (value : Option Char) (literal : StringLiteral) :
    StringLiteral :=
  ⟨value.toList ++ literal.value, c :: literal.text, literal.rest⟩

/-- Read a string literal after its opening quote. -/
def stringBody : StringState → List Char → Except SyntaxFault StringLiteral
  | .plain, [] => .error .unterminatedString
  | .plain, c :: rest =>
    if c = '"' then .ok ⟨[], [c], rest⟩
    else if c = '\\' then (stringBody .escape rest).map (.prepend c none)
    else if c = '\n' then .error .lineFeedInString
    else (stringBody .plain rest).map (.prepend c c)
  | .escape, [] => .error .unterminatedString
  | .escape, c :: rest =>
    if c = 'u' then (stringBody .brace rest).map (.prepend c none)
    else match simpleEscape? c with
      | some value => (stringBody .plain rest).map (.prepend c value)
      | none => .error (.invalidEscape c)
  | .brace, [] => .error .unicodeEscapeWithoutBrace
  | .brace, c :: rest =>
    if c = '\x7b' then (stringBody (.hex []) rest).map (.prepend c none)
    else .error .unicodeEscapeWithoutBrace
  | .hex _, [] => .error .invalidUnicodeEscape
  | .hex digits, c :: rest =>
    if c = '\x7d' then
      if digits.isEmpty then .error .invalidUnicodeEscape
      else match charOfCode? (hexValue digits) with
        | some value => (stringBody .plain rest).map (.prepend c value)
        | none => .error (.invalidCodePoint (String.ofList digits))
    else if (hexDigit? c).isSome && digits.length < 6 then
      (stringBody (.hex (digits ++ [c])) rest).map (.prepend c none)
    else .error .invalidUnicodeEscape

/-- Read a string literal after its opening quote, which still belongs to it. -/
def string (quote : Char) (rest : List Char) : Except SyntaxFault Lexeme :=
  (stringBody .plain rest).map fun literal =>
    ⟨.str (String.ofList literal.value), quote :: literal.text, literal.rest⟩

/-- Read the token that begins with a character. -/
def lexeme (c : Char) (rest : List Char) : Except SyntaxFault Lexeme :=
  match symbol? (c :: rest) with
  | some lexeme => .ok lexeme
  | none =>
    if c = '&' || c = '|' then .error (.halfOperator c)
    else if c = '"' then string c rest
    else if (digit? c).isSome then .ok (number (c :: rest))
    else if isWordStart c then .ok (word (c :: rest))
    else .error (.unexpectedCharacter c)

end Qalam.Scan
