/-
# The tokens of a generated text

Generated text is read the way JavaScript reads it: character by character, each token as long as
possible. Words, decimal numbers, texts in double quotes and all signs of the language are read;
comments, regular expressions, templates and other characters are refused. A slash is always a
sign, since no generated text begins an operand with one.

What was read of the current token is kept in a state, so one character after the other decides
how the reading goes on.
-/

import Qalam.JavaScript.Statement

namespace Qalam.EcmaScript

/-- Tokens of a generated text. Numbers are kept as they are written, texts as what they mean. -/
inductive Token
  | word (name : String)
  | number (digits : String)
  | text (value : List Char)
  | sign (spelling : String)
  deriving DecidableEq

/-- The signs of the language. -/
def signs : List (List Char) :=
  ["\x7b", "\x7d", "(", ")", "[", "]", ".", "...", ";", ",", "<", ">", "<=", ">=", "==", "!=",
    "===", "!==", "+", "-", "*", "/", "%", "**", "++", "--", "<<", ">>", ">>>", "&", "|", "^",
    "!", "~", "&&", "||", "??", "?", "?.", ":", "=", "+=", "-=", "*=", "/=", "%=", "**=", "<<=",
    ">>=", ">>>=", "&=", "|=", "^=", "&&=", "||=", "??=", "=>"].map String.toList

/-- What begins a comment. -/
def comments : List (List Char) := ["//", "/*"].map String.toList

/-- Whether a sign, or the beginning of one, goes on with a character. -/
def goesOn (sign : List Char) (c : Char) : Bool :=
  (signs ++ comments).any (sign ++ [c]).isPrefixOf

/-- Characters between tokens. -/
def isBlank (c : Char) : Bool := c = ' ' || c = '\t' || c = '\n' || c = '\r'

/-- Decimal digits. -/
def isDigit (c : Char) : Bool := 0x30 ≤ c.toNat && c.toNat ≤ 0x39

/-- Characters that begin a word. -/
def beginsWord (c : Char) : Bool :=
  (0x61 ≤ c.toNat && c.toNat ≤ 0x7A) || (0x41 ≤ c.toNat && c.toNat ≤ 0x5A) || c = '_' || c = '$'

/-- Characters of words. -/
def isWordChar (c : Char) : Bool := beginsWord c || isDigit c

/-- The character that an escape with a single letter stands for. -/
def escaped? (c : Char) : Option Char :=
  if c = '"' then some '"'
  else if c = '\\' then some '\\'
  else if c = 'b' then some '\x08'
  else if c = 'f' then some '\x0c'
  else if c = 'n' then some '\n'
  else if c = 'r' then some '\r'
  else if c = 't' then some '\t'
  else none

/-- The value of a hexadecimal digit in lower case. -/
def hexValue? (c : Char) : Option Nat :=
  if isDigit c then some (c.toNat - 0x30)
  else if 0x61 ≤ c.toNat && c.toNat ≤ 0x66 then some (c.toNat - 0x57)
  else none

/-- What was read of the current token. -/
inductive Pending
  | gap
  | word (chars : List Char)
  | number (chars : List Char)
  | fraction (chars : List Char)
  | text (value : List Char)
  | escape (value : List Char)
  | code (value : List Char) (digits : List Nat)
  | sign (chars : List Char)
  deriving DecidableEq

/-- A character with which a token begins, or a blank. -/
def start (c : Char) : Option Pending :=
  if isBlank c then some .gap
  else if beginsWord c then some (.word [c])
  else if isDigit c then some (.number [c])
  else if c = '"' then some (.text [])
  else if goesOn [] c then some (.sign [c])
  else none

/-- The token that ends behind the characters read so far. -/
def finish : Pending → Option (List Token)
  | .gap => some []
  | .word chars => some [.word (String.ofList chars)]
  | .number chars | .fraction chars => some [.number (String.ofList chars)]
  | .sign chars => if chars ∈ signs then some [.sign (String.ofList chars)] else none
  | .text _ | .escape _ | .code _ _ => none

/-- The token ends before a character, and the next one begins with it. -/
def change (pending : Pending) (c : Char) : Option (List Token × Pending) :=
  (finish pending).bind fun tokens => (start c).map fun next => (tokens, next)

/-- The character after four hexadecimal digits, unless they denote a surrogate. -/
def codeChar? (digits : List Nat) : Option Char :=
  let code := digits.foldl (fun value digit => 16 * value + digit) 0
  if code < 0xD800 ∨ 0xDFFF < code then some (Char.ofNat code) else none

/-- Read one more character. -/
def step : Pending → Char → Option (List Token × Pending)
  | .gap, c => change .gap c
  | .word chars, c =>
    if isWordChar c then some ([], .word (chars ++ [c])) else change (.word chars) c
  | .number chars, c =>
    if isDigit c then if chars = ['0'] then none else some ([], .number (chars ++ [c]))
    else if c = '.' then some ([], .fraction (chars ++ [c]))
    else if beginsWord c then none
    else change (.number chars) c
  | .fraction chars, c =>
    if isDigit c then some ([], .fraction (chars ++ [c]))
    else if beginsWord c then none
    else change (.fraction chars) c
  | .text value, c =>
    if c = '"' then some ([.text value], .gap)
    else if c = '\\' then some ([], .escape value)
    else if c = '\n' || c = '\r' then none
    else some ([], .text (value ++ [c]))
  | .escape value, c =>
    if c = 'u' then some ([], .code value [])
    else (escaped? c).map fun meant => ([], .text (value ++ [meant]))
  | .code value digits, c => do
    let digit ← hexValue? c
    if digits.length < 3 then return ([], .code value (digits ++ [digit]))
    else
      let meant ← codeChar? (digits ++ [digit])
      return ([], .text (value ++ [meant]))
  | .sign chars, c =>
    if goesOn chars c then some ([], .sign (chars ++ [c])) else change (.sign chars) c

/-- Read characters one after the other. -/
def run : Pending → List Char → Option (List Token × Pending)
  | pending, [] => some ([], pending)
  | pending, c :: rest => (step pending c).bind fun next =>
    (run next.2 rest).map fun last => (next.1 ++ last.1, last.2)

/-- The tokens of what is left of a text. -/
def lexFrom : Pending → List Char → Option (List Token)
  | pending, [] => finish pending
  | pending, c :: rest => (step pending c).bind fun next =>
    (lexFrom next.2 rest).map (next.1 ++ ·)

/-- The tokens of a text. -/
def lex (text : String) : Option (List Token) := lexFrom .gap text.toList

/-! ## Readings of a piece of text -/

/-- The next character, if there is one, is of a given sort. -/
def Follows (sort : Char → Bool) (rest : List Char) : Prop :=
  ∀ c ∈ rest.head?, sort c = true

/-- A piece of text has the given tokens wherever it stands between two tokens, if the character
behind it is of a given sort. -/
def Lexes (sort : Char → Bool) (text : String) (tokens : List Token) : Prop :=
  ∀ rest, Follows sort rest →
    lexFrom .gap (text.toList ++ rest) = (lexFrom .gap rest).map (tokens ++ ·)

/-- Any character. -/
def anyChar (_ : Char) : Bool := true

/-- Characters that end a word. -/
def endsWord (c : Char) : Bool := !isWordChar c

/-- Characters that end a number. -/
def endsNumber (c : Char) : Bool := !isWordChar c && c ≠ '.'

theorem follows_any (rest : List Char) : Follows anyChar rest := fun _ _ => rfl

theorem follows_cons {sort : Char → Bool} {c : Char} (fits : sort c = true) (rest : List Char) :
    Follows sort (c :: rest) := by
  intro d head
  cases head
  exact fits

theorem run_append {pending middle : Pending} {first : List Char} {tokens : List Token}
    (reads : run pending first = some (tokens, middle)) (second : List Char) :
    run pending (first ++ second) =
      (run middle second).map fun last => (tokens ++ last.1, last.2) := by
  induction first generalizing pending tokens with
  | nil =>
      cases reads
      simp
  | cons c first ih =>
      rw [run, Option.bind_eq_some_iff] at reads
      obtain ⟨next, taken, further⟩ := reads
      rw [Option.map_eq_some_iff] at further
      obtain ⟨⟨others, last⟩, reads, same⟩ := further
      cases same
      rw [List.cons_append, run, taken]
      change (run next.2 (first ++ second)).map _ = _
      rw [ih reads, Option.map_map]
      simp [Function.comp_def]

/-- What is read first comes first among the tokens. -/
theorem lexFrom_append {pending middle : Pending} {first : List Char} {tokens : List Token}
    (reads : run pending first = some (tokens, middle)) (second : List Char) :
    lexFrom pending (first ++ second) = (lexFrom middle second).map (tokens ++ ·) := by
  induction first generalizing pending tokens with
  | nil =>
      cases reads
      simp
  | cons c first ih =>
      rw [run, Option.bind_eq_some_iff] at reads
      obtain ⟨next, taken, further⟩ := reads
      rw [Option.map_eq_some_iff] at further
      obtain ⟨⟨others, last⟩, reads, same⟩ := further
      cases same
      rw [List.cons_append, lexFrom, taken]
      change (lexFrom next.2 (first ++ second)).map _ = _
      rw [ih reads, Option.map_map]
      congr 1
      funext behind
      exact (List.append_assoc _ _ _).symm

/-- A text is read as a piece if its last token ends before every character that may follow. -/
theorem lexes_of_run {sort : Char → Bool} {text : String} {tokens last : List Token}
    {pending : Pending} (reads : run .gap text.toList = some (tokens, pending))
    (ends : finish pending = some last)
    (changes : ∀ c, sort c = true → step pending c = change pending c) :
    Lexes sort text (tokens ++ last) := by
  intro rest follows
  rw [lexFrom_append reads]
  cases rest with
  | nil =>
      rw [lexFrom, lexFrom, ends]
      simp [finish]
  | cons c rest =>
      rw [lexFrom, changes c (follows c rfl), change, ends, lexFrom, step, change]
      cases start c with
      | none => rfl
      | some next => simp [finish, Function.comp_def]

/-- A whole text is read like a piece that nothing follows. -/
theorem Lexes.lex {sort : Char → Bool} {text : String} {tokens : List Token}
    (lexes : Lexes sort text tokens) : lex text = some tokens := by
  have whole := lexes [] fun _ head => by cases head
  simpa [EcmaScript.lex, lexFrom, finish] using whole

theorem Lexes.append {sort sort' : Char → Bool} {first second : String}
    {tokens others : List Token} (lexes : Lexes sort first tokens)
    (lexes' : Lexes sort' second others)
    (meets : ∀ rest, Follows sort' rest → Follows sort (second.toList ++ rest)) :
    Lexes sort' (first ++ second) (tokens ++ others) := by
  intro rest follows
  rw [String.toList_append, List.append_assoc, lexes _ (meets rest follows), lexes' rest follows]
  cases lexFrom .gap rest <;> simp

/-- Behind a text that ends its last token by itself anything can stand. -/
theorem Lexes.then {sort : Char → Bool} {first second : String} {tokens others : List Token}
    (lexes : Lexes anyChar first tokens) (lexes' : Lexes sort second others) :
    Lexes sort (first ++ second) (tokens ++ others) :=
  lexes.append lexes' fun _ _ => follows_any _

theorem Lexes.weaken {sort sort' : Char → Bool} {text : String} {tokens : List Token}
    (lexes : Lexes sort text tokens) (implies : ∀ c, sort' c = true → sort c = true) :
    Lexes sort' text tokens := by
  intro rest follows
  exact lexes rest fun c head => implies c (follows c head)

end Qalam.EcmaScript
