/-
# Brackets in generated text

Generated text is read from its beginning to its end, with every string literal as a single piece:
outside of the literals, each bracket that closes must meet the bracket of its sort that was opened
last. A literal is read by the rules of JSON, so it ends at the first quote that is not escaped,
whatever brackets and line feeds the string holds that it stands for.

The text of an expression opens and closes its own brackets, has no line feed, and begins with
neither a space nor a closing brace, whatever the names and strings in it are.
-/

import Qalam.Proofs.EcmaScript.Spelling
import Qalam.Proofs.Naming.Substitution

namespace Qalam

/-- The three sorts of brackets. -/
inductive Bracket
  | round | square | curly
  deriving DecidableEq

namespace Brackets

/-- What a character means outside of string literals. -/
inductive Mark
  | opens (bracket : Bracket)
  | closes (bracket : Bracket)
  | quote
  | other
  deriving DecidableEq

/-- The meaning of a character outside of string literals. -/
def mark (c : Char) : Mark :=
  if c = '(' then .opens .round
  else if c = ')' then .closes .round
  else if c = '[' then .opens .square
  else if c = ']' then .closes .square
  else if c = '\x7b' then .opens .curly
  else if c = '\x7d' then .closes .curly
  else if c = '"' then .quote
  else .other

/-- Where a reader stands: outside of string literals, inside of one, behind a backslash in it, or
before some digits of a code point in it. -/
inductive Place
  | code
  | text
  | escape
  | digits (left : Nat)
  deriving DecidableEq

/-- Where a reader stands, and the brackets that are open there, the innermost one first. -/
structure Reading where
  place : Place
  opened : List Bracket
  deriving DecidableEq

/-- Hexadecimal digits. -/
def isHexDigit (c : Char) : Bool :=
  ('0' ≤ c && c ≤ '9') || ('a' ≤ c && c ≤ 'f') || ('A' ≤ c && c ≤ 'F')

/-- Read one character. -/
def read (reading : Reading) (c : Char) : Option Reading :=
  match reading.place with
  | .code =>
    match mark c with
    | .opens bracket => some ⟨.code, bracket :: reading.opened⟩
    | .closes bracket =>
      match reading.opened with
      | last :: others => if last = bracket then some ⟨.code, others⟩ else none
      | [] => none
    | .quote => some ⟨.text, reading.opened⟩
    | .other => some reading
  | .text =>
    if c = '"' then some ⟨.code, reading.opened⟩
    else if c = '\\' then some ⟨.escape, reading.opened⟩
    else if c.toNat < 32 then none
    else some reading
  | .escape =>
    if c = 'u' then some ⟨.digits 4, reading.opened⟩
    else if c ∈ ['"', '\\', '/', 'b', 'f', 'n', 'r', 't'] then some ⟨.text, reading.opened⟩
    else none
  | .digits left =>
    if !isHexDigit c then none
    else if left ≤ 1 then some ⟨.text, reading.opened⟩
    else some ⟨.digits (left - 1), reading.opened⟩

/-- Read characters one after the other. -/
def readAll (reading : Reading) (chars : List Char) : Option Reading := chars.foldlM read reading

/-- The string literals of a text end, and its brackets are properly nested and all closed. -/
def WellNested (text : String) : Prop := readAll ⟨.code, []⟩ text.toList = some ⟨.code, []⟩

instance (text : String) : Decidable (WellNested text) :=
  inferInstanceAs (Decidable (readAll ⟨.code, []⟩ text.toList = some ⟨.code, []⟩))

@[simp]
theorem readAll_nil (reading : Reading) : readAll reading [] = some reading := rfl

theorem readAll_cons (reading : Reading) (c : Char) (chars : List Char) :
    readAll reading (c :: chars) = (read reading c).bind fun next => readAll next chars := rfl

theorem readAll_append (reading : Reading) (first second : List Char) :
    readAll reading (first ++ second) =
      (readAll reading first).bind fun next => readAll next second := by
  simp [readAll]

/-! ## Texts within a line -/

/-- Characters that matter outside of string literals. -/
def special : List Char := ['(', ')', '[', ']', '\x7b', '\x7d', '"', '\n']

/-- Whether a text has no such character. -/
def isPlain (text : String) : Bool := text.toList.all fun c => !special.contains c

theorem mark_of_not_special {c : Char} (plain : c ∉ special) : mark c = .other := by
  simp only [special, List.mem_cons, List.not_mem_nil, or_false, not_or] at plain
  simp [mark, plain]

/-- A text that closes the brackets it opens, and no others, and does not end its line. -/
structure Inline (text : String) : Prop where
  neutral : ∀ opened, readAll ⟨.code, opened⟩ text.toList = some ⟨.code, opened⟩
  unbroken : '\n' ∉ text.toList

/-- A text that begins with neither a space nor a closing brace. -/
def Begins (text : String) : Prop := ∃ c rest, text.toList = c :: rest ∧ c ≠ ' ' ∧ c ≠ '\x7d'

/-- A text that closes its own brackets behind such a beginning. -/
structure Fragment (text : String) : Prop extends Inline text where
  begins : Begins text

theorem Begins.append {first : String} (begins : Begins first) (second : String) :
    Begins (first ++ second) := by
  obtain ⟨c, rest, spelled, differs⟩ := begins
  exact ⟨c, rest ++ second.toList, by simp [spelled], differs⟩

namespace Inline

variable {text first second : String}

theorem of_not_special (plain : ∀ c ∈ text.toList, c ∉ special) : Inline text where
  neutral opened := by
    generalize text.toList = chars at plain
    induction chars with
    | nil => rfl
    | cons c chars ih =>
        rw [List.forall_mem_cons] at plain
        rw [readAll_cons, read, mark_of_not_special plain.1]
        exact ih plain.2
  unbroken mem := plain '\n' mem (by decide)

theorem of_plain (plain : isPlain text = true) : Inline text :=
  of_not_special (by simpa [isPlain] using plain)

theorem append (here : Inline first) (there : Inline second) : Inline (first ++ second) where
  neutral opened := by
    rw [String.toList_append, readAll_append, here.neutral]
    exact there.neutral opened
  unbroken := by
    rw [String.toList_append, List.mem_append, not_or]
    exact ⟨here.unbroken, there.unbroken⟩

/-- A text between two brackets of one sort. -/
theorem enclosed (inside : Inline text) {opening closing : Char} {bracket : Bracket}
    (opens : mark opening = .opens bracket) (closes : mark closing = .closes bracket) :
    Inline (String.ofList [opening] ++ text ++ String.ofList [closing]) where
  neutral opened := by
    rw [String.toList_append, String.toList_append, readAll_append, readAll_append,
      String.toList_ofList, String.toList_ofList]
    have before : readAll ⟨.code, opened⟩ [opening] = some ⟨.code, bracket :: opened⟩ := by
      simp [readAll_cons, read, opens]
    have behind : readAll ⟨.code, bracket :: opened⟩ [closing] = some ⟨.code, opened⟩ := by
      simp [readAll_cons, read, closes]
    rw [before]
    change ((readAll _ text.toList).bind _) = _
    rw [inside.neutral]
    exact behind
  unbroken := by
    have differs : '\n' ≠ opening ∧ '\n' ≠ closing := by
      constructor
      · rintro rfl
        cases opens
      · rintro rfl
        cases closes
    simpa using ⟨differs.1, inside.unbroken, differs.2⟩

theorem parenthesized (inside : Inline text) : Inline (JavaScript.parenthesized text) :=
  inside.enclosed rfl rfl

theorem intercalate {separator : String} (between : Inline separator) {texts : List String}
    (inside : ∀ text ∈ texts, Inline text) : Inline (separator.intercalate texts) := by
  induction texts with
  | nil => exact of_plain rfl
  | cons text others ih =>
      rw [List.forall_mem_cons] at inside
      cases others with
      | nil => simpa using inside.1
      | cons second others =>
          rw [String.intercalate_cons_cons]
          exact (inside.1.append between).append (ih inside.2)

end Inline

namespace Fragment

variable {text first second : String}

/-- A text of characters without a meaning, with spaces anywhere but at its beginning. -/
theorem of_plain (plain : isPlain text = true)
    (first : text.toList.head?.any (· ≠ ' ') = true) : Fragment text where
  toInline := .of_plain plain
  begins := by
    cases spelled : text.toList with
    | nil => simp [spelled] at first
    | cons c rest =>
        refine ⟨c, rest, spelled, by simpa [spelled] using first, ?_⟩
        rintro rfl
        simp [isPlain, spelled, special] at plain

/-- A text of characters without a meaning and without a space. -/
theorem of_word (plain : ∀ c ∈ text.toList, c ∉ ' ' :: special) (nonempty : text.toList ≠ []) :
    Fragment text := by
  have outside : ∀ c ∈ text.toList, c ∉ special :=
    fun c mem => List.not_mem_of_not_mem_cons (plain c mem)
  refine .of_plain (by simpa [isPlain] using outside) ?_
  obtain ⟨c, rest, spelled⟩ := List.exists_cons_of_ne_nil nonempty
  have differs := List.ne_of_not_mem_cons (plain c (by simp [spelled]))
  simp [spelled, differs]

theorem append (here : Fragment first) (there : Inline second) : Fragment (first ++ second) where
  toInline := here.toInline.append there
  begins := here.begins.append second

/-- A text between two brackets begins with the first of them. -/
theorem enclosed (inside : Inline text) {opening closing : Char} {bracket : Bracket}
    (opens : mark opening = .opens bracket) (closes : mark closing = .closes bracket) :
    Fragment (String.ofList [opening] ++ text ++ String.ofList [closing]) where
  toInline := inside.enclosed opens closes
  begins := by
    refine ⟨opening, text.toList ++ [closing], by simp, ?_, ?_⟩
    · rintro rfl
      cases opens
    · rintro rfl
      cases opens

theorem parenthesized (inside : Inline text) : Fragment (JavaScript.parenthesized text) :=
  enclosed inside rfl rfl

theorem operand (fragment : Fragment text) (e : Expr) : Fragment (JavaScript.asOperand e text) := by
  rw [JavaScript.asOperand]
  split
  · exact parenthesized fragment.toInline
  · exact fragment

end Fragment

/-! ## Names and constants -/

theorem fragment_of_usable {name : String} (usable : Naming.Usable name) : Fragment name := by
  obtain ⟨nonempty, chars, -⟩ := usable
  refine .of_word (fun c mem listed => ?_) nonempty
  have other : (' ' :: special).all (fun c => !Naming.isNameChar c) = true := by decide
  have differs := List.all_eq_true.mp other c listed
  simp [chars c mem] at differs

theorem fragment_of_isNumber {text : String} (number : EcmaScript.IsNumber text) :
    Fragment text := by
  have digit : ∀ c, EcmaScript.isDigit c = true → c ∉ ' ' :: special := by
    intro c isDigit listed
    have other : (' ' :: special).all (fun c => !EcmaScript.isDigit c) = true := by decide
    have differs := List.all_eq_true.mp other c listed
    simp [isDigit] at differs
  have nonempty : ∀ {chars}, EcmaScript.IsWhole chars → chars ≠ [] := by
    rintro chars ⟨-, rfl | ⟨filled, -⟩⟩
    · simp
    · exact filled
  cases number with
  | whole whole => exact .of_word (fun c mem => digit c (whole.1 c mem)) (nonempty whole)
  | @fractional whole fraction isWhole digits spelled =>
      refine .of_word (fun c mem => ?_) ?_
      · rw [spelled, List.mem_append, List.mem_cons] at mem
        rcases mem with before | rfl | behind
        · exact digit c (isWhole.1 c before)
        · decide
        · exact digit c (digits c behind)
      · rw [spelled]
        exact List.append_ne_nil_of_right_ne_nil _ (by simp)

/-- One character of a string literal keeps the reader in the literal. -/
theorem readAll_dataChar (opened : List Bracket) (c : Char) :
    readAll ⟨.text, opened⟩ (Text.dataChar c) = some ⟨.text, opened⟩ := by
  cases EcmaScript.dataForm c with
  | @named letter known same =>
      have letters : ∀ entry ∈ EcmaScript.dataLetters,
          read ⟨.escape, opened⟩ entry.1 = some ⟨.text, opened⟩ := by
        simp [EcmaScript.dataLetters, read]
      have backslash : read ⟨.text, opened⟩ '\\' = some ⟨.escape, opened⟩ := rfl
      rw [same, readAll_cons, backslash]
      exact congrArg (Option.bind · some) (letters _ known)
  | control small same =>
      obtain ⟨digits, -⟩ := EcmaScript.hexFour_control c.toNat small
      have hex : ∀ n < 32, isHexDigit (n / 16).digitChar = true ∧
          isHexDigit (n % 16).digitChar = true := by decide
      obtain ⟨third, fourth⟩ := hex c.toNat small
      have front : readAll ⟨.text, opened⟩ ['\\', 'u', '0', '0'] = some ⟨.digits 2, opened⟩ := rfl
      rw [same, digits]
      change readAll ⟨.text, opened⟩ (['\\', 'u', '0', '0'] ++ [_, _]) = _
      rw [readAll_append, front]
      simp [readAll_cons, read, third, fourth]
  | raw quote backslash control same =>
      rw [same]
      simp [readAll_cons, read, quote, backslash, control]

/-- A string literal, whatever characters the string has. -/
theorem fragment_dataLiteral (value : String) : Fragment (Text.dataLiteral value) where
  neutral opened := by
    have inside : ∀ chars : List Char,
        readAll ⟨.text, opened⟩ (chars.flatMap Text.dataChar) = some ⟨.text, opened⟩ := by
      intro chars
      induction chars with
      | nil => rfl
      | cons c chars ih =>
          rw [List.flatMap_cons, readAll_append, readAll_dataChar]
          exact ih
    -- The reader enters the literal at the first quote and leaves it at the last one.
    rw [Text.dataLiteral, String.toList_ofList, List.cons_append, readAll_cons]
    change readAll ⟨.text, opened⟩ (_ ++ ['"']) = _
    rw [readAll_append, inside]
    rfl
  unbroken := by
    have within (c : Char) : '\n' ∉ Text.dataChar c := fun mem =>
      EcmaScript.not_control_dataChar mem (by decide)
    rw [Text.dataLiteral, String.toList_ofList]
    simp [within]
  begins := ⟨'"', value.toList.flatMap Text.dataChar ++ ['"'], by simp [Text.dataLiteral],
    by decide, by decide⟩

theorem fragment_literal (value : Literal) : Fragment (JavaScript.literal value) := by
  cases value with
  | bool value => cases value <;> exact .of_plain (by decide) (by decide)
  | number value =>
      cases value with
      | finite mantissa exponent => exact fragment_of_isNumber (EcmaScript.isNumber_positional _)
      | infinite => exact .of_plain (by decide) (by decide)
  | int value => exact fragment_of_isNumber (EcmaScript.isNumber_digitText value)
  | str value => exact fragment_dataLiteral value
  | null => exact .of_plain (by decide) (by decide)
  | undefined => exact .of_plain (by decide) (by decide)

/-! ## Expressions -/

section

variable {names : Naming.Names}

theorem fragment_identifier (proper : names.Proper) (entity : Option EntityId)
    (spelling : String) : Fragment (names.identifier entity spelling) := by
  cases entity with
  | some id => exact fragment_of_usable (proper.entity id)
  | none => exact fragment_of_usable (proper.field spelling)

theorem inline_operator (op : BinaryOp) : Inline (JavaScript.operator op) := by
  cases op <;> exact .of_plain (by decide)

theorem fragment_unaryOp (op : UnaryOp) : Fragment op.text := by
  cases op <;> exact .of_plain (by decide) (by decide)

mutual

/-- The text of an expression under proper names is a fragment. -/
theorem fragment_expr (proper : names.Proper) : ∀ e : Expr,
    Fragment (JavaScript.expr (names.expr e))
  | .literal note value => by
      rw [Naming.Names.expr, JavaScript.expr]
      exact fragment_literal value
  | .ident note name entity => by
      rw [Naming.Names.expr, JavaScript.expr]
      exact fragment_identifier proper entity name
  | .call note callee args => by
      rw [Naming.Names.expr, JavaScript.expr]
      exact ((fragment_expr proper callee).operand _).append
        (inline_list proper (.of_plain (by decide)) args).parenthesized
  | .this note field => by
      rw [Naming.Names.expr, JavaScript.expr]
      have word : Fragment "this." := .of_plain (by decide) (by decide)
      exact word.append (fragment_of_usable (proper.field field.name)).toInline
  | .new note target args => by
      rw [Naming.Names.expr, JavaScript.expr]
      have word : Fragment "new " := .of_plain (by decide) (by decide)
      exact (word.append ((fragment_expr proper target).operand _).toInline).append
        (inline_list proper (.of_plain (by decide)) args).parenthesized
  | .typeOf note operand => by
      rw [Naming.Names.expr, JavaScript.expr]
      have word : Fragment "typeof " := .of_plain (by decide) (by decide)
      exact word.append ((fragment_expr proper operand).operand _).toInline
  | .ternary note condition yes no => by
      rw [Naming.Names.expr, JavaScript.expr]
      have question : Inline " ? " := .of_plain (by decide)
      have colon : Inline " : " := .of_plain (by decide)
      exact (((((fragment_expr proper condition).operand _).append question).append
        ((fragment_expr proper yes).operand _).toInline).append colon).append
          ((fragment_expr proper no).operand _).toInline
  | .binary note op left right => by
      rw [Naming.Names.expr, JavaScript.expr]
      have blank : Inline " " := .of_plain (by decide)
      have whole := (((((fragment_expr proper left).operand (names.expr left)).append
        blank).append (inline_operator op)).append blank).append
          ((fragment_expr proper right).operand (names.expr right)).toInline
      split
      · exact whole
      · exact .parenthesized whole.toInline
  | .unary note op .before operand => by
      rw [Naming.Names.expr, JavaScript.expr]
      exact (fragment_unaryOp op).append
        ((fragment_expr proper operand).operand _).toInline.parenthesized
  | .unary note op .behind operand => by
      rw [Naming.Names.expr, JavaScript.expr]
      exact ((fragment_expr proper operand).operand _).append (fragment_unaryOp op).toInline
  | .array note elements => by
      rw [Naming.Names.expr, JavaScript.expr]
      exact .enclosed (inline_list proper (.of_plain (by decide)) elements)
        (show mark '[' = .opens .square from rfl) (show mark ']' = .closes .square from rfl)
  | .object note entries => by
      rw [Naming.Names.expr, JavaScript.expr]
      exact .enclosed (inline_pairs proper entries)
        (show mark '\x7b' = .opens .curly from rfl) (show mark '\x7d' = .closes .curly from rfl)
  | .member note base index => by
      rw [Naming.Names.expr, JavaScript.expr]
      have inside := (fragment_expr proper index).toInline.enclosed
        (show mark '[' = .opens .square from rfl) (show mark ']' = .closes .square from rfl)
      have whole := ((fragment_expr proper base).operand (names.expr base)).append inside
      simp only [← String.append_assoc] at whole
      exact whole
  | .property note base field => by
      rw [Naming.Names.expr, JavaScript.expr]
      have point : Inline "." := .of_plain (by decide)
      exact (((fragment_expr proper base).operand _).append point).append
        (fragment_of_usable (proper.field field.name)).toInline

theorem inline_list (proper : names.Proper) {separator : String} (between : Inline separator) :
    ∀ es : List Expr, Inline (JavaScript.list separator (names.exprs es))
  | [] => by
      rw [Naming.Names.exprs, JavaScript.list]
      exact .of_plain (by decide)
  | [last] => by
      rw [Naming.Names.exprs, Naming.Names.exprs, JavaScript.list]
      exact (fragment_expr proper last).toInline
  | first :: second :: others => by
      have rest := inline_list proper between (second :: others)
      rw [Naming.Names.exprs] at rest ⊢
      rw [Naming.Names.exprs, JavaScript.list]
      · exact ((fragment_expr proper first).toInline.append between).append rest
      · simp

theorem inline_pair (proper : names.Proper) : ∀ entry : Pair,
    Inline (JavaScript.pair (names.pair entry))
  | .mk pos key value canonical => by
      have colon : Inline ": " := .of_plain (by decide)
      have written := (fragment_expr proper value).toInline
      by_cases plain : Parts.isName key = true
      · cases key with
        | ident note name entity =>
            rw [Naming.Names.pair, JavaScript.pair, JavaScript.expr]
            exact ((fragment_of_usable (proper.field name)).toInline.append colon).append written
        | _ => cases plain
      · rw [Bool.not_eq_true] at plain
        rw [names.pair_of_not_isName plain, JavaScript.pair]
        exact ((fragment_expr proper key).toInline.append colon).append written

theorem inline_pairs (proper : names.Proper) : ∀ entries : List Pair,
    Inline (JavaScript.pairs (names.pairs entries))
  | [] => by
      rw [Naming.Names.pairs, JavaScript.pairs]
      exact .of_plain (by decide)
  | [last] => by
      rw [Naming.Names.pairs, Naming.Names.pairs, JavaScript.pairs]
      exact inline_pair proper last
  | first :: second :: others => by
      have rest := inline_pairs proper (second :: others)
      have comma : Inline ", " := .of_plain (by decide)
      rw [Naming.Names.pairs] at rest ⊢
      rw [Naming.Names.pairs, JavaScript.pairs]
      · exact ((inline_pair proper first).append comma).append rest
      · simp

end

end

end Brackets

end Qalam
