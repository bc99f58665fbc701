/-
# The tokens of a generated expression

What the text of an expression is read as, constructor by constructor. No token runs into the next
one: a number never stands before a point, and everything else ends at a blank, a bracket or a
comma.
-/

import Qalam.Proofs.EcmaScript.Spelling
import Qalam.Proofs.Naming.Substitution
import Qalam.Proofs.Structure.Checked

namespace Qalam.EcmaScript

/-- The token of a constant. -/
def literal : Literal → Token
  | .bool value => .word (if value then "true" else "false")
  | .number (.finite mantissa exponent) =>
    .number (Binary64.finite mantissa exponent).text
  | .number .infinite => .word "inf"
  | .int value => .number (Decimal.digitText value)
  | .str value => .text value.toList
  | .null => .word "null"
  | .undefined => .word "undefined"

/-- Tokens in parentheses. -/
def wrapped (tokens : List Token) : List Token := .sign "(" :: (tokens ++ [.sign ")"])

/-- The tokens of an expression where it is an operand. -/
def asOperand (e : Expr) (tokens : List Token) : List Token :=
  if JavaScript.isLoose e then wrapped tokens else tokens

mutual

/-- The tokens of an expression. -/
def tokens : Expr → List Token
  | .literal _ value => [literal value]
  | .ident _ name _ => [.word name]
  | .call _ callee args => asOperand callee (tokens callee) ++ wrapped (list args)
  | .this _ field => [.word "this", .sign ".", .word field.name]
  | .new _ target args =>
    .word "new" :: (asOperand target (tokens target) ++ wrapped (list args))
  | .typeOf _ operand => .word "typeof" :: asOperand operand (tokens operand)
  | .ternary _ condition yes no =>
    asOperand condition (tokens condition) ++ .sign "?" ::
      (asOperand yes (tokens yes) ++ .sign ":" :: asOperand no (tokens no))
  | .binary _ op left right =>
    let inner := asOperand left (tokens left) ++ .sign (JavaScript.operator op) ::
      asOperand right (tokens right)
    if op.isCompoundAssignment then inner else wrapped inner
  | .unary _ op .before operand => .sign op.text :: wrapped (asOperand operand (tokens operand))
  | .unary _ op .behind operand => asOperand operand (tokens operand) ++ [.sign op.text]
  | .array _ elements => .sign "[" :: (list elements ++ [.sign "]"])
  | .object _ entries => .sign "\x7b" :: (pairs entries ++ [.sign "\x7d"])
  | .member _ base index =>
    asOperand base (tokens base) ++ .sign "[" :: (tokens index ++ [.sign "]"])
  | .property _ base field => asOperand base (tokens base) ++ [.sign ".", .word field.name]

/-- The tokens of several expressions with commas between them. -/
def list : List Expr → List Token
  | [] => []
  | [last] => tokens last
  | first :: others => tokens first ++ .sign "," :: list others

/-- The tokens of an entry of an object literal. -/
def pair : Pair → List Token
  | .mk _ key value _ => tokens key ++ .sign ":" :: tokens value

/-- The tokens of the entries of an object literal. -/
def pairs : List Pair → List Token
  | [] => []
  | [last] => pair last
  | first :: others => pair first ++ .sign "," :: pairs others

end

/-! ## Fixed texts -/

/-- Signs that are complete in themselves. -/
def closedSigns : List (List Char) :=
  ["(", ")", "[", "]", "\x7b", "\x7d", ",", ";", ":", "++", "--"].map String.toList

theorem goesOn_closed {sign : List Char} (closed : sign ∈ closedSigns) (c : Char) :
    goesOn sign c = false := by
  simp only [closedSigns, List.map_cons, List.map_nil, List.mem_cons, List.not_mem_nil,
    or_false] at closed
  rcases closed with rfl | rfl | rfl | rfl | rfl | rfl | rfl | rfl | rfl | rfl | rfl <;>
    simp [goesOn, signs, comments, List.isPrefixOf]

theorem lexes_closed {text : String} {tokens : List Token} {sign : List Char}
    (reads : run .gap text.toList = some (tokens, .sign sign)) (closed : sign ∈ closedSigns) :
    Lexes anyChar text (tokens ++ [Token.sign (String.ofList sign)]) := by
  have ends : ∀ sign ∈ closedSigns, finish (.sign sign) = some [.sign (String.ofList sign)] := by
    decide
  refine lexes_of_run reads (ends sign closed) fun c _ => ?_
  rw [step, goesOn_closed closed, if_neg Bool.false_ne_true]

/-- A text that ends with a blank. -/
theorem lexes_spaced {text : String} {tokens : List Token}
    (reads : run .gap text.toList = some (tokens, .gap)) : Lexes anyChar text tokens := by
  have lexes := @lexes_of_run anyChar _ _ [] _ reads rfl fun _ _ => rfl
  rwa [List.append_nil] at lexes

/-- A text before one that begins with a character of the right sort. -/
theorem Lexes.before {sort sort' : Char → Bool} {first second : String}
    {tokens others : List Token} {c : Char} (lexes : Lexes sort first tokens)
    (lexes' : Lexes sort' second others) (starts : second.toList.head? = some c)
    (fits : sort c = true) : Lexes sort' (first ++ second) (tokens ++ others) := by
  refine lexes.append lexes' fun rest _ => ?_
  cases spelled : second.toList with
  | nil =>
      rw [spelled] at starts
      cases starts
  | cons d more =>
      rw [spelled] at starts
      cases starts
      exact follows_cons fits _

theorem lexes_opening : Lexes anyChar "(" [.sign "("] :=
  @lexes_closed "(" [] ['('] (by decide) (by decide)

theorem lexes_closing : Lexes anyChar ")" [.sign ")"] :=
  @lexes_closed ")" [] [')'] (by decide) (by decide)

theorem lexes_bracket : Lexes anyChar "[" [.sign "["] :=
  @lexes_closed "[" [] ['['] (by decide) (by decide)

theorem lexes_bracketEnd : Lexes anyChar "]" [.sign "]"] :=
  @lexes_closed "]" [] [']'] (by decide) (by decide)

theorem lexes_comma : Lexes anyChar ", " [.sign ","] :=
  lexes_spaced (by decide)

theorem lexes_nothing {sort : Char → Bool} : Lexes sort "" [] := by
  intro rest _
  simp

theorem Lexes.wrapped {text : String} {ts : List Token} (lexes : Lexes endsNumber text ts) :
    Lexes anyChar (JavaScript.parenthesized text) (wrapped ts) :=
  (lexes_opening.then lexes).before lexes_closing rfl rfl

/-- A text in parentheses behind another one. -/
theorem Lexes.applied {first second : String} {ts us : List Token}
    (lexes : Lexes endsNumber first ts) (lexes' : Lexes endsNumber second us) :
    Lexes anyChar (first ++ JavaScript.parenthesized second) (ts ++ EcmaScript.wrapped us) :=
  @Lexes.before _ _ _ _ _ _ '(' lexes lexes'.wrapped (by simp [JavaScript.parenthesized]) rfl

/-- Any character but a point. -/
def notPoint (c : Char) : Bool := c ≠ '.'

theorem goesOn_point {c : Char} (other : notPoint c = true) : goesOn ['.'] c = false := by
  simpa [goesOn, signs, comments, List.isPrefixOf, notPoint] using other

/-- A point is a sign of its own if no further point follows. -/
theorem lexes_point {text : String} {ts : List Token}
    (reads : run .gap text.toList = some (ts, .sign ['.'])) :
    Lexes notPoint text (ts ++ [Token.sign "."]) := by
  have ends : finish (.sign ['.']) = some [.sign "."] := by decide
  refine lexes_of_run reads ends fun c other => ?_
  rw [step, goesOn_point other, if_neg Bool.false_ne_true]

theorem isWord_of {name : String} (begins : name.toList.head?.any beginsWord = true)
    (continues : name.toList.all isWordChar = true) : IsWord name := by
  cases spelled : name.toList with
  | nil => simp [spelled] at begins
  | cons c rest =>
      rw [spelled] at begins continues
      simp only [List.all_cons, Bool.and_eq_true, List.all_eq_true] at continues
      exact ⟨c, rest, spelled, by simpa using begins, continues.2⟩

/-- A name behind a point. -/
theorem Lexes.field {text : String} {ts : List Token} {name : String}
    (lexes : Lexes notPoint text ts) (word : IsWord name) :
    Lexes endsWord (text ++ name) (ts ++ [Token.word name]) := by
  obtain ⟨c, rest, spelled, begins, -⟩ := id word
  refine @Lexes.before _ _ _ _ _ _ c lexes (lexes_word word) (by rw [spelled]; rfl) ?_
  cases point : notPoint c with
  | true => rfl
  | false =>
      have same : c = '.' := by simpa [notPoint] using point
      rw [same] at begins
      exact absurd begins (by decide)

theorem endsWord_of_endsNumber {c : Char} (ends : endsNumber c = true) : endsWord c = true := by
  simp only [endsNumber, Bool.and_eq_true] at ends
  exact ends.1

theorem Lexes.loosen {text : String} {ts : List Token} (lexes : Lexes endsWord text ts) :
    Lexes endsNumber text ts :=
  lexes.weaken fun _ => endsWord_of_endsNumber

theorem Lexes.anywhere {sort : Char → Bool} {text : String} {ts : List Token}
    (lexes : Lexes anyChar text ts) : Lexes sort text ts :=
  lexes.weaken fun _ _ => rfl

theorem lexes_literal (value : Literal) :
    Lexes endsNumber (JavaScript.literal value) [literal value] := by
  cases value with
  | bool value =>
      cases value with
      | false => exact (lexes_word (isWord_of (by decide) (by decide))).loosen
      | true => exact (lexes_word (isWord_of (by decide) (by decide))).loosen
  | number value =>
      cases value with
      | finite mantissa exponent => exact lexes_number (isNumber_positional _)
      | infinite => exact (lexes_word (isWord_of (by decide) (by decide))).loosen
  | int value => exact lexes_number (isNumber_digitText value)
  | str value => exact (lexes_text value).anywhere
  | null => exact (lexes_word (isWord_of (by decide) (by decide))).loosen
  | undefined => exact (lexes_word (isWord_of (by decide) (by decide))).loosen

theorem lexes_operator (op : BinaryOp) :
    Lexes anyChar (" " ++ JavaScript.operator op ++ " ") [.sign (JavaScript.operator op)] := by
  cases op <;> exact lexes_spaced (by decide)

theorem lexes_before (op : UnaryOp) :
    Lexes anyChar (op.text ++ "(") [.sign op.text, .sign "("] := by
  cases op with
  | neg => exact @lexes_closed _ [.sign "-"] ['('] (by decide) (by decide)
  | not => exact @lexes_closed _ [.sign "!"] ['('] (by decide) (by decide)
  | increment => exact @lexes_closed _ [.sign "++"] ['('] (by decide) (by decide)
  | decrement => exact @lexes_closed _ [.sign "--"] ['('] (by decide) (by decide)

theorem lexes_behind {op : UnaryOp} (mutation : op.isMutation = true) :
    Lexes anyChar op.text [.sign op.text] := by
  cases op with
  | increment => exact @lexes_closed _ [] ['+', '+'] (by decide) (by decide)
  | decrement => exact @lexes_closed _ [] ['-', '-'] (by decide) (by decide)
  | _ => cases mutation

/-! ## Expressions -/

/-- What an expression and its operands must be like so that its tokens can be told apart. -/
def Legible : Expr → Prop
  | .ident _ name _ => IsWord name
  | .this _ field => IsWord field.name
  | .unary _ op .behind _ => op.isMutation = true
  | .object _ entries => ∀ entry ∈ entries, ∀ {note name entity},
    entry.key = .ident note name entity → IsWord name
  | .property _ base field => base.isBase = true ∧ IsWord field.name
  | _ => True

/-- How the text of an expression is read. Behind a number no point can stand. -/
structure Read (e : Expr) : Prop where
  text : Lexes endsNumber (JavaScript.expr e) (tokens e)
  base : e.isBase = true → JavaScript.isLoose e = false →
    Lexes endsWord (JavaScript.expr e) (tokens e)

namespace Read

theorem of_word {e : Expr} (lexes : Lexes endsWord (JavaScript.expr e) (tokens e)) : Read e :=
  ⟨lexes.loosen, fun _ _ => lexes⟩

theorem of_closed {e : Expr} (lexes : Lexes anyChar (JavaScript.expr e) (tokens e)) : Read e :=
  of_word lexes.anywhere

theorem operand {e : Expr} (read : Read e) :
    Lexes endsNumber (JavaScript.asOperand e (JavaScript.expr e)) (asOperand e (tokens e)) := by
  unfold JavaScript.asOperand asOperand
  split
  · exact read.text.wrapped.anywhere
  · exact read.text

theorem operand_base {e : Expr} (read : Read e) (isBase : e.isBase = true) :
    Lexes endsWord (JavaScript.asOperand e (JavaScript.expr e)) (asOperand e (tokens e)) := by
  unfold JavaScript.asOperand asOperand
  split
  · exact read.text.wrapped.anywhere
  · rename_i tight
    exact read.base isBase (by simpa using tight)

mutual

theorem expr : ∀ {e : Expr}, (∀ x ∈ Parts.expr e, Legible x) → Read e
  | .literal note value, _ =>
      ⟨by rw [JavaScript.expr, tokens]; exact lexes_literal value, fun other => by cases other⟩
  | .ident note name entity, legible => by
      refine of_word ?_
      rw [JavaScript.expr, tokens]
      exact lexes_word (legible _ (Parts.mem_self _))
  | .call note callee args, legible => by
      simp only [Parts.expr, List.forall_mem_cons, List.forall_mem_append] at legible
      refine of_closed ?_
      rw [JavaScript.expr, tokens]
      exact (expr legible.2.1).operand.applied (list (.inl rfl) legible.2.2)
  | .this note field, legible => by
      refine of_word ?_
      rw [JavaScript.expr, tokens]
      exact (@lexes_point "this." [.word "this"] (by decide)).field (legible _ (Parts.mem_self _))
  | .new note target args, legible => by
      simp only [Parts.expr, List.forall_mem_cons, List.forall_mem_append] at legible
      refine of_closed ?_
      rw [JavaScript.expr, tokens]
      have keyword : Lexes anyChar "new " [.word "new"] := lexes_spaced (by decide)
      exact (keyword.then (expr legible.2.1).operand).applied (list (.inl rfl) legible.2.2)
  | .typeOf note operand, legible => by
      simp only [Parts.expr, List.forall_mem_cons] at legible
      refine ⟨?_, fun other => by cases other⟩
      rw [JavaScript.expr, tokens]
      have keyword : Lexes anyChar "typeof " [.word "typeof"] := lexes_spaced (by decide)
      exact keyword.then (expr legible.2).operand
  | .ternary note condition yes no, legible => by
      simp only [Parts.expr, List.forall_mem_cons, List.forall_mem_append] at legible
      obtain ⟨-, ofCondition, ofYes, ofNo⟩ := legible
      refine ⟨?_, fun _ other => by cases other⟩
      rw [JavaScript.expr, tokens]
      have question : Lexes anyChar " ? " [.sign "?"] := lexes_spaced (by decide)
      have colon : Lexes anyChar " : " [.sign ":"] := lexes_spaced (by decide)
      have front := (expr ofCondition).operand.before question rfl rfl
      have middle := (front.then (expr ofYes).operand).before colon rfl rfl
      simpa using middle.then (expr ofNo).operand
  | .binary note op left right, legible => by
      simp only [Parts.expr, List.forall_mem_cons, List.forall_mem_append] at legible
      obtain ⟨-, ofLeft, ofRight⟩ := legible
      have spaced : (" " ++ JavaScript.operator op ++ " ").toList.head? = some ' ' := by simp
      have inner := ((expr ofLeft).operand.before (lexes_operator op) spaced rfl).then
        (expr ofRight).operand
      simp only [← String.append_assoc] at inner
      simp only [List.append_assoc, List.singleton_append] at inner
      by_cases compound : op.isCompoundAssignment = true
      · refine ⟨?_, fun _ other => ?_⟩
        · rw [JavaScript.expr, tokens]
          simp only [if_pos compound]
          exact inner
        · rw [JavaScript.isLoose, compound] at other
          cases other
      · refine of_closed ?_
        rw [JavaScript.expr, tokens]
        simp only [if_neg compound]
        exact inner.wrapped
  | .unary note op .before operand, legible => by
      simp only [Parts.expr, List.forall_mem_cons] at legible
      refine of_closed ?_
      rw [JavaScript.expr, tokens]
      have whole := ((lexes_before op).then (expr legible.2).operand).before lexes_closing rfl rfl
      simpa [JavaScript.parenthesized, wrapped, String.append_assoc] using whole
  | .unary note op .behind operand, legible => by
      simp only [Parts.expr, List.forall_mem_cons] at legible
      refine of_closed ?_
      rw [JavaScript.expr, tokens]
      have mutation : op.isMutation = true := legible.1
      cases op with
      | increment => exact (expr legible.2).operand.before (lexes_behind mutation) rfl rfl
      | decrement => exact (expr legible.2).operand.before (lexes_behind mutation) rfl rfl
      | _ => cases mutation
  | .array note elements, legible => by
      simp only [Parts.expr, List.forall_mem_cons] at legible
      refine of_closed ?_
      rw [JavaScript.expr, tokens]
      exact (lexes_bracket.then (list (.inr rfl) legible.2)).before lexes_bracketEnd rfl rfl
  | .object note entries, legible => by
      simp only [Parts.expr, List.forall_mem_cons] at legible
      refine of_closed ?_
      rw [JavaScript.expr, tokens]
      have opening : Lexes anyChar "\x7b" [.sign "\x7b"] :=
        @lexes_closed "\x7b" [] ['\x7b'] (by decide) (by decide)
      have closing : Lexes anyChar "\x7d" [.sign "\x7d"] :=
        @lexes_closed "\x7d" [] ['\x7d'] (by decide) (by decide)
      exact (opening.then (pairs legible.1 legible.2)).before closing rfl rfl
  | .member note base index, legible => by
      simp only [Parts.expr, List.forall_mem_cons, List.forall_mem_append] at legible
      refine of_closed ?_
      rw [JavaScript.expr, tokens]
      have front := (expr legible.2.1).operand.before lexes_bracket rfl rfl
      simpa using (front.then (expr legible.2.2).text).before lexes_bracketEnd rfl rfl
  | .property note base field, legible => by
      simp only [Parts.expr, List.forall_mem_cons] at legible
      obtain ⟨⟨isBase, word⟩, ofBase⟩ := legible
      refine of_word ?_
      rw [JavaScript.expr, tokens]
      have point := @lexes_point "." [] (by decide)
      have front := ((expr ofBase).operand_base isBase).before point rfl rfl
      simpa using front.field word

theorem list {separator : String} (known : separator = ", " ∨ separator = ",") :
    ∀ {es : List Expr}, (∀ x ∈ Parts.exprs es, Legible x) →
      Lexes endsNumber (JavaScript.list separator es) (list es)
  | [], _ => lexes_nothing
  | [e], legible => by
      rw [Parts.exprs, List.forall_mem_append] at legible
      exact (expr legible.1).text
  | e :: e' :: others, legible => by
      rw [Parts.exprs, List.forall_mem_append] at legible
      have further := list known legible.2
      rw [JavaScript.list, EcmaScript.list]
      · have comma : Lexes anyChar separator [.sign ","] := by
          rcases known with rfl | rfl
          · exact lexes_comma
          · exact @lexes_closed "," [] [','] (by decide) (by decide)
        have starts : separator.toList.head? = some ',' := by
          rcases known with rfl | rfl <;> rfl
        simpa using ((expr legible.1).text.before comma starts rfl).then further
      all_goals simp

theorem pair : ∀ {entry : Pair},
    (∀ {note name entity}, entry.key = .ident note name entity → IsWord name) →
    (∀ x ∈ Parts.pair entry, Legible x) →
    Lexes endsNumber (JavaScript.pair entry) (pair entry)
  | .mk pos key value canonical, word, legible => by
      have colon : Lexes anyChar ": " [.sign ":"] := lexes_spaced (by decide)
      have parts : Lexes endsNumber (JavaScript.expr key) (tokens key) ∧ Read value := by
        by_cases plain : Parts.isName key = true
        · rw [Parts.pair, if_pos plain] at legible
          refine ⟨?_, expr legible⟩
          cases key with
          | ident note name entity =>
              rw [JavaScript.expr, tokens]
              exact (lexes_word (word rfl)).loosen
          | _ => cases plain
        · rw [Parts.pair, if_neg plain, List.forall_mem_append] at legible
          exact ⟨(expr legible.1).text, expr legible.2⟩
      rw [JavaScript.pair, EcmaScript.pair]
      simpa using (parts.1.before colon rfl rfl).then parts.2.text

theorem pairs : ∀ {entries : List Pair},
    (∀ entry ∈ entries, ∀ {note name entity}, entry.key = .ident note name entity → IsWord name) →
    (∀ x ∈ Parts.pairs entries, Legible x) →
    Lexes endsNumber (JavaScript.pairs entries) (pairs entries)
  | [], _, _ => lexes_nothing
  | [entry], word, legible => by
      rw [Parts.pairs, List.forall_mem_append] at legible
      exact pair (word entry (by simp)) legible.1
  | entry :: entry' :: others, word, legible => by
      rw [Parts.pairs, List.forall_mem_append] at legible
      rw [List.forall_mem_cons] at word
      have further := pairs word.2 legible.2
      rw [JavaScript.pairs, EcmaScript.pairs]
      · simpa using ((pair word.1 legible.1).before lexes_comma rfl rfl).then further
      all_goals simp

end

end Read

/-! ## Renamed expressions -/

theorem isWord_of_usable {name : String} (usable : Naming.Usable name) : IsWord name := by
  obtain ⟨nonempty, chars, noDigit⟩ := usable
  have split : ∀ c, Naming.isNameChar c = true →
      isWordChar c = true ∧ (('0' ≤ c && c ≤ '9') = false → beginsWord c = true) := by
    intro c fine
    simp only [Naming.isNameChar, Bool.or_eq_true, Bool.and_eq_true, decide_eq_true_eq] at fine
    rcases fine with (lower | digit) | rfl
    · have begins : beginsWord c = true := by
        have range : 0x61 ≤ c.toNat ∧ c.toNat ≤ 0x7A := lower
        simp [beginsWord, range]
      exact ⟨by simp [isWordChar, begins], fun _ => begins⟩
    · have range : 0x30 ≤ c.toNat ∧ c.toNat ≤ 0x39 := digit
      exact ⟨by simp [isWordChar, isDigit, range], by simp [digit]⟩
    · exact ⟨by decide, fun _ => by decide⟩
  cases spelled : name.toList with
  | nil => exact absurd spelled nonempty
  | cons c rest =>
      rw [spelled, List.forall_mem_cons] at chars
      rw [spelled, Naming.beginsWithDigit] at noDigit
      exact ⟨c, rest, spelled, (split c chars.1).2 noDigit,
        fun d mem => (split d (chars.2 d mem)).1⟩

theorem isWord_identifier {names : Naming.Names} (proper : names.Proper)
    (entity : Option EntityId) (spelling : String) : IsWord (names.identifier entity spelling) := by
  cases entity with
  | some id => exact isWord_of_usable (proper.entity id)
  | none => exact isWord_of_usable (proper.field spelling)

/-- A plain name as a key is still one after renaming, and has the name of a field. -/
theorem isWord_key {names : Naming.Names} (proper : names.Proper) {entry : Pair} {note : Note}
    {name : String} {entity : Option EntityId}
    (key : (names.pair entry).key = .ident note name entity) : IsWord name := by
  obtain ⟨pos, original, value, canonical⟩ := entry
  cases plain : Parts.isName original with
  | true =>
      cases original with
      | ident note' name' entity' =>
          rw [Naming.Names.pair, Pair.key] at key
          cases key
          exact isWord_of_usable (proper.field name')
      | _ => cases plain
  | false =>
      rw [Naming.Names.pair_of_not_isName names plain, Pair.key] at key
      have renamed := names.isName_expr original
      rw [key, plain] at renamed
      cases renamed

theorem pairs_eq_map (names : Naming.Names) (entries : List Pair) :
    names.pairs entries = entries.map names.pair := by
  induction entries with
  | nil => rfl
  | cons entry others ih => rw [Naming.Names.pairs, ih, List.map_cons]

theorem legible_expr {names : Naming.Names} (proper : names.Proper) {x : Expr}
    (checked : x.Checked) : Legible (names.expr x) := by
  cases x with
  | ident note name entity => exact isWord_identifier proper entity name
  | this note field => exact isWord_of_usable (proper.field field.name)
  | unary note op side operand =>
      cases side with
      | before => trivial
      | behind => exact checked.1.1
  | object note entries =>
      intro entry mem note name entity key
      rw [pairs_eq_map] at mem
      obtain ⟨original, -, rfl⟩ := List.mem_map.mp mem
      exact isWord_key proper key
  | property note base field =>
      refine ⟨?_, isWord_of_usable (proper.field field.name)⟩
      have isBase : base.isBase = true := checked.2
      cases base with
      | literal | typeOf => cases isBase
      | _ => rfl
  | _ => trivial

end Qalam.EcmaScript
