/-
# The names of a program in the order of its text

The frames and names of a program as its JavaScript text has them: a declared name comes before
its value, all cases of a switch share one frame, and the members of a class are not names. Each
name carries its position and its entity; the words that the text adds have no entity.

The text of an expression is shown to have just the names that the layout gives it.
-/

import Qalam.Proofs.EcmaScript.Regrouping
import Qalam.Proofs.EcmaScript.Scopes
import Qalam.Proofs.Scoping.Walk

namespace Qalam.EcmaScript

open Scoping (Event Mark)
open Scoping.Walk (framed binding parameters)

namespace Layout

/-- The names in a constant. -/
def constant (pos : Position) : Literal → List (Event Mark)
  | .number .infinite => [.mentions "inf" ⟨pos, none⟩]
  | .undefined => [.mentions "undefined" ⟨pos, none⟩]
  | _ => []

mutual

/-- The names in an expression. -/
def expr : Expr → List (Event Mark)
  | .literal note value => constant note.pos value
  | .ident note name entity => [.mentions name ⟨note.pos, entity⟩]
  | .call _ callee args => expr callee ++ exprs args
  | .this _ _ => []
  | .new _ target args => expr target ++ exprs args
  | .typeOf _ operand => expr operand
  | .ternary _ condition yes no => expr condition ++ (expr yes ++ expr no)
  | .binary _ _ left right => expr left ++ expr right
  | .unary _ _ _ operand => expr operand
  | .array _ elements => exprs elements
  | .object _ entries => framed (pairs entries)
  | .member _ base index => expr base ++ expr index
  | .property _ base _ => expr base

/-- The names in several expressions. -/
def exprs : List Expr → List (Event Mark)
  | [] => []
  | e :: others => expr e ++ exprs others

/-- The names in an entry of an object literal. A plain key is none. -/
def pair : Pair → List (Event Mark)
  | .mk _ key value _ => if isPlainKey key then expr value else expr key ++ expr value

/-- The names in the entries of an object literal. -/
def pairs : List Pair → List (Event Mark)
  | [] => []
  | entry :: others => pair entry ++ pairs others

end

/-- A declared name before its value. A missing value is spelled out. -/
def declarator : Binding × Option Expr → List (Event Mark)
  | (name, some value) => binding name :: expr value
  | (name, none) => [binding name, .mentions "undefined" ⟨name.pos, none⟩]

/-- The declaration of one name. Only a variable can do without a value. -/
def declaration (constant : Bool) (name : Binding) (init : Option Expr) : List (Event Mark) :=
  if init.isNone && !constant then [binding name] else declarator (name, init)

mutual

/-- The names in a statement. -/
def statement : Statement → List (Event Mark)
  | .declare _ constant name init => declaration constant name init
  | .declareAll _ _ entries => entries.flatMap declarator
  | .assign _ target value => expr target ++ expr value
  | .tryCatch _ body name handler =>
    framed (block body) ++ framed (binding name :: framed (block handler))
  | .classDef _ name (some initialiser) _ members =>
    binding name :: framed (constructor initialiser ++ methods members)
  | .classDef _ name none _ members => binding name :: framed (methods members)
  | .function (.mk _ name params body) =>
    binding name :: framed (parameters params ++ framed (block body))
  | .ifElse _ alternatives (some otherwise) => arms alternatives ++ framed (block otherwise)
  | .ifElse _ alternatives none => arms alternatives
  | .whileLoop _ condition body => expr condition ++ framed (block body)
  | .forLoop _ name init condition step body =>
    framed (binding name :: (expr init ++ (expr condition ++ (expr step ++ framed (block body)))))
  | .forOf _ name iterable body =>
    framed (binding name :: (expr iterable ++ framed (block body)))
  | .switch _ selector alternatives (some otherwise) =>
    expr selector ++ framed (cases alternatives ++ block otherwise)
  | .switch _ selector alternatives none => expr selector ++ framed (cases alternatives)
  | .returns _ (some value) => expr value
  | .returns _ none => []
  | .print pos argument => .mentions "console" ⟨pos, none⟩ :: expr argument
  | .breakLoop _ => []
  | .continueLoop _ => []
  | .expr _ e => expr e

/-- The names in several statements. -/
def statements : List Statement → List (Event Mark)
  | [] => []
  | first :: others => statement first ++ statements others

/-- The names in the statements of a block. -/
def block : Block → List (Event Mark)
  | .mk _ body => statements body

/-- The names in the methods of a class. -/
def methods : List Function → List (Event Mark)
  | [] => []
  | .mk _ _ params body :: others =>
    framed (parameters params ++ framed (block body)) ++ methods others

/-- The names in a constructor. -/
def constructor : Constructor → List (Event Mark)
  | .mk _ params body => framed (parameters params ++ framed (block body))

/-- The names in the alternatives of an `if`. -/
def arms : List Arm → List (Event Mark)
  | [] => []
  | .mk _ test body :: others => expr test ++ (framed (block body) ++ arms others)

/-- The names in the cases of a switch. -/
def cases : List Arm → List (Event Mark)
  | [] => []
  | .mk _ test body :: others => expr test ++ (block body ++ cases others)

end

/-- Events without the marks of their names. -/
def bare (events : List (Event Mark)) : List (Event Unit) :=
  events.map (Event.map fun _ => ())

@[simp]
theorem bare_nil : bare [] = [] := rfl

@[simp]
theorem bare_append (first second : List (Event Mark)) :
    bare (first ++ second) = bare first ++ bare second := List.map_append

@[simp]
theorem bare_framed (events : List (Event Mark)) :
    bare (framed events) = .opens :: (bare events ++ [Event.closes]) := by
  simp [bare, framed, Event.map]

/-! ## Expressions in their text -/

/-- No name is a keyword. -/
def Nameable : Expr → Prop
  | .ident _ name _ => name ∉ keywords
  | _ => True

/-- The events of the text of an expression are those of the expression. A single word before a
colon must not stand where it would be a key. -/
def Scans (e : Expr) : Prop :=
  ∀ (valued : Bool) (levels : List Scan.Level) (place : Scan.Place) (rest : List Token),
    place ≠ .member → (place = .key → isPlainKey e = true → rest.head? ≠ some (.sign ":")) →
    Scan.tokens ⟨.free valued, levels, place⟩ (tokens e ++ rest) =
      (Scan.tokens ⟨.free valued, levels, .other⟩ rest).map (bare (expr e) ++ ·)

theorem map_map_append {α : Type} (result : Option (List α)) (first second : List α) :
    (result.map (second ++ ·)).map (first ++ ·) = result.map (first ++ second ++ ·) := by
  simp [Function.comp_def]

@[simp]
theorem map_nil_append {α : Type} (result : Option (List α)) : result.map ([] ++ ·) = result := by
  simp

namespace Scans

variable {e : Expr}

theorem anywhere (scans : Scans e) {valued : Bool} {levels : List Scan.Level} {rest : List Token} :
    Scan.tokens ⟨.free valued, levels, .other⟩ (tokens e ++ rest) =
      (Scan.tokens ⟨.free valued, levels, .other⟩ rest).map (bare (expr e) ++ ·) :=
  scans valued levels .other rest (by simp) (by simp)

theorem operand (scans : Scans e) (valued : Bool) (levels : List Scan.Level) (place : Scan.Place)
    (rest : List Token) (other : place ≠ .member)
    (noKey : place = .key → isPlainKey e = true → rest.head? ≠ some (.sign ":")) :
    Scan.tokens ⟨.free valued, levels, place⟩ (asOperand e (tokens e) ++ rest) =
      (Scan.tokens ⟨.free valued, levels, .other⟩ rest).map (bare (expr e) ++ ·) := by
  unfold asOperand
  split
  · rw [wrapped, List.cons_append, List.append_assoc, List.singleton_append, Scan.tokens_round,
      scans.anywhere, Scan.tokens_close_silent (by decide)]
  · exact scans valued levels place rest other noKey

theorem operand_anywhere (scans : Scans e) {valued : Bool} {levels : List Scan.Level}
    {rest : List Token} :
    Scan.tokens ⟨.free valued, levels, .other⟩ (asOperand e (tokens e) ++ rest) =
      (Scan.tokens ⟨.free valued, levels, .other⟩ rest).map (bare (expr e) ++ ·) :=
  scans.operand valued levels .other rest (by simp) (by simp)

end Scans

theorem scans_literal (note : Note) (constant : Literal) : Scans (.literal note constant) := by
  intro valued levels place rest other noKey
  have noKey' : place = .key → rest.head? ≠ some (.sign ":") := fun isKey => noKey isKey rfl
  rw [EcmaScript.tokens, expr, List.singleton_append]
  cases constant with
  | bool value =>
      rw [literal, Layout.constant, bare_nil, map_nil_append]
      · cases value <;> exact Scan.tokens_keyword other noKey' (by decide) (by decide)
      all_goals simp
  | number value =>
      cases value with
      | finite mantissa exponent =>
          rw [literal, Layout.constant, bare_nil, map_nil_append]
          · exact Scan.tokens_cons_silent rfl
          all_goals simp
      | infinite => exact Scan.tokens_mention other noKey' (by decide)
  | int value =>
      rw [literal, Layout.constant, bare_nil, map_nil_append]
      · exact Scan.tokens_cons_silent rfl
      all_goals simp
  | str value =>
      rw [literal, Layout.constant, bare_nil, map_nil_append]
      · exact Scan.tokens_cons_silent rfl
      all_goals simp
  | null =>
      rw [literal, Layout.constant, bare_nil, map_nil_append]
      · exact Scan.tokens_keyword other noKey' (by decide) (by decide)
      all_goals simp
  | undefined => exact Scan.tokens_mention other noKey' (by decide)

/-- Signs between operands are neither brackets nor separators. -/
theorem operator_idle (op : BinaryOp) :
    JavaScript.operator op ∉ ["(", "[", "\x7b", ")", "]", "\x7d", ".", ",", ";"] := by
  cases op <;> decide

theorem operator_ne_colon (op : BinaryOp) : JavaScript.operator op ≠ ":" := by
  cases op <;> decide

theorem unary_idle (op : UnaryOp) :
    op.text ∉ ["(", "[", "\x7b", ")", "]", "\x7d", ".", ",", ";"] := by
  cases op <;> decide

theorem unary_ne_colon (op : UnaryOp) : op.text ≠ ":" := by
  cases op <;> decide

theorem operand_starts {e : Expr} {ts : List Token}
    (starts : ∃ first others, ts = first :: others ∧ first ≠ .sign ":") :
    ∃ first others, asOperand e ts = first :: others ∧ first ≠ .sign ":" := by
  unfold asOperand
  split
  · exact ⟨.sign "(", _, rfl, by simp⟩
  · exact starts

theorem starts_append {ts rest : List Token}
    (starts : ∃ first others, ts = first :: others ∧ first ≠ .sign ":") :
    ∃ first others, ts ++ rest = first :: others ∧ first ≠ .sign ":" := by
  obtain ⟨first, others, rfl, noColon⟩ := starts
  exact ⟨first, others ++ rest, rfl, noColon⟩

/-- No expression begins with a colon. -/
theorem tokens_start : ∀ e : Expr, ∃ first others, tokens e = first :: others ∧ first ≠ .sign ":"
  | .literal _ value => by
      refine ⟨literal value, [], by rw [tokens], ?_⟩
      cases value with
      | number value => cases value <;> simp [literal]
      | _ => simp [literal]
  | .ident .. | .this .. | .new .. | .typeOf .. | .array .. | .object .. => by
      rw [tokens]
      exact ⟨_, _, rfl, by simp⟩
  | .call _ base _ | .ternary _ base _ _ | .unary _ _ .behind base | .member _ base _
  | .property _ base _ => by
      rw [tokens]
      exact starts_append (operand_starts (tokens_start base))
  | .binary _ op left _ => by
      rw [tokens]
      by_cases compound : op.isCompoundAssignment = true
      · simp only [if_pos compound]
        exact starts_append (operand_starts (tokens_start left))
      · simp only [if_neg compound]
        exact ⟨_, _, rfl, by simp⟩
  | .unary _ op .before _ => by
      rw [tokens]
      exact ⟨_, _, rfl, by simp [unary_ne_colon]⟩

theorem head_operand_ne_colon (e : Expr) (rest : List Token) :
    (asOperand e (tokens e) ++ rest).head? ≠ some (.sign ":") := by
  obtain ⟨first, others, same, noColon⟩ := @operand_starts e _ (tokens_start e)
  simp [same, noColon]

theorem scans_key {key : Expr} (scans : Parts.isName key = false → Scans key) {levels : List Scan.Level}
    {rest : List Token} :
    Scan.tokens ⟨.free false, levels, .key⟩ (tokens key ++ .sign ":" :: rest) =
      (Scan.tokens ⟨.free false, levels, .other⟩ rest).map
        (bare (if isPlainKey key then [] else expr key) ++ ·) := by
  have colon {place : Scan.Place} : Scan.tokens ⟨.free false, levels, place⟩ (.sign ":" :: rest) =
      Scan.tokens ⟨.free false, levels, .other⟩ rest :=
    Scan.tokens_operator (by decide)
  cases plain : isPlainKey key with
  | true =>
      obtain ⟨same, known⟩ := @key_spec default key key none plain
      rw [same, List.singleton_append, Scan.tokens_key known, colon, if_pos rfl, bare_nil,
        map_nil_append]
  | false =>
      have unnamed : Parts.isName key = false := by cases key <;> first | rfl | cases plain
      rw [scans unnamed _ _ _ _ (by simp) (by simp [plain]), colon, if_neg Bool.false_ne_true]

theorem pair_eq (pos : Position) (key value : Expr) (canonical : Option String) :
    pair (.mk pos key value canonical) =
      (if isPlainKey key then [] else expr key) ++ expr value := by
  rw [pair]
  split <;> rfl

theorem forall_mem_key {pos : Position} {key value : Expr} {canonical : Option String}
    {property : Expr → Prop} (unnamed : Parts.isName key = false)
    (all : ∀ x ∈ Parts.pair (.mk pos key value canonical), property x) :
    ∀ x ∈ Parts.expr key, property x := by
  rw [Parts.pair, unnamed, if_neg Bool.false_ne_true, List.forall_mem_append] at all
  exact all.1

mutual

theorem scans_expr : ∀ {e : Expr}, (∀ x ∈ Parts.expr e, Nameable x) → Scans e
  | .literal note value, _ => scans_literal note value
  | .ident note name entity, nameable => by
      intro valued levels place rest other noKey
      rw [EcmaScript.tokens, expr, List.singleton_append]
      exact Scan.tokens_mention other (fun isKey => noKey isKey rfl)
        (nameable _ (Parts.mem_self _))
  | .call note callee args, nameable => by
      simp only [Parts.expr, List.forall_mem_cons, List.forall_mem_append] at nameable
      intro valued levels place rest other _
      rw [EcmaScript.tokens, wrapped, List.append_assoc, List.cons_append, List.append_assoc,
        List.singleton_append, (scans_expr nameable.2.1).operand _ _ _ _ other (by simp),
        Scan.tokens_round, scans_list nameable.2.2 _ _ _ _ _ (by simp) (by decide),
        map_map_append, expr, bare_append]
  | .this note field, _ => by
      intro valued levels place rest other _
      rw [EcmaScript.tokens, List.cons_append,
        Scan.tokens_keyword other (by simp) (by decide) (by decide), List.cons_append,
        Scan.tokens_point, List.singleton_append, Scan.tokens_field, expr, bare_nil,
        map_nil_append]
  | .new note target args, nameable => by
      simp only [Parts.expr, List.forall_mem_cons, List.forall_mem_append] at nameable
      intro valued levels place rest other _
      rw [EcmaScript.tokens, wrapped, List.cons_append, List.append_assoc, List.cons_append,
        List.append_assoc, List.singleton_append,
        Scan.tokens_keyword other (fun _ => head_operand_ne_colon _ _) (by decide) (by decide),
        (scans_expr nameable.2.1).operand_anywhere, Scan.tokens_round,
        scans_list nameable.2.2 _ _ _ _ _ (by simp) (by decide), map_map_append, expr,
        bare_append]
  | .typeOf note operand, nameable => by
      simp only [Parts.expr, List.forall_mem_cons] at nameable
      intro valued levels place rest other _
      rw [EcmaScript.tokens, List.cons_append,
        Scan.tokens_keyword other (fun _ => head_operand_ne_colon _ _) (by decide) (by decide),
        (scans_expr nameable.2).operand_anywhere, expr]
  | .ternary note condition yes no, nameable => by
      simp only [Parts.expr, List.forall_mem_cons, List.forall_mem_append] at nameable
      obtain ⟨-, ofCondition, ofYes, ofNo⟩ := nameable
      intro valued levels place rest other _
      rw [EcmaScript.tokens, List.append_assoc, List.cons_append, List.append_assoc,
        List.cons_append, (scans_expr ofCondition).operand _ _ _ _ other (by simp),
        Scan.tokens_operator (by decide), (scans_expr ofYes).operand_anywhere,
        Scan.tokens_operator (by decide), (scans_expr ofNo).operand_anywhere, map_map_append,
        map_map_append, expr, bare_append, bare_append, List.append_assoc]
  | .binary note op left right, nameable => by
      simp only [Parts.expr, List.forall_mem_cons, List.forall_mem_append] at nameable
      obtain ⟨-, ofLeft, ofRight⟩ := nameable
      have inner : ∀ (valued : Bool) (levels : List Scan.Level) (place : Scan.Place)
          (rest : List Token), place ≠ .member →
          Scan.tokens ⟨.free valued, levels, place⟩ ((asOperand left (EcmaScript.tokens left) ++
            .sign (JavaScript.operator op) :: asOperand right (EcmaScript.tokens right)) ++ rest) =
          (Scan.tokens ⟨.free valued, levels, .other⟩ rest).map
            (bare (expr left ++ expr right) ++ ·) := by
        intro valued levels place rest other
        rw [List.append_assoc, List.cons_append,
          (scans_expr ofLeft).operand _ _ _ _ other (by simp [operator_ne_colon]),
          Scan.tokens_operator (operator_idle op), (scans_expr ofRight).operand_anywhere,
          map_map_append, bare_append]
      intro valued levels place rest other _
      rw [EcmaScript.tokens, expr]
      by_cases compound : op.isCompoundAssignment = true
      · simp only [if_pos compound]
        exact inner _ _ _ _ other
      · simp only [if_neg compound]
        rw [wrapped, List.cons_append, List.append_assoc, List.singleton_append,
          Scan.tokens_round, inner _ _ _ _ (by simp), Scan.tokens_close_silent (by decide)]
  | .unary note op .before operand, nameable => by
      simp only [Parts.expr, List.forall_mem_cons] at nameable
      intro valued levels place rest other _
      rw [EcmaScript.tokens, wrapped, List.cons_append, Scan.tokens_operator (unary_idle op),
        List.cons_append, List.append_assoc, List.singleton_append, Scan.tokens_round,
        (scans_expr nameable.2).operand_anywhere, Scan.tokens_close_silent (by decide), expr]
  | .unary note op .behind operand, nameable => by
      simp only [Parts.expr, List.forall_mem_cons] at nameable
      intro valued levels place rest other _
      rw [EcmaScript.tokens, List.append_assoc, List.singleton_append,
        (scans_expr nameable.2).operand _ _ _ _ other (by simp [unary_ne_colon]),
        Scan.tokens_operator (unary_idle op), expr]
  | .array note elements, nameable => by
      simp only [Parts.expr, List.forall_mem_cons] at nameable
      intro valued levels place rest other _
      rw [EcmaScript.tokens, List.cons_append, List.append_assoc, List.singleton_append,
        Scan.tokens_square, scans_list nameable.2 _ _ _ _ _ (by simp) (by decide), expr]
  | .object note entries, nameable => by
      simp only [Parts.expr, List.forall_mem_cons] at nameable
      intro valued levels place rest other _
      rw [EcmaScript.tokens, List.cons_append, List.append_assoc, List.singleton_append,
        Scan.tokens_curly, scans_pairs nameable.2, map_map_append, expr, bare_framed,
        bare_append]
      rfl
  | .member note base index, nameable => by
      simp only [Parts.expr, List.forall_mem_cons, List.forall_mem_append] at nameable
      intro valued levels place rest other _
      rw [EcmaScript.tokens, List.append_assoc, List.cons_append, List.append_assoc,
        List.singleton_append, (scans_expr nameable.2.1).operand _ _ _ _ other (by simp),
        Scan.tokens_square, (scans_expr nameable.2.2).anywhere,
        Scan.tokens_close_silent (by decide), map_map_append, expr, bare_append]
  | .property note base field, nameable => by
      simp only [Parts.expr, List.forall_mem_cons] at nameable
      intro valued levels place rest other _
      rw [EcmaScript.tokens, List.append_assoc, List.cons_append, List.singleton_append,
        (scans_expr nameable.2).operand _ _ _ _ other (by simp), Scan.tokens_point,
        Scan.tokens_field, expr]

/-- Items up to the bracket that closes them. -/
theorem scans_list : ∀ {es : List Expr}, (∀ x ∈ Parts.exprs es, Nameable x) →
    ∀ (mode : Scan.Mode) (closing : String) (levels : List Scan.Level) (place : Scan.Place)
      (rest : List Token), place ≠ .member → closing ∈ [")", "]"] →
      Scan.tokens ⟨.free false, ⟨closing, 0, mode⟩ :: levels, place⟩
          (EcmaScript.list es ++ .sign closing :: rest) =
        (Scan.tokens ⟨mode, levels, .other⟩ rest).map (bare (exprs es) ++ ·)
  | [], _, mode, closing, levels, place, rest, _, known => by
      have closes : closing ∈ [")", "]", "\x7d"] := by
        rcases List.mem_pair.mp known with rfl | rfl <;> decide
      rw [EcmaScript.list, List.nil_append, Scan.tokens_close_silent closes, exprs, bare_nil,
        map_nil_append]
  | [e], nameable, mode, closing, levels, place, rest, other, known => by
      have closes : closing ∈ [")", "]", "\x7d"] := by
        rcases List.mem_pair.mp known with rfl | rfl <;> decide
      have noColon : closing ≠ ":" := by rcases List.mem_pair.mp known with rfl | rfl <;> decide
      rw [Parts.exprs, Parts.exprs, List.append_nil] at nameable
      rw [EcmaScript.list, scans_expr nameable _ _ _ _ other (by simp [noColon]),
        Scan.tokens_close_silent closes, exprs, exprs, List.append_nil]
  | e :: e' :: others, nameable, mode, closing, levels, place, rest, other, known => by
      rw [Parts.exprs, List.forall_mem_append] at nameable
      rw [EcmaScript.list, List.append_assoc, List.cons_append,
        scans_expr nameable.1 _ _ _ _ other (by simp), Scan.tokens_comma,
        scans_list nameable.2 _ _ _ _ _ (by simp) known, map_map_append, ← bare_append,
        ← exprs.eq_2]
      simp

/-- Entries up to the brace that closes them. -/
theorem scans_pairs : ∀ {entries : List Pair}, (∀ x ∈ Parts.pairs entries, Nameable x) →
    ∀ (mode : Scan.Mode) (levels : List Scan.Level) (rest : List Token),
      Scan.tokens ⟨.free false, ⟨"\x7d", 1, mode⟩ :: levels, .key⟩
          (EcmaScript.pairs entries ++ .sign "\x7d" :: rest) =
        (Scan.tokens ⟨mode, levels, .other⟩ rest).map (bare (pairs entries ++ [Event.closes]) ++ ·)
  | [], _, mode, levels, rest => by
      rw [EcmaScript.pairs, List.nil_append, Scan.tokens_close (by decide)]
      rfl
  | [.mk pos key value canonical], nameable, mode, levels, rest => by
      rw [Parts.pairs, Parts.pairs, List.append_nil] at nameable
      have ofValue : ∀ x ∈ Parts.expr value, Nameable x := forall_mem_value nameable
      rw [EcmaScript.pairs, EcmaScript.pair, List.append_assoc, List.cons_append,
        scans_key (fun unnamed => scans_expr (forall_mem_key unnamed nameable)),
        (scans_expr ofValue).anywhere, Scan.tokens_close (by decide), map_map_append,
        map_map_append, pairs, pairs, pair_eq, List.append_nil]
      simp [bare, Event.map]
  | .mk pos key value canonical :: entry' :: others, nameable, mode, levels, rest => by
      rw [Parts.pairs, List.forall_mem_append] at nameable
      have ofValue : ∀ x ∈ Parts.expr value, Nameable x := forall_mem_value nameable.1
      rw [EcmaScript.pairs, EcmaScript.pair, List.append_assoc, List.cons_append,
        List.append_assoc, List.cons_append,
        scans_key (fun unnamed => scans_expr (forall_mem_key unnamed nameable.1)),
        (scans_expr ofValue).anywhere, Scan.tokens_comma, scans_pairs nameable.2,
        map_map_append, map_map_append, ← bare_append, ← bare_append, ← pair_eq pos,
        ← List.append_assoc, ← pairs.eq_2]
      simp

end

end Layout

end Qalam.EcmaScript
