/-
# Generated expressions regroup as they were

The text of an expression is read back as the expression. Parentheses are written around binary
expressions, around the operand of a prefix operator, and around a conditional or a compound
assignment that is an operand. Where the language allows the rest, nothing else is needed: every
form is derived at the level at which its surroundings use it.
-/

import Qalam.Proofs.EcmaScript.Emission
import Qalam.Proofs.EcmaScript.Unambiguous

namespace Qalam.EcmaScript

/-! ## The tree of an expression -/

/-- The tree of a constant. -/
def literalTree : Literal → Tree
  | .bool value => .constant (if value then "true" else "false")
  | .number value => .number value.text
  | .int value => .number (Decimal.digitText value)
  | .str value => .text value.toList
  | .null => .constant "null"
  | .undefined => .name "undefined"

/-- The token of a key. Keys are constants or plain names. -/
def keyToken : Expr → Token
  | .literal _ value => literal value
  | .ident _ name _ => .word name
  | _ => .sign ""

mutual

/-- The JavaScript tree of an expression. Equality is strict there. -/
def tree : Expr → Tree
  | .literal _ value => literalTree value
  | .ident _ name _ => .name name
  | .call _ callee args => .call (tree callee) (itemTree args)
  | .this _ field => .property (.constant "this") field.name
  | .new _ target args => .new (tree target) (itemTree args)
  | .typeOf _ operand => .unary (.word "typeof") (tree operand)
  | .ternary _ condition yes no => .conditional (tree condition) (tree yes) (tree no)
  | .binary _ op left right =>
    if op.isCompoundAssignment then .assign (.sign (JavaScript.operator op)) (tree left) (tree right)
    else .binary (.sign (JavaScript.operator op)) (tree left) (tree right)
  | .unary _ op side operand =>
    if op.isMutation then .update (.sign op.text) (side = .behind) (tree operand)
    else .unary (.sign op.text) (tree operand)
  | .array _ elements => .array (itemTree elements)
  | .object _ entries => .object (entryTree entries)
  | .member _ base index => .index (tree base) (tree index)
  | .property _ base field => .property (tree base) field.name

/-- The trees of several expressions. -/
def itemTree : List Expr → Tree
  | [] => .nothing
  | e :: others => .item (tree e) (itemTree others)

/-- The trees of the entries of an object literal. -/
def entryTree : List Pair → Tree
  | [] => .nothing
  | .mk _ key value _ :: others => .entry (keyToken key) (tree value) (entryTree others)

end

/-! ## From one level of the grammar to the next -/

namespace Derives

variable {ts : List Token} {t : Tree}

theorem left_of_member (derives : Derives .member ts t) : Derives .left ts t :=
  .leftNew (.newMember derives)

theorem exponent_of_unary (derives : Derives .unary ts t) : Derives .exponent ts t :=
  .noExponent derives

theorem tier_of_tier {level higher : Nat} (derives : Derives (.tier level) ts t)
    (bounded : level ≤ tiers.length) (below : higher ≤ level) : Derives (.tier higher) ts t := by
  induction below using Nat.decreasingInduction with
  | self => exact derives
  | of_succ higher smaller ih => exact .noOperator (Nat.lt_of_lt_of_le smaller bounded) ih

theorem tier_of_exponent (derives : Derives .exponent ts t) {level : Nat}
    (bounded : level ≤ tiers.length) : Derives (.tier level) ts t :=
  (Derives.lastTier derives).tier_of_tier (Nat.le_refl _) bounded

theorem assignment_of_tier (derives : Derives (.tier 0) ts t) : Derives .assignment ts t :=
  .noAssignment (.noCondition derives)

theorem assignment_of_unary (derives : Derives .unary ts t) : Derives .assignment ts t :=
  assignment_of_tier (tier_of_exponent (.noExponent derives) (Nat.zero_le _))

/-- In parentheses an expression stands wherever one can stand. -/
theorem wrapped (derives : Derives .assignment ts t) :
    Derives .member (EcmaScript.wrapped ts) t :=
  .memberPrimary (.parenthesized (.noComma derives))

theorem unary_of_member (derives : Derives .member ts t) : Derives .unary ts t :=
  .noUnary (.noUpdate derives.left_of_member)

end Derives

/-! ## Where expressions can stand -/

/-- Whether an expression begins with a prefix operator. -/
def isPrefixed : Expr → Bool
  | .typeOf .. | .unary _ _ .before _ => true
  | _ => false

/-- Whether an expression is an operator applied to one operand. -/
def isUnary : Expr → Bool
  | .unary .. => true
  | _ => false

/-- Whether an expression is a call. -/
def isCall : Expr → Bool
  | .call .. => true
  | _ => false

/-- The expressions that are met on the way from an expression to what it is called on, taken
from or made of. -/
def links : Expr → List Expr
  | .call note callee args => .call note callee args :: links callee
  | .new note target args => .new note target args :: links target
  | .member note base index => .member note base index :: links base
  | .property note base field => .property note base field :: links base
  | e => [e]

/-- Whether a key is a constant or a plain name. -/
def isPlainKey : Expr → Bool
  | .literal .. | .ident .. => true
  | _ => false

/-- The conditions under which the text of an expression regroups, as far as one expression and
its operands are concerned. -/
def Regroups : Expr → Prop
  | .call _ base _ | .member _ base _ | .property _ base _ => isUnary base = false
  | .new _ target _ => isUnary target = false ∧ ∀ x ∈ links target, isCall x = false
  | .binary _ .pow left _ => isPrefixed left = false
  | .object _ entries => ∀ entry ∈ entries, isPlainKey entry.key = true
  | .literal _ (.number value) => value ≠ .infinite
  | _ => True

/-- What an expression and its operands must be like so that its text is a JavaScript
expression. -/
structure Fit (e : Expr) : Prop where
  written : e.Written
  regroups : Regroups e
  base : match e with
    | .call _ base _ | .new _ base _ | .member _ base _ | .property _ base _ => base.isBase = true
    | _ => True
  name : ∀ {note name entity}, e = .ident note name entity → name ∉ keywords

/-- Where the text of an expression can stand. -/
structure Placed (e : Expr) : Prop where
  whole : Derives .assignment (tokens e) (tree e)
  unary : JavaScript.isLoose e = false → Derives .unary (tokens e) (tree e)
  update : JavaScript.isLoose e = false → isPrefixed e = false →
    Derives .update (tokens e) (tree e)
  access : JavaScript.isLoose e = false → e.isBase = true → isUnary e = false →
    Derives .call (tokens e) (tree e) ∨ Derives .member (tokens e) (tree e)
  member : JavaScript.isLoose e = false → e.isBase = true → isUnary e = false →
    (∀ x ∈ links e, isCall x = false) → Derives .member (tokens e) (tree e)

theorem isTarget_tree {e : Expr} (assignable : e.isAssignable = true) :
    (tree e).isTarget = true := by
  cases e with
  | ident | this | property | member => simp [tree, Tree.isTarget]
  | _ => cases assignable

/-- What can store a value is neither loose nor an operator applied to an operand. -/
theorem of_isAssignable {e : Expr} (assignable : e.isAssignable = true) :
    JavaScript.isLoose e = false ∧ e.isBase = true ∧ isUnary e = false := by
  cases e with
  | ident | this | property | member => exact ⟨rfl, rfl, rfl⟩
  | _ => cases assignable

namespace Placed

variable {e : Expr}

theorem of_member (derives : Derives .member (tokens e) (tree e)) : Placed e where
  whole := derives.unary_of_member.assignment_of_unary
  unary _ := derives.unary_of_member
  update _ _ := .noUpdate derives.left_of_member
  access _ _ _ := .inr derives
  member _ _ _ _ := derives

theorem of_access (derives : Derives .call (tokens e) (tree e) ∨ Derives .member (tokens e) (tree e))
    (member : (∀ x ∈ links e, isCall x = false) → Derives .member (tokens e) (tree e)) :
    Placed e := by
  have left : Derives .left (tokens e) (tree e) :=
    derives.elim .leftCall Derives.left_of_member
  exact
    { whole := Derives.assignment_of_unary (.noUnary (.noUpdate left))
      unary := fun _ => .noUnary (.noUpdate left)
      update := fun _ _ => .noUpdate left
      access := fun _ _ _ => derives
      member := fun _ _ _ => member }

theorem of_update (derives : Derives .update (tokens e) (tree e)) (unary : isUnary e = true) :
    Placed e where
  whole := Derives.assignment_of_unary (.noUnary derives)
  unary _ := .noUnary derives
  update _ _ := derives
  access _ _ other := by simp [unary] at other
  member _ _ other := by simp [unary] at other

theorem of_unary (derives : Derives .unary (tokens e) (tree e)) (begins : isPrefixed e = true)
    (other : e.isBase = true → isUnary e = true) : Placed e where
  whole := derives.assignment_of_unary
  unary _ := derives
  update _ plain := by simp [begins] at plain
  access _ base notUnary := by simp [other base] at notUnary
  member _ base notUnary := by simp [other base] at notUnary

theorem of_loose (derives : Derives .assignment (tokens e) (tree e))
    (loose : JavaScript.isLoose e = true) : Placed e where
  whole := derives
  unary tight := by simp [loose] at tight
  update tight := by simp [loose] at tight
  access tight := by simp [loose] at tight
  member tight := by simp [loose] at tight

theorem operand_unary (placed : Placed e) : Derives .unary (asOperand e (tokens e)) (tree e) := by
  unfold asOperand
  split
  · exact placed.whole.wrapped.unary_of_member
  · rename_i tight
    exact placed.unary (by simpa using tight)

theorem operand (placed : Placed e) : Derives .assignment (asOperand e (tokens e)) (tree e) :=
  placed.operand_unary.assignment_of_unary

theorem operand_update (placed : Placed e) (plain : isPrefixed e = false) :
    Derives .update (asOperand e (tokens e)) (tree e) := by
  unfold asOperand
  split
  · exact .noUpdate placed.whole.wrapped.left_of_member
  · rename_i tight
    exact placed.update (by simpa using tight) plain

theorem operand_access (placed : Placed e) (base : e.isBase = true) (other : isUnary e = false) :
    Derives .call (asOperand e (tokens e)) (tree e) ∨
      Derives .member (asOperand e (tokens e)) (tree e) := by
  unfold asOperand
  split
  · exact .inr placed.whole.wrapped
  · rename_i tight
    exact placed.access (by simpa using tight) base other

theorem operand_member (placed : Placed e) (base : e.isBase = true) (other : isUnary e = false)
    (free : ∀ x ∈ links e, isCall x = false) :
    Derives .member (asOperand e (tokens e)) (tree e) := by
  unfold asOperand
  split
  · exact placed.whole.wrapped
  · rename_i tight
    exact placed.member (by simpa using tight) base other free

/-- What can store a value stands without parentheses to the left of an assignment. -/
theorem operand_left (placed : Placed e) (assignable : e.isAssignable = true) :
    Derives .left (asOperand e (tokens e)) (tree e) := by
  obtain ⟨-, base, other⟩ := of_isAssignable assignable
  exact (placed.operand_access base other).elim .leftCall Derives.left_of_member

end Placed

/-! ## Every form is placed -/

theorem derives_literal {value : Literal} (finite : value ≠ .number .infinite) :
    Derives .primary [literal value] (literalTree value) := by
  cases value with
  | bool value => cases value <;> exact .constant (by decide)
  | number value =>
      cases value with
      | finite mantissa exponent => exact .number
      | infinite => exact absurd rfl finite
  | int value => exact .number
  | str value => exact .text
  | null => exact .constant (by decide)
  | undefined => exact .name (by decide)

/-- The level at which an operator stands. -/
theorem exists_tier {op : BinaryOp} (plain : op.isCompoundAssignment = false) (other : op ≠ .pow) :
    ∃ (level : Nat) (ops : List Token), tiers[level]? = some ops ∧
      .sign (JavaScript.operator op) ∈ ops := by
  cases op with
  | or => exact ⟨0, _, rfl, by decide⟩
  | and => exact ⟨1, _, rfl, by decide⟩
  | eq | ne => exact ⟨5, _, rfl, by decide⟩
  | lt | le | gt | ge => exact ⟨6, _, rfl, by decide⟩
  | add | sub => exact ⟨8, _, rfl, by decide⟩
  | mul | div | mod => exact ⟨9, _, rfl, by decide⟩
  | pow => exact absurd rfl other
  | addAssign | subAssign => cases plain

/-- A binary expression between its operands. -/
theorem derives_binary {op : BinaryOp} {ts us : List Token} {left right : Tree}
    (plain : op.isCompoundAssignment = false) (first : Derives .unary ts left)
    (base : op = .pow → Derives .update ts left) (second : Derives .unary us right) :
    Derives .assignment (ts ++ .sign (JavaScript.operator op) :: us)
      (.binary (.sign (JavaScript.operator op)) left right) := by
  by_cases power : op = .pow
  · subst power
    have derives := Derives.exponent (base rfl) second.exponent_of_unary
    exact Derives.assignment_of_tier (derives.tier_of_exponent (Nat.zero_le _))
  · obtain ⟨level, ops, known, mem⟩ := exists_tier plain power
    obtain ⟨inside, -⟩ := List.getElem?_eq_some_iff.mp known
    have derives := Derives.operator known mem
      (first.exponent_of_unary.tier_of_exponent (Nat.le_of_lt inside))
      (second.exponent_of_unary.tier_of_exponent inside)
    exact (derives.tier_of_tier (Nat.le_of_lt inside) (Nat.zero_le _)).assignment_of_tier

theorem mem_unaries {op : UnaryOp} (plain : op.isMutation = false) :
    Token.sign op.text ∈ unaries := by
  cases op with
  | neg | not => decide
  | _ => cases plain

theorem mem_updates {op : UnaryOp} (mutation : op.isMutation = true) :
    Token.sign op.text ∈ updates := by
  cases op with
  | increment | decrement => decide
  | _ => cases mutation

/-- A plain key is a single token. -/
theorem key_spec {pos : Position} {key value : Expr} {canonical : Option String}
    (plain : isPlainKey (Pair.mk pos key value canonical).key = true) :
    tokens key = [keyToken key] ∧ (keyToken key).isKey = true := by
  cases key with
  | ident note name entity => exact ⟨by rw [tokens, keyToken], rfl⟩
  | literal note constant =>
      refine ⟨by rw [tokens, keyToken], ?_⟩
      cases constant with
      | number number => cases number <;> rfl
      | _ => rfl
  | _ => cases plain

theorem forall_mem_value {pos : Position} {key value : Expr} {canonical : Option String}
    {property : Expr → Prop} (all : ∀ x ∈ Parts.pair (.mk pos key value canonical), property x) :
    ∀ x ∈ Parts.expr value, property x := by
  by_cases plain : Parts.isName key = true
  · rwa [Parts.pair, if_pos plain] at all
  · rw [Parts.pair, if_neg plain, List.forall_mem_append] at all
    exact all.2

namespace Placed

mutual

theorem expr : ∀ {e : Expr}, (∀ x ∈ Parts.expr e, Fit x) → Placed e
  | .literal note value, fit => by
      have here := fit _ (Parts.mem_self _)
      refine of_member ?_
      rw [tokens, tree]
      refine .memberPrimary (derives_literal ?_)
      rintro rfl
      exact here.regroups rfl
  | .ident note name entity, fit => by
      refine of_member ?_
      rw [tokens, tree]
      exact .memberPrimary (.name ((fit _ (Parts.mem_self _)).name rfl))
  | .call note callee args, fit => by
      simp only [Parts.expr, List.forall_mem_cons, List.forall_mem_append] at fit
      obtain ⟨here, ofCallee, ofArgs⟩ := fit
      have derives : Derives .call (tokens (.call note callee args))
          (tree (.call note callee args)) := by
        rw [tokens, tree]
        rcases (expr ofCallee).operand_access here.base here.regroups with isCall | isMember
        · exact .callCall isCall (items ofArgs)
        · exact .call isMember (items ofArgs)
      refine of_access (.inl derives) fun free => ?_
      have met := free _ (by rw [links]; exact List.mem_cons_self)
      cases met
  | .this note field, _ => by
      refine of_member ?_
      rw [tokens, tree]
      exact .memberField (.memberPrimary (.constant (by decide)))
  | .new note target args, fit => by
      simp only [Parts.expr, List.forall_mem_cons, List.forall_mem_append] at fit
      obtain ⟨here, ofTarget, ofArgs⟩ := fit
      refine of_member ?_
      rw [tokens, tree]
      exact .memberNew ((expr ofTarget).operand_member here.base here.regroups.1 here.regroups.2)
        (items ofArgs)
  | .typeOf note operand, fit => by
      simp only [Parts.expr, List.forall_mem_cons] at fit
      refine of_unary ?_ rfl fun base => by cases base
      rw [tokens, tree]
      exact .unary (by decide) (expr fit.2).operand_unary
  | .ternary note condition yes no, fit => by
      simp only [Parts.expr, List.forall_mem_cons, List.forall_mem_append] at fit
      obtain ⟨-, ofCondition, ofYes, ofNo⟩ := fit
      refine of_loose ?_ rfl
      rw [tokens, tree]
      refine .noAssignment (.conditional ?_ (expr ofYes).operand (expr ofNo).operand)
      exact (expr ofCondition).operand_unary.exponent_of_unary.tier_of_exponent (Nat.zero_le _)
  | .binary note op left right, fit => by
      simp only [Parts.expr, List.forall_mem_cons, List.forall_mem_append] at fit
      obtain ⟨here, ofLeft, ofRight⟩ := fit
      by_cases compound : op.isCompoundAssignment = true
      · refine of_loose ?_ compound
        have assignable := here.written compound
        simp only [tokens, tree, if_pos compound]
        refine .assign ((expr ofLeft).operand_left assignable) (isTarget_tree assignable) ?_
          (expr ofRight).operand
        cases op with
        | addAssign | subAssign => decide
        | _ => cases compound
      · refine of_member ?_
        simp only [tokens, tree, if_neg compound]
        refine (derives_binary (by simpa using compound) (expr ofLeft).operand_unary ?_
          (expr ofRight).operand_unary).wrapped
        rintro rfl
        exact (expr ofLeft).operand_update here.regroups
  | .unary note op .before operand, fit => by
      simp only [Parts.expr, List.forall_mem_cons] at fit
      obtain ⟨here, ofOperand⟩ := fit
      refine of_unary ?_ rfl fun _ => rfl
      have inside := (expr ofOperand).operand.wrapped.unary_of_member
      by_cases mutation : op.isMutation = true
      · simp only [tokens, tree, if_pos mutation]
        exact .noUnary (.updateBefore (mem_updates mutation) inside
          (isTarget_tree (here.written mutation)))
      · simp only [tokens, tree, if_neg mutation]
        exact .unary (mem_unaries (by simpa using mutation)) inside
  | .unary note op .behind operand, fit => by
      simp only [Parts.expr, List.forall_mem_cons] at fit
      obtain ⟨here, ofOperand⟩ := fit
      obtain ⟨mutation, assignable⟩ := here.written
      refine of_update ?_ rfl
      simp only [tokens, tree, if_pos mutation]
      exact .updateBehind ((expr ofOperand).operand_left assignable) (isTarget_tree assignable)
        (mem_updates mutation)
  | .array note elements, fit => by
      simp only [Parts.expr, List.forall_mem_cons] at fit
      refine of_member ?_
      rw [tokens, tree]
      exact .memberPrimary (.array (items fit.2))
  | .object note entries, fit => by
      simp only [Parts.expr, List.forall_mem_cons] at fit
      refine of_member ?_
      rw [tokens, tree]
      exact .memberPrimary (.object (fields fit.1.regroups fit.2))
  | .member note base index, fit => by
      simp only [Parts.expr, List.forall_mem_cons, List.forall_mem_append] at fit
      obtain ⟨here, ofBase, ofIndex⟩ := fit
      refine of_access ?_ fun free => ?_
      · rw [tokens, tree]
        exact ((expr ofBase).operand_access here.base here.regroups).imp
          (.callIndex · (.noComma (expr ofIndex).whole))
          (.memberIndex · (.noComma (expr ofIndex).whole))
      · rw [links, List.forall_mem_cons] at free
        rw [tokens, tree]
        exact .memberIndex ((expr ofBase).operand_member here.base here.regroups free.2)
          (.noComma (expr ofIndex).whole)
  | .property note base field, fit => by
      simp only [Parts.expr, List.forall_mem_cons] at fit
      obtain ⟨here, ofBase⟩ := fit
      refine of_access ?_ fun free => ?_
      · rw [tokens, tree]
        exact ((expr ofBase).operand_access here.base here.regroups).imp .callField .memberField
      · rw [links, List.forall_mem_cons] at free
        rw [tokens, tree]
        exact .memberField ((expr ofBase).operand_member here.base here.regroups free.2)

theorem items : ∀ {es : List Expr}, (∀ x ∈ Parts.exprs es, Fit x) →
    Derives .items (list es) (itemTree es)
  | [], _ => .noItem
  | [e], fit => by
      rw [Parts.exprs, List.forall_mem_append] at fit
      exact .lastItem (expr fit.1).whole
  | e :: e' :: others, fit => by
      rw [Parts.exprs, List.forall_mem_append] at fit
      have further := items fit.2
      rw [list, itemTree]
      · exact .nextItem (expr fit.1).whole further
      · simp

theorem fields : ∀ {entries : List Pair},
    (∀ entry ∈ entries, isPlainKey entry.key = true) → (∀ x ∈ Parts.pairs entries, Fit x) →
    Derives .entries (pairs entries) (entryTree entries)
  | [], _, _ => .noEntry
  | [.mk pos key value canonical], plain, fit => by
      rw [Parts.pairs, List.forall_mem_append] at fit
      rw [List.forall_mem_cons] at plain
      obtain ⟨same, known⟩ := key_spec plain.1
      rw [pairs, pair, entryTree, entryTree, same]
      exact .lastEntry known (expr (forall_mem_value fit.1)).whole
  | .mk pos key value canonical :: entry' :: others, plain, fit => by
      rw [Parts.pairs, List.forall_mem_append] at fit
      rw [List.forall_mem_cons] at plain
      obtain ⟨same, known⟩ := key_spec plain.1
      have further := fields plain.2 fit.2
      rw [pairs, pair, entryTree, same]
      · simpa using Derives.nextEntry known (expr (forall_mem_value fit.1)).whole further
      · simp

end

end Placed

/-! ## Renamed expressions -/

section

variable (names : Naming.Names)

theorem isBase_expr (e : Expr) : (names.expr e).isBase = e.isBase := by
  cases e <;> simp [Naming.Names.expr, Expr.isBase]

theorem isAssignable_expr (e : Expr) : (names.expr e).isAssignable = e.isAssignable := by
  cases e <;> simp [Naming.Names.expr, Expr.isAssignable]

theorem isUnary_expr (e : Expr) : isUnary (names.expr e) = isUnary e := by
  cases e <;> simp [Naming.Names.expr, isUnary]

theorem isCall_expr (e : Expr) : isCall (names.expr e) = isCall e := by
  cases e <;> simp [Naming.Names.expr, isCall]

theorem isPrefixed_expr (e : Expr) : isPrefixed (names.expr e) = isPrefixed e := by
  cases e with
  | unary note op side operand => cases side <;> simp [Naming.Names.expr, isPrefixed]
  | _ => simp [Naming.Names.expr, isPrefixed]

theorem links_expr : ∀ e : Expr, links (names.expr e) = (links e).map names.expr
  | .call note callee args => by simp [Naming.Names.expr, links, links_expr callee]
  | .new note target args => by simp [Naming.Names.expr, links, links_expr target]
  | .member note base index => by simp [Naming.Names.expr, links, links_expr base]
  | .property note base field => by simp [Naming.Names.expr, links, links_expr base]
  | .literal .. | .ident .. | .this .. | .typeOf .. | .ternary .. | .binary .. | .unary ..
  | .array .. | .object .. => by simp [Naming.Names.expr, links]

theorem isPlainKey_pair (entry : Pair) :
    isPlainKey (names.pair entry).key = isPlainKey entry.key := by
  obtain ⟨pos, key, value, canonical⟩ := entry
  cases plain : Parts.isName key with
  | true =>
      cases key with
      | ident => simp [Naming.Names.pair, Pair.key, isPlainKey]
      | _ => cases plain
  | false =>
      rw [Naming.Names.pair_of_not_isName names plain, Pair.key, Pair.key]
      cases key <;> simp [Naming.Names.expr, isPlainKey]

theorem entity?_pair {entry : Pair} (raw : entry.key.entity? = none) :
    (names.pair entry).key.entity? = none := by
  obtain ⟨pos, key, value, canonical⟩ := entry
  cases plain : Parts.isName key with
  | true =>
      cases key with
      | ident note name entity =>
          rw [Naming.Names.pair]
          exact raw
      | _ => cases plain
  | false =>
      rw [Naming.Names.pair_of_not_isName names plain, Pair.key]
      exact Bound.entity?_of_isName (by rw [names.isName_expr, plain])

theorem written_expr {e : Expr} (written : e.Written) : (names.expr e).Written := by
  cases e with
  | unary note op side operand =>
      cases side <;> simpa [Naming.Names.expr, Expr.Written, isAssignable_expr] using written
  | binary note op left right =>
      simpa [Naming.Names.expr, Expr.Written, isAssignable_expr] using written
  | object note entries =>
      intro entry mem
      rw [pairs_eq_map] at mem
      obtain ⟨original, listed, rfl⟩ := List.mem_map.mp mem
      exact entity?_pair names (written original listed)
  | _ => trivial

theorem regroups_expr {e : Expr} (regroups : Regroups e) : Regroups (names.expr e) := by
  cases e with
  | call note base args | member note base index | property note base field =>
      exact (isUnary_expr names base).trans regroups
  | new note target args =>
      refine ⟨(isUnary_expr names target).trans regroups.1, ?_⟩
      rw [links_expr]
      intro x mem
      obtain ⟨original, listed, rfl⟩ := List.mem_map.mp mem
      exact (isCall_expr names original).trans (regroups.2 original listed)
  | binary note op left right =>
      cases op with
      | pow => exact (isPrefixed_expr names left).trans regroups
      | _ => trivial
  | object note entries =>
      intro entry mem
      rw [pairs_eq_map] at mem
      obtain ⟨original, listed, rfl⟩ := List.mem_map.mp mem
      exact (isPlainKey_pair names original).trans (regroups original listed)
  | literal note value => exact regroups
  | _ => trivial

end

theorem keywords_subset : keywords ⊆ Naming.reserved := by decide

/-- With names given, no expression is a keyword. -/
theorem not_mem_keywords {names : Naming.Names} (proper : names.Proper) {e : Expr}
    (checked : e.Checked) {note : Note} {name : String} {entity : Option EntityId}
    (same : names.expr e = .ident note name entity) : name ∉ keywords := by
  cases e with
  | ident note' name' entity' =>
      cases entity' with
      | some id =>
          cases same
          exact fun mem => proper.free id (keywords_subset mem)
      | none => cases checked.2
  | _ => cases same

theorem fit_of_regroups {names : Naming.Names} (proper : names.Proper) {e : Expr}
    (checked : e.Checked) (regroups : Regroups (names.expr e)) : Fit (names.expr e) where
  written := written_expr names checked.1
  regroups := regroups
  base := by
    cases e with
    | call note base args | new note base args | member note base index
    | property note base field => exact (isBase_expr names base).trans checked.2
    | _ => trivial
  name := not_mem_keywords proper checked

theorem fit_expr {names : Naming.Names} (proper : names.Proper) {e : Expr} (checked : e.Checked)
    (regroups : Regroups e) : Fit (names.expr e) :=
  fit_of_regroups proper checked (regroups_expr names regroups)

/-! ## The reading of a text -/

/-- An expression whose parts all fit has one reading, its tree. -/
theorem reads_tree {e : Expr} (legible : ∀ x ∈ Parts.expr e, Legible x)
    (fit : ∀ x ∈ Parts.expr e, Fit x) :
    ∃ ts, lex (JavaScript.expr e) = some ts ∧ ∀ t, Derives .expression ts t ↔ t = tree e := by
  have derives : Derives .expression (tokens e) (tree e) := .noComma (Placed.expr fit).whole
  refine ⟨tokens e, (Read.expr legible).text.lex, fun t => ⟨fun other => other.unique derives, ?_⟩⟩
  rintro rfl
  exact derives

end Qalam.EcmaScript

namespace Qalam

open EcmaScript

/-- With names given, every expression of an accepted program is legible, and fits as soon as it
regroups. -/
theorem Program.parts_rename {source : List Token} {program : Program} {bound : BoundProgram}
    (parsed : Program.ofTokens source = .ok program) (binds : program.bind = .ok bound)
    {oracle : Naming.Oracle} {e : Expr} (part : e ∈ (bound.program.rename oracle).parts) :
    ∀ x ∈ Parts.expr e, Legible x ∧ (Regroups x → Fit x) := by
  intro x inside
  have mem := Parts.closed_statements _ e part inside
  obtain ⟨names, proper, same⟩ := bound.program.rename_eq_substitution oracle
  rw [same, names.parts_statements] at mem
  obtain ⟨original, listed, rfl⟩ := List.mem_map.mp mem
  have checked := Program.checked_of_bind parsed binds original listed
  exact ⟨legible_expr proper checked, fit_of_regroups proper checked⟩

/-- The text of an expression of an accepted program is a JavaScript expression and has one
reading, the tree of the expression with the names of the table in it. The text is written with
whatever names were given before, and may give new ones. -/
theorem Program.expression_regroups {source : List Token} {program : Program}
    {bound : BoundProgram} (parsed : Program.ofTokens source = .ok program)
    (binds : program.bind = .ok bound) {e : Expr} (part : e ∈ bound.program.parts)
    (regroups : ∀ x ∈ Parts.expr e, Regroups x) {oracle : Naming.Oracle}
    {table : Naming.Table oracle} (reached : table.Reached) :
    ∃ names : Naming.Names, names.Agrees ((Naming.Rename.expr e).run table).2 ∧
      ((Naming.Rename.expr e).run table).1 = names.expr e ∧
      ∃ ts, lex (JavaScript.expr ((Naming.Rename.expr e).run table).1) = some ts ∧
        ∀ t, Derives .expression ts t ↔ t = tree (names.expr e) := by
  obtain ⟨sound, determined⟩ := Naming.Gives.expr e table reached.sound
  have agrees := Naming.Table.agrees_names ((Naming.Rename.expr e).run table).2
  obtain ⟨-, same⟩ := determined _ agrees
  have proper := sound.proper_names
  refine ⟨_, agrees, same, ?_⟩
  rw [same]
  generalize ((Naming.Rename.expr e).run table).2.names = names at proper
  have checked : ∀ x ∈ Parts.expr e, x.Checked := by
    intro x inside
    exact Program.checked_of_bind parsed binds x (Parts.closed_statements _ e part inside)
  have legible : ∀ x ∈ Parts.expr (names.expr e), Legible x := by
    rw [names.parts_expr]
    intro x mem
    obtain ⟨original, inside, rfl⟩ := List.mem_map.mp mem
    exact legible_expr proper (checked original inside)
  have fit : ∀ x ∈ Parts.expr (names.expr e), Fit x := by
    rw [names.parts_expr]
    intro x mem
    obtain ⟨original, inside, rfl⟩ := List.mem_map.mp mem
    exact fit_expr proper (checked original inside) (regroups original inside)
  exact reads_tree legible fit

/-- The tokens of `let x = 1; (true ? x : 2) + x;`. -/
def groupedTokens : List Token :=
  [⟨.keyword .letKw, ⟨1, 1⟩⟩, ⟨.ident "x", ⟨1, 2⟩⟩, ⟨.symbol .eq, ⟨1, 3⟩⟩, ⟨.int 1, ⟨1, 4⟩⟩,
    ⟨.symbol .semi, ⟨1, 5⟩⟩, ⟨.symbol .lparen, ⟨2, 1⟩⟩, ⟨.keyword .trueKw, ⟨2, 2⟩⟩,
    ⟨.symbol .question, ⟨2, 3⟩⟩, ⟨.ident "x", ⟨2, 4⟩⟩, ⟨.symbol .colon, ⟨2, 5⟩⟩, ⟨.int 2, ⟨2, 6⟩⟩,
    ⟨.symbol .rparen, ⟨2, 7⟩⟩, ⟨.symbol .plus, ⟨2, 8⟩⟩, ⟨.ident "x", ⟨2, 9⟩⟩,
    ⟨.symbol .semi, ⟨2, 10⟩⟩, ⟨.eof, ⟨2, 11⟩⟩]

/-- The sum in it, before and after binding. -/
def groupedSum (tag : Tag → Option Tag) (entity : Option EntityId) : Expr :=
  .binary ⟨⟨2, 2⟩, tag .number⟩ .add
    (.ternary ⟨⟨2, 2⟩, tag .number⟩ (.literal ⟨⟨2, 2⟩, tag .boolean⟩ (.bool true))
      (.ident ⟨⟨2, 4⟩, tag .int⟩ "x" entity) (.literal ⟨⟨2, 6⟩, tag .int⟩ (.int 2)))
    (.ident ⟨⟨2, 9⟩, tag .int⟩ "x" entity)

/-- The program, before and after binding. -/
def groupedProgram (tag : Tag → Option Tag) (entity : Option EntityId) : Program :=
  ⟨[.declare ⟨1, 1⟩ false ⟨"x", ⟨1, 2⟩, entity⟩
      (some (.literal ⟨⟨1, 4⟩, tag .int⟩ (.int 1))),
    .expr ⟨2, 1⟩ (groupedSum tag entity)]⟩

theorem Program.expression_regroups_sum :
    ∃ names : Naming.Names,
      names.Agrees ((Naming.Rename.expr (groupedSum some (some ⟨0⟩))).run (.empty .silent)).2 ∧
      ((Naming.Rename.expr (groupedSum some (some ⟨0⟩))).run (.empty .silent)).1 =
        names.expr (groupedSum some (some ⟨0⟩)) ∧
      ∃ ts, lex (JavaScript.expr
          ((Naming.Rename.expr (groupedSum some (some ⟨0⟩))).run (.empty .silent)).1) = some ts ∧
        ∀ t, Derives .expression ts t ↔ t = tree (names.expr (groupedSum some (some ⟨0⟩))) := by
  have parsed : Program.ofTokens groupedTokens = .ok (groupedProgram (fun _ => none) none) := by
    rfl
  have binds : (groupedProgram (fun _ => none) none).bind =
      .ok ⟨groupedProgram some (some ⟨0⟩), ⟨#[.variable "x" false .int]⟩⟩ := by
    rfl
  refine Program.expression_regroups parsed binds ?_ ?_ .empty
  · simp [Program.parts, groupedProgram, Parts.statements, Parts.statement, Parts.mem_self]
  · simp [groupedSum, Parts.expr, Regroups]

end Qalam
