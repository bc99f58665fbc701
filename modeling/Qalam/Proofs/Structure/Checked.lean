/-
# What analysis promises about expressions

Analysis keeps the shape of every expression, so what the grammar promises still holds of a bound
tree. In addition every name has an entity, and nothing is called, accessed or made an object of
whose tag rules that out: constants and the results of `typeof` never stand before a suffix.
-/

import Qalam.Analysis.Statement
import Qalam.Proofs.Structure.Written

namespace Qalam

/-- Tags of constants and of the names of types. -/
def Tag.isScalar : Tag → Bool
  | boolean | int | number | string | none => true
  | _ => false

namespace Expr

/-- Whether an expression is of a kind to which a suffix can apply. -/
def isBase : Expr → Bool
  | literal .. | typeOf .. => false
  | _ => true

/-- What analysis promises about an expression and its operands. -/
def Checked (e : Expr) : Prop :=
  e.Written ∧ match e with
    | ident _ _ entity => entity.isSome = true
    | call _ base _ | new _ base _ | member _ base _ | property _ base _ => base.isBase = true
    | _ => True

end Expr

/-- What a bound expression has in common with the expression it was made from. -/
structure Bound (e bound : Expr) : Prop where
  checked : ∀ x ∈ Parts.expr bound, x.Checked
  assignable : bound.isAssignable = e.isAssignable
  name : Parts.isName bound = Parts.isName e
  tag : bound.isBase = false → bound.tag.isScalar = true

namespace Analysis

/-- Whenever an action succeeds, its result has a property. -/
def Yields {α : Type} (action : Analysis α) (result : α → Prop) : Prop :=
  ∀ context value final, action context = .ok (value, final) → result value

namespace Yields

variable {α β : Type}

theorem pure {value : α} {result : α → Prop} (holds : result value) :
    Yields (Pure.pure value) result := by
  intro context found final runs
  cases runs
  exact holds

theorem bind {action : Analysis α} {next : α → Analysis β} {middle : α → Prop}
    {result : β → Prop} (here : Yields action middle)
    (there : ∀ value, middle value → Yields (next value) result) :
    Yields (action >>= next) result := by
  intro context found final runs
  change Except.bind (action context) (fun reached => next reached.1 reached.2) = _ at runs
  cases reached : action context with
  | error error =>
      rw [reached] at runs
      cases runs
  | ok pair =>
      rw [reached] at runs
      exact there pair.1 (here context pair.1 pair.2 reached) pair.2 found final runs

/-- An action of which only the result is changed. -/
theorem map {action : Analysis α} {change : α → β} {middle : α → Prop} {result : β → Prop}
    (here : Yields action middle) (fits : ∀ value, middle value → result (change value)) :
    Yields (action >>= fun value => Pure.pure (change value)) result :=
  here.bind fun value holds => Yields.pure (fits value holds)

/-- An action about whose result nothing is said. -/
theorem after (action : Analysis α) {next : α → Analysis β} {result : β → Prop}
    (there : ∀ value, Yields (next value) result) : Yields (action >>= next) result :=
  @bind _ _ action next (fun _ => True) result (fun _ _ _ _ => trivial) fun value _ => there value

/-- An action whose result is a part that is present. -/
theorem present {action : Analysis α} {middle : α → Prop} (here : Yields action middle) :
    Yields (some <$> action) fun found => ∃ value, found = some value ∧ middle value :=
  here.map fun value holds => ⟨value, rfl, holds⟩

theorem require (requirement : Requirement) (e : Expr) :
    Yields (Analysis.require requirement e) fun _ => requirement.accepts e.tag = true := by
  intro context value final runs
  by_cases fine : requirement.accepts e.tag = true
  · exact fine
  · rw [Analysis.require, if_pos (by simpa using fine)] at runs
    cases runs

theorem requireCallable (e : Expr) :
    Yields (Analysis.requireCallable e) fun _ => e.tag.isCallable = true := by
  intro context value final runs
  by_cases fine : e.tag.isCallable = true
  · exact fine
  · rw [Analysis.requireCallable, if_pos (by simpa using fine)] at runs
    cases runs

theorem requireClassReference (e : Expr) :
    Yields (Analysis.requireClassReference e) fun _ => e.tag.isClassReference = true := by
  intro context value final runs
  by_cases fine : e.tag.isClassReference = true
  · exact fine
  · rw [Analysis.requireClassReference, if_pos (by simpa using fine)] at runs
    cases runs

end Yields

end Analysis

namespace Bound

open Analysis (Yields)

/-- Behind an expression whose tag is not that of a constant a suffix can stand. -/
theorem isBase {e bound : Expr} (holds : Bound e bound) {accepts : Tag → Bool}
    (fine : accepts bound.tag = true)
    (excludes : ∀ tag : Tag, tag.isScalar = true → accepts tag = false) : bound.isBase = true := by
  cases base : bound.isBase with
  | true => rfl
  | false =>
      rw [excludes _ (holds.tag base)] at fine
      cases fine

/-- A bound expression other than a constant or a `typeof`. -/
theorem of_base {e bound : Expr} {inside : List Expr} (parts : Parts.expr bound = bound :: inside)
    (here : bound.Checked) (there : ∀ x ∈ inside, x.Checked)
    (assignable : bound.isAssignable = e.isAssignable)
    (name : Parts.isName bound = Parts.isName e) (base : bound.isBase = true) : Bound e bound := by
  refine ⟨?_, assignable, name, fun other => absurd base (by simp [other])⟩
  rw [parts, List.forall_mem_cons]
  exact ⟨here, there⟩

/-- The entity of a key is that of a plain name. -/
theorem entity?_of_isName {e : Expr} (other : Parts.isName e = false) : e.entity? = none := by
  cases e with
  | ident => cases other
  | _ => rfl

theorem writes {note note' : Note} {op : UnaryOp} {side : Fixity} {operand bound : Expr}
    (written : (Expr.unary note op side operand).Written) (holds : Bound operand bound) :
    (Expr.unary note' op side bound).Checked := by
  refine ⟨?_, trivial⟩
  cases side with
  | before =>
      intro mutation
      rw [holds.assignable]
      exact written mutation
  | behind =>
      refine ⟨written.1, ?_⟩
      rw [holds.assignable]
      exact written.2

mutual

theorem expr : ∀ {e : Expr}, (∀ x ∈ Parts.expr e, x.Written) →
    Yields (Analysis.expr e) (Bound e)
  | .literal note value, _ => by
      rw [Analysis.expr]
      refine Yields.pure ⟨?_, rfl, rfl, fun _ => ?_⟩
      · simp [Parts.expr, Expr.Checked, Expr.Written]
      · cases value <;> rfl
  | .ident note name entity, _ => by
      rw [Analysis.expr]
      refine Yields.after _ fun found => Yields.pure ?_
      exact of_base rfl ⟨trivial, rfl⟩ (by simp) rfl rfl rfl
  | .call note callee args, written => by
      simp only [Parts.expr, List.forall_mem_cons, List.forall_mem_append] at written
      rw [Analysis.expr]
      refine (expr written.2.1).bind fun bound holds => ?_
      refine (Yields.requireCallable bound).bind fun _ callable => ?_
      refine (exprs written.2.2).map fun others inside => ?_
      have base := holds.isBase callable fun tag => by cases tag <;> simp [Tag.isScalar, Tag.isCallable]
      exact of_base rfl ⟨trivial, base⟩ (List.forall_mem_append.mpr ⟨holds.checked, inside⟩)
        rfl rfl rfl
  | .this note name, _ => by
      rw [Analysis.expr]
      refine Yields.after _ fun _ => Yields.pure ?_
      exact of_base rfl ⟨trivial, trivial⟩ (by simp) rfl rfl rfl
  | .new note target args, written => by
      simp only [Parts.expr, List.forall_mem_cons, List.forall_mem_append] at written
      rw [Analysis.expr]
      refine (expr written.2.1).bind fun bound holds => ?_
      refine (Yields.requireClassReference bound).bind fun _ class_ => ?_
      refine (exprs written.2.2).map fun others inside => ?_
      have base := holds.isBase class_ fun tag => by
        cases tag <;> simp [Tag.isScalar, Tag.isClassReference]
      exact of_base rfl ⟨trivial, base⟩ (List.forall_mem_append.mpr ⟨holds.checked, inside⟩)
        rfl rfl rfl
  | .typeOf note operand, written => by
      simp only [Parts.expr, List.forall_mem_cons] at written
      rw [Analysis.expr]
      refine (expr written.2).map fun bound holds => ⟨?_, rfl, rfl, fun _ => rfl⟩
      rw [Parts.expr, List.forall_mem_cons]
      exact ⟨⟨trivial, trivial⟩, holds.checked⟩
  | .ternary note condition yes no, written => by
      simp only [Parts.expr, List.forall_mem_cons, List.forall_mem_append] at written
      rw [Analysis.expr]
      refine (expr written.2.1).bind fun test first => Yields.after _ fun _ => ?_
      refine (expr written.2.2.1).bind fun left second => ?_
      refine (expr written.2.2.2).map fun right third => ?_
      refine of_base rfl ⟨trivial, trivial⟩ ?_ rfl rfl rfl
      simp only [List.forall_mem_append]
      exact ⟨first.checked, second.checked, third.checked⟩
  | .binary note op left right, written => by
      simp only [Parts.expr, List.forall_mem_cons, List.forall_mem_append] at written
      rw [Analysis.expr]
      refine (expr written.2.1).bind fun boundLeft first => ?_
      refine (expr written.2.2).bind fun boundRight second => Yields.after _ fun tag => ?_
      refine Yields.pure (of_base rfl ⟨fun compound => ?_, trivial⟩ ?_ rfl rfl rfl)
      · rw [first.assignable]
        exact written.1 compound
      · exact List.forall_mem_append.mpr ⟨first.checked, second.checked⟩
  | .unary note op side operand, written => by
      simp only [Parts.expr, List.forall_mem_cons] at written
      rw [Analysis.expr]
      refine (expr written.2).bind fun bound holds => Yields.after _ fun tag => ?_
      exact Yields.pure (of_base rfl (writes written.1 holds) holds.checked rfl rfl rfl)
  | .array note elements, written => by
      simp only [Parts.expr, List.forall_mem_cons] at written
      rw [Analysis.expr]
      refine (exprs written.2).map fun others inside => ?_
      exact of_base rfl ⟨trivial, trivial⟩ inside rfl rfl rfl
  | .object note entries, written => by
      simp only [Parts.expr, List.forall_mem_cons] at written
      rw [Analysis.expr]
      refine (pairs [] written.1 written.2).map fun bound holds => ?_
      exact of_base rfl ⟨holds.2, trivial⟩ holds.1 rfl rfl rfl
  | .member note base index, written => by
      simp only [Parts.expr, List.forall_mem_cons, List.forall_mem_append] at written
      rw [Analysis.expr]
      refine (expr written.2.1).bind fun boundBase first => ?_
      refine (Yields.require .arrayOrObject boundBase).bind fun _ fine => ?_
      refine (expr written.2.2).bind fun boundIndex second => ?_
      have isBase := first.isBase fine fun tag => by
        cases tag <;> simp [Tag.isScalar, Requirement.accepts, Tag.isArrayOrObject]
      have whole := @of_base (.member note base index)
        (.member { note with tag := some .any } boundBase boundIndex) _ rfl ⟨trivial, isBase⟩
        (List.forall_mem_append.mpr ⟨first.checked, second.checked⟩) rfl rfl rfl
      dsimp only
      split
      · exact Yields.after _ fun _ => Yields.pure whole
      · exact Yields.pure whole
  | .property note base name, written => by
      simp only [Parts.expr, List.forall_mem_cons] at written
      rw [Analysis.expr]
      refine (expr written.2).bind fun bound holds => ?_
      refine (Yields.require .object bound).bind fun _ fine => Yields.pure ?_
      have base := holds.isBase fine fun tag => by
        cases tag <;> simp [Tag.isScalar, Requirement.accepts, Tag.isObject]
      exact of_base rfl ⟨trivial, base⟩ holds.checked rfl rfl rfl

theorem exprs : ∀ {es : List Expr}, (∀ x ∈ Parts.exprs es, x.Written) →
    Yields (Analysis.exprs es) fun bound => ∀ x ∈ Parts.exprs bound, x.Checked
  | [], _ => Yields.pure (by simp [Parts.exprs])
  | e :: others, written => by
      simp only [Parts.exprs, List.forall_mem_append] at written
      rw [Analysis.exprs]
      refine (expr written.1).bind fun first holds => ?_
      refine (exprs written.2).map fun rest inside => ?_
      rw [Parts.exprs, List.forall_mem_append]
      exact ⟨holds.checked, inside⟩

theorem pair : ∀ {entry : Pair}, entry.key.entity? = none →
    (∀ x ∈ Parts.pair entry, x.Written) →
    Yields (Analysis.pair entry) fun bound =>
      (∀ x ∈ Parts.pair bound, x.Checked) ∧ bound.key.entity? = none
  | .mk pos key value canonical, raw, written => by
      by_cases plain : Parts.isName key = true
      · rw [Parts.pair, if_pos plain] at written
        cases key with
        | ident note name entity =>
            rw [Analysis.pair, pure_bind]
            refine (expr written).map fun bound holds => ⟨?_, raw⟩
            rw [Parts.pair, Parts.isName, if_pos rfl]
            exact holds.checked
        | _ => cases plain
      · rw [Parts.pair, if_neg plain, List.forall_mem_append] at written
        rw [Analysis.pair]
        · refine (expr written.1).bind fun boundKey first => ?_
          refine (expr written.2).map fun boundValue second => ?_
          have other : Parts.isName boundKey = false := by
            rw [first.name]
            simpa using plain
          refine ⟨?_, entity?_of_isName other⟩
          rw [Parts.pair, if_neg (by simp [other]), List.forall_mem_append]
          exact ⟨first.checked, second.checked⟩
        · rintro note name entity rfl
          exact plain rfl

theorem pairs : ∀ (seen : List String) {entries : List Pair},
    (∀ entry ∈ entries, entry.key.entity? = none) → (∀ x ∈ Parts.pairs entries, x.Written) →
    Yields (Analysis.pairs seen entries) fun bound =>
      (∀ x ∈ Parts.pairs bound, x.Checked) ∧ ∀ entry ∈ bound, entry.key.entity? = none
  | seen, [], _, _ => Yields.pure (by simp [Parts.pairs])
  | seen, entry :: others, raw, written => by
      rw [List.forall_mem_cons] at raw
      simp only [Parts.pairs, List.forall_mem_append] at written
      rw [Analysis.pairs]
      refine (pair raw.1 written.1).bind fun first here => Yields.after _ fun longer => ?_
      refine (pairs longer raw.2 written.2).map fun rest there => ?_
      rw [Parts.pairs, List.forall_mem_append, List.forall_mem_cons]
      exact ⟨⟨here.1, there.1⟩, here.2, there.2⟩

end

/-! ## Statements -/

/-- The tag of a target is of no importance for what is inside it. -/
theorem checked_withTag {e : Expr} (checked : ∀ x ∈ Parts.expr e, x.Checked) (tag : Tag) :
    ∀ x ∈ Parts.expr (e.withTag tag), x.Checked := by
  cases e with
  | literal | this =>
      rw [Expr.withTag, Parts.expr, List.forall_mem_singleton]
      exact ⟨trivial, trivial⟩
  | unary note op side operand =>
      rw [Parts.expr, List.forall_mem_cons] at checked
      rw [Expr.withTag, Parts.expr, List.forall_mem_cons]
      cases side <;> exact checked
  | _ =>
      rw [Parts.expr, List.forall_mem_cons] at checked
      rw [Expr.withTag, Parts.expr, List.forall_mem_cons]
      exact checked

theorem optional : ∀ {value : Option Expr}, (∀ x ∈ Parts.optional value, x.Written) →
    Yields (Analysis.optional value) fun bound => ∀ x ∈ Parts.optional bound.1, x.Checked
  | some e, written => (expr written).map fun _ holds => holds.checked
  | none, _ => Yields.pure (by simp [Parts.optional])

theorem declarator (constant : Bool) (name : Binding) {init : Option Expr}
    (written : ∀ x ∈ Parts.optional init, x.Written) :
    Yields (Analysis.declarator constant name init)
      fun bound => ∀ x ∈ Parts.optional bound.2, x.Checked :=
  (optional written).bind fun _ holds => Yields.after _ fun _ => Yields.pure holds

theorem declarators (constant : Bool) : ∀ {entries : List (Binding × Option Expr)},
    (∀ x ∈ entries.flatMap fun entry => Parts.optional entry.2, x.Written) →
    Yields (Analysis.declarators constant entries) fun bound =>
      ∀ x ∈ bound.flatMap fun entry => Parts.optional entry.2, x.Checked
  | [], _ => Yields.pure (by simp)
  | (name, init) :: others, written => by
      rw [List.flatMap_cons, List.forall_mem_append] at written
      rw [Analysis.declarators]
      refine (declarator constant name written.1).bind fun first here => ?_
      refine (declarators constant written.2).map fun rest there => ?_
      rw [List.flatMap_cons, List.forall_mem_append]
      exact ⟨here, there⟩

mutual

theorem statement : ∀ {s : Statement}, (∀ x ∈ Parts.statement s, x.Written) →
    Yields (Analysis.statement s) fun bound => ∀ x ∈ Parts.statement bound, x.Checked
  | .declare pos constant name init, written => by
      rw [Analysis.statement]
      exact (declarator constant name written).map fun _ holds => holds
  | .declareAll pos constant entries, written => by
      rw [Analysis.statement]
      exact (declarators constant written).map fun _ holds => holds
  | .assign pos target value, written => by
      rw [Parts.statement, List.forall_mem_append] at written
      rw [Analysis.statement]
      refine (expr written.1).bind fun boundTarget here => ?_
      refine (expr written.2).bind fun boundValue there => ?_
      refine Yields.after _ fun _ => Yields.after _ fun _ => Yields.pure ?_
      rw [Parts.statement, List.forall_mem_append]
      exact ⟨checked_withTag here.checked _, there.checked⟩
  | .tryCatch pos body name handler, written => by
      rw [Parts.statement, List.forall_mem_append] at written
      rw [Analysis.statement]
      refine (blockIn id written.1).bind fun boundBody here => ?_
      refine Yields.after _ fun _ => Yields.after _ fun boundName => ?_
      refine (blockHere written.2).bind fun boundHandler there => ?_
      refine Yields.after _ fun _ => Yields.pure ?_
      rw [Parts.statement, List.forall_mem_append]
      exact ⟨here, there⟩
  | .classDef pos name (some initialiser) bodyPos methods, written => by
      rw [Parts.statement, List.forall_mem_append] at written
      rw [Analysis.statement]
      refine Yields.after _ fun declared => Yields.after _ fun _ => ?_
      refine (constructor written.1).present.bind ?_
      rintro _ ⟨boundInitialiser, rfl, here⟩
      refine (functions written.2).bind fun boundMethods there => ?_
      refine Yields.after _ fun _ => Yields.pure ?_
      rw [Parts.statement, List.forall_mem_append]
      exact ⟨here, there⟩
  | .classDef pos name none bodyPos methods, written => by
      rw [Analysis.statement]
      refine Yields.after _ fun declared => Yields.after _ fun _ => ?_
      dsimp only
      rw [pure_bind]
      refine (functions written).bind fun boundMethods there => ?_
      exact Yields.after _ fun _ => Yields.pure there
  | .function declared, written => by
      rw [Analysis.statement]
      exact (function written).map fun _ holds => holds
  | .ifElse pos alternatives (some otherwise), written => by
      rw [Parts.statement, List.forall_mem_append] at written
      rw [Analysis.statement]
      refine (ifArms written.1).bind fun bound here => ?_
      refine (blockIn id written.2).present.bind ?_
      rintro _ ⟨boundOtherwise, rfl, there⟩
      refine Yields.pure ?_
      rw [Parts.statement, List.forall_mem_append]
      exact ⟨here, there⟩
  | .ifElse pos alternatives none, written => by
      rw [Analysis.statement]
      refine (ifArms written).bind fun bound here => ?_
      dsimp only
      rw [pure_bind]
      exact Yields.pure here
  | .whileLoop pos condition body, written => by
      rw [Parts.statement, List.forall_mem_append] at written
      rw [Analysis.statement]
      refine (expr written.1).bind fun test here => Yields.after _ fun _ => ?_
      refine (blockIn _ written.2).map fun inner there => ?_
      rw [Parts.statement, List.forall_mem_append]
      exact ⟨here.checked, there⟩
  | .forLoop pos name init condition step body, written => by
      simp only [Parts.statement, List.forall_mem_append] at written
      rw [Analysis.statement]
      refine Yields.after _ fun _ => ?_
      refine (expr written.1).bind fun boundInit first => Yields.after _ fun boundName => ?_
      refine (expr written.2.1).bind fun test second => Yields.after _ fun _ => ?_
      refine (expr written.2.2.1).bind fun boundStep third => ?_
      refine (blockIn id written.2.2.2).bind fun boundBody inner => ?_
      refine Yields.after _ fun _ => Yields.pure ?_
      simp only [Parts.statement, List.forall_mem_append]
      exact ⟨first.checked, second.checked, third.checked, inner⟩
  | .forOf pos name iterable body, written => by
      rw [Parts.statement, List.forall_mem_append] at written
      rw [Analysis.statement]
      refine (expr written.1).bind fun boundIterable here => ?_
      refine Yields.after _ fun _ => Yields.after _ fun _ => Yields.after _ fun boundName => ?_
      refine (blockHere written.2).bind fun boundBody there => ?_
      refine Yields.after _ fun _ => Yields.pure ?_
      rw [Parts.statement, List.forall_mem_append]
      exact ⟨here.checked, there⟩
  | .switch pos selector alternatives (some otherwise), written => by
      simp only [Parts.statement, List.forall_mem_append] at written
      rw [Analysis.statement]
      refine (expr written.1).bind fun boundSelector first => ?_
      refine (switchArms written.2.1).bind fun bound here => ?_
      refine (blockIn _ written.2.2).present.bind ?_
      rintro _ ⟨boundOtherwise, rfl, there⟩
      refine Yields.pure ?_
      simp only [Parts.statement, List.forall_mem_append]
      exact ⟨first.checked, here, there⟩
  | .switch pos selector alternatives none, written => by
      rw [Parts.statement, List.forall_mem_append] at written
      rw [Analysis.statement]
      refine (expr written.1).bind fun boundSelector first => ?_
      refine (switchArms written.2).bind fun bound here => ?_
      dsimp only
      rw [pure_bind]
      refine Yields.pure ?_
      rw [Parts.statement, List.forall_mem_append]
      exact ⟨first.checked, here⟩
  | .returns pos (some value), written => by
      rw [Analysis.statement]
      refine Yields.after _ fun _ => ?_
      exact (expr written).map fun bound here => here.checked
  | .returns pos none, _ => by
      rw [Analysis.statement]
      exact Yields.after _ fun _ => Yields.pure (by simp [Parts.statement, Parts.optional])
  | .print pos argument, written => by
      rw [Analysis.statement]
      exact (expr written).map fun bound here => here.checked
  | .breakLoop pos, _ => by
      rw [Analysis.statement]
      exact Yields.after _ fun _ => Yields.pure (by simp [Parts.statement])
  | .continueLoop pos, _ => by
      rw [Analysis.statement]
      exact Yields.after _ fun _ => Yields.pure (by simp [Parts.statement])
  | .expr pos e, written => by
      rw [Analysis.statement]
      exact (expr written).map fun bound here => here.checked

theorem statements : ∀ {body : List Statement}, (∀ x ∈ Parts.statements body, x.Written) →
    Yields (Analysis.statements body) fun bound => ∀ x ∈ Parts.statements bound, x.Checked
  | [], _ => Yields.pure (by simp [Parts.statements])
  | first :: others, written => by
      rw [Parts.statements, List.forall_mem_append] at written
      rw [Analysis.statements]
      refine (statement written.1).bind fun boundFirst here => ?_
      refine (statements written.2).map fun rest there => ?_
      rw [Parts.statements, List.forall_mem_append]
      exact ⟨here, there⟩

theorem blockHere : ∀ {body : Block}, (∀ x ∈ Parts.block body, x.Written) →
    Yields (Analysis.blockHere body) fun bound => ∀ x ∈ Parts.block bound, x.Checked
  | .mk pos body, written => by
      rw [Analysis.blockHere]
      exact (statements written).map fun _ holds => holds

theorem blockIn (adjust : Surroundings → Surroundings) : ∀ {body : Block},
    (∀ x ∈ Parts.block body, x.Written) →
    Yields (Analysis.blockIn adjust body) fun bound => ∀ x ∈ Parts.block bound, x.Checked
  | .mk pos body, written => by
      rw [Analysis.blockIn]
      refine Yields.after _ fun _ => (statements written).bind fun bound holds => ?_
      exact Yields.after _ fun _ => Yields.pure holds

theorem function : ∀ {declared : Function}, (∀ x ∈ Parts.function declared, x.Written) →
    Yields (Analysis.function declared) fun bound => ∀ x ∈ Parts.function bound, x.Checked
  | .mk pos name params body, written => by
      rw [Analysis.function]
      refine Yields.after _ fun id => Yields.after _ fun _ => Yields.after _ fun boundParams => ?_
      refine (blockHere written).bind fun bound holds => ?_
      exact Yields.after _ fun _ => Yields.pure holds

theorem functions : ∀ {members : List Function}, (∀ x ∈ Parts.functions members, x.Written) →
    Yields (Analysis.functions members) fun bound => ∀ x ∈ Parts.functions bound, x.Checked
  | [], _ => Yields.pure (by simp [Parts.functions])
  | first :: others, written => by
      rw [Parts.functions, List.forall_mem_append] at written
      rw [Analysis.functions]
      refine (function written.1).bind fun boundFirst here => ?_
      refine (functions written.2).map fun rest there => ?_
      rw [Parts.functions, List.forall_mem_append]
      exact ⟨here, there⟩

theorem constructor : ∀ {initialiser : Constructor},
    (∀ x ∈ Parts.constructor initialiser, x.Written) →
    Yields (Analysis.constructor initialiser) fun bound =>
      ∀ x ∈ Parts.constructor bound, x.Checked
  | .mk pos params body, written => by
      rw [Analysis.constructor]
      refine Yields.after _ fun _ => Yields.after _ fun boundParams => ?_
      refine (blockHere written).bind fun bound holds => ?_
      exact Yields.after _ fun _ => Yields.pure holds

theorem ifArms : ∀ {alternatives : List Arm}, (∀ x ∈ Parts.arms alternatives, x.Written) →
    Yields (Analysis.ifArms alternatives) fun bound => ∀ x ∈ Parts.arms bound, x.Checked
  | [], _ => Yields.pure (by simp [Parts.arms])
  | first :: others, written => by
      rw [Parts.arms, List.forall_mem_append] at written
      rw [Analysis.ifArms]
      refine (ifArm written.1).bind fun boundFirst here => ?_
      refine (ifArms written.2).map fun rest there => ?_
      rw [Parts.arms, List.forall_mem_append]
      exact ⟨here, there⟩

theorem ifArm : ∀ {alternative : Arm}, (∀ x ∈ Parts.arm alternative, x.Written) →
    Yields (Analysis.ifArm alternative) fun bound => ∀ x ∈ Parts.arm bound, x.Checked
  | .mk pos condition body, written => by
      rw [Parts.arm, List.forall_mem_append] at written
      rw [Analysis.ifArm]
      refine (expr written.1).bind fun test here => Yields.after _ fun _ => ?_
      refine (blockIn id written.2).map fun inner there => ?_
      rw [Parts.arm, List.forall_mem_append]
      exact ⟨here.checked, there⟩

theorem switchArms : ∀ {alternatives : List Arm}, (∀ x ∈ Parts.arms alternatives, x.Written) →
    Yields (Analysis.switchArms alternatives) fun bound => ∀ x ∈ Parts.arms bound, x.Checked
  | [], _ => Yields.pure (by simp [Parts.arms])
  | first :: others, written => by
      rw [Parts.arms, List.forall_mem_append] at written
      rw [Analysis.switchArms]
      refine (switchArm written.1).bind fun boundFirst here => ?_
      refine (switchArms written.2).map fun rest there => ?_
      rw [Parts.arms, List.forall_mem_append]
      exact ⟨here, there⟩

theorem switchArm : ∀ {alternative : Arm}, (∀ x ∈ Parts.arm alternative, x.Written) →
    Yields (Analysis.switchArm alternative) fun bound => ∀ x ∈ Parts.arm bound, x.Checked
  | .mk pos test body, written => by
      rw [Parts.arm, List.forall_mem_append] at written
      rw [Analysis.switchArm]
      refine (expr written.1).bind fun bound here => ?_
      refine (blockIn _ written.2).map fun inner there => ?_
      rw [Parts.arm, List.forall_mem_append]
      exact ⟨here.checked, there⟩

end

end Bound

/-- A bound program is what analysis of its statements leaves. -/
theorem Program.run_of_bind {program : Program} {bound : BoundProgram}
    (binds : program.bind = .ok bound) :
    ∃ context, Analysis.statements program.statements .initial =
      .ok (bound.program.statements, context) := by
  unfold Program.bind at binds
  cases runs : (Analysis.statements program.statements).run .initial with
  | error error =>
      rw [runs] at binds
      cases binds
  | ok result =>
      rw [runs] at binds
      cases binds
      exact ⟨result.2, runs⟩

/-- Every expression of a program that was read and bound is checked. -/
theorem Program.checked_of_bind {tokens : List Token} {program : Program} {bound : BoundProgram}
    (read : Program.ofTokens tokens = .ok program) (binds : program.bind = .ok bound) :
    ∀ x ∈ bound.program.parts, x.Checked := by
  obtain ⟨context, runs⟩ := Program.run_of_bind binds
  exact Bound.statements (Program.written_of_ofTokens read) _ _ _ runs

end Qalam
