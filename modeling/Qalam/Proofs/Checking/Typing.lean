/-
# A bound tree is well typed at every expression

Tags are filled in while the tags of variables keep changing, and an assignment overwrites the tag
of its target. All the same the tags of a bound tree fit together: every expression has the tag
that the rules give from the tags of its operands, and every operand keeps the contract of its
place. A program that is refused because of a tag has an expression, at the reported position,
whose tag breaks such a contract in the context that is reached there.
-/

import Qalam.Proofs.Checking.Statement

namespace Qalam

/-- An expression has a tag, and it is the one that its form demands. -/
def Expr.Tagged (x : Expr) : Prop :=
  x.note.tag.isSome = true ∧ ∀ tag, x.ruleTag = some tag → x.note.tag = some tag

namespace Checking

open Analysis (Context)

namespace Act

/-- What an act itself demands of its expression. -/
def demands : Act → List (Contract × Expr)
  | evaluates (some requirement) e => [(.meets requirement, e)]
  | _ => []

/-- The expressions of an act with the contracts that they have to keep. -/
def contracts (tagOf : Expr → Tag) (act : Act) : List (Contract × Expr) :=
  act.demands ++ act.parts.flatMap (Expr.contracts tagOf)

end Act

/-- The operands of a bound act keep their contracts. -/
theorem Does.keeps {context final : Context} {raw bound : Act}
    (does : Does context raw bound final) {contract : Contract} {y : Expr}
    (demanded : (contract, y) ∈ bound.contracts Expr.tag) : contract.accepts y.tag = true := by
  rcases List.mem_append.mp demanded with own | inside
  · cases does with
    | @evaluates requirement e boundExpr evaluates meets =>
        cases requirement with
        | none => cases own
        | some requirement =>
            cases List.mem_singleton.mp own
            exact meets requirement rfl
    | _ => cases own
  · obtain ⟨x, mem, here⟩ := List.mem_flatMap.mp inside
    obtain ⟨z, accepted, rfl | ⟨tag, rfl⟩⟩ := does.exists_accepted mem
    · exact accepted.contracts contract y here
    · rw [contracts_withTag] at here
      exact accepted.contracts contract y here

/-- A refusal because of a tag comes from an expression that breaks its contract. -/
theorem Fails.broken {context : Context} {act : Act} {error : SemanticError} {contract : Contract}
    {found : Tag} (fails : Fails context act error) (fault : error.fault = contract.fault found) :
    ∃ y bound, (contract, y) ∈ act.contracts (tagIn context) ∧ Evaluates context y bound ∧
      bound.tag = found ∧ y.pos = error.pos ∧ contract.accepts found = false := by
  cases fails with
  | inside mem refuses =>
      cases refuses with
      | contract demanded evaluates breaks =>
          obtain ⟨rfl, rfl⟩ := Contract.fault_inj.mp fault
          refine ⟨_, _, ?_, evaluates, rfl, rfl, breaks⟩
          exact List.mem_append_right _ (List.mem_flatMap.mpr ⟨_, mem, demanded⟩)
      | _ => cases contract <;> cases fault
  | @requirement requirement e bound evaluates breaks =>
      have same : (Contract.meets requirement).fault bound.tag = contract.fault found := fault
      obtain ⟨rfl, rfl⟩ := Contract.fault_inj.mp same
      exact ⟨e, bound, List.mem_cons_self, evaluates, rfl, rfl, breaks⟩
  | _ => cases contract <;> cases fault

end Checking

open Checking

/-- The visits before one of a program lead to a context, and to the constructs around it. -/
def Program.Reaches (program : Program) (visit : Visit) (context : Analysis.Context) : Prop :=
  ∃ before later done, program.visits = before ++ visit :: later ∧
    Runs before done .initial context ∧ Agrees visit.around context.scope.surroundings

/-- Binding gives tags that fit together. In an accepted program every expression has the tag that
the rules give from the tags of its operands, the target of an assignment has the tag of the
value, and every operand keeps the contract of its place. In a program that is refused because of
a tag, some visit is reached in a context in which one of its expressions, at the reported
position, has the reported tag, which breaks the reported contract. -/
theorem Program.bind_typed (program : Program) :
    (∀ bound, program.bind = .ok bound → ∀ visit ∈ bound.program.visits,
      (∀ x ∈ visit.act.values, x.Tagged) ∧
      (∀ target value, visit.act = .assigns target value →
        target.note.tag = some value.tag) ∧
      (∀ contract y, (contract, y) ∈ visit.act.contracts Expr.tag →
        contract.accepts y.tag = true)) ∧
    (∀ contract found pos, program.bind = .error ⟨Contract.fault contract found, pos⟩ →
      ∃ visit context y bound, program.Reaches visit context ∧
        (contract, y) ∈ visit.act.contracts (tagIn context) ∧ Evaluates context y bound ∧
        bound.tag = found ∧ y.pos = pos ∧ contract.accepts found = false) := by
  refine ⟨?_, ?_⟩
  · intro bound binds visit mem
    obtain ⟨scope, runs⟩ := Program.runs_of_bind binds
    obtain ⟨-, -, raw, -, -, reached, next, -, -, -, does, -⟩ := runs.exists_of_mem mem
    have tagged : ∀ x ∈ visit.act.values, x.Tagged := fun x inside =>
      ⟨(does.accepted x inside).isSome_tag, (does.accepted x inside).tagged⟩
    refine ⟨tagged, ?_, fun _ _ => does.keeps⟩
    intro target value assigns
    rw [assigns] at does
    cases does with
    | assigns => exact note_withTag _ _
  · intro contract found pos refused
    obtain ⟨before, visit, later, done, reached, split, runs, agrees, fails⟩ :=
      Program.stops_of_bind refused
    obtain ⟨y, bound, broken⟩ := fails.broken rfl
    exact ⟨visit, reached, y, bound, ⟨before, later, done, split, runs, agrees⟩, broken⟩

/-- A variable that holds a number, then a text; an array of it is indexed by a number. The same
variable cannot be subtracted from any more, and cannot be called. -/
theorem Program.bind_typed_retyped :
    let name (line column : Nat) : Expr := .ident (.at ⟨line, column⟩) "n" none
    let one (line column : Nat) : Expr := .literal (.at ⟨line, column⟩) (.int 1)
    let number : Statement := .declare ⟨1, 1⟩ false ⟨"n", ⟨1, 5⟩, none⟩ (some (one 1 9))
    let text : Statement := .assign ⟨2, 1⟩ (name 2 1) (.literal (.at ⟨2, 5⟩) (.str "text"))
    let indexed : Expr := .member (.at ⟨3, 1⟩) (.array (.at ⟨3, 1⟩) [name 3 2]) (one 3 5)
    let difference : Expr := .binary (.at ⟨3, 1⟩) .sub (name 3 1) (one 3 5)
    let indexing : Program := ⟨[number, text, .expr ⟨3, 1⟩ indexed]⟩
    let subtracting : Program := ⟨[number, text, .expr ⟨3, 1⟩ difference]⟩
    let calling : Program := ⟨[number, text, .expr ⟨3, 1⟩ (.call (.at ⟨3, 1⟩) (name 3 1) [])]⟩
    (∃ bound, indexing.bind = .ok bound ∧ ∀ visit ∈ bound.program.visits,
      (∀ x ∈ visit.act.values, x.Tagged) ∧
      (∀ target value, visit.act = .assigns target value →
        target.note.tag = some value.tag) ∧
      (∀ contract y, (contract, y) ∈ visit.act.contracts Expr.tag →
        contract.accepts y.tag = true)) ∧
    (subtracting.bind = .error ⟨.typeMismatch .number .string, ⟨3, 1⟩⟩ ∧
      ∃ visit context y bound, subtracting.Reaches visit context ∧
        (.meets .number, y) ∈ visit.act.contracts (tagIn context) ∧ Evaluates context y bound ∧
        bound.tag = .string ∧ y.pos = ⟨3, 1⟩ ∧
        Contract.accepts (.meets .number) .string = false) ∧
    (calling.bind = .error ⟨.notCallable .string, ⟨3, 1⟩⟩ ∧
      ∃ visit context y bound, calling.Reaches visit context ∧
        (.callable, y) ∈ visit.act.contracts (tagIn context) ∧ Evaluates context y bound ∧
        bound.tag = .string ∧ y.pos = ⟨3, 1⟩ ∧ Contract.accepts .callable .string = false) := by
  intro name one number text indexed difference indexing subtracting calling
  have accepted : ∃ bound, indexing.bind = .ok bound := ⟨_, rfl⟩
  have subtracts : subtracting.bind = .error ⟨.typeMismatch .number .string, ⟨3, 1⟩⟩ := rfl
  have calls : calling.bind = .error ⟨.notCallable .string, ⟨3, 1⟩⟩ := rfl
  obtain ⟨bound, binds⟩ := accepted
  exact ⟨⟨bound, binds, (bind_typed indexing).1 bound binds⟩,
    ⟨subtracts, (bind_typed subtracting).2 (.meets .number) _ _ subtracts⟩,
    ⟨calls, (bind_typed calling).2 .callable _ _ calls⟩⟩

end Qalam
