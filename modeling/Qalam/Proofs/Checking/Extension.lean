/-
# Programs that are continued

Analysis and the giving of names go through a program from its beginning to its end and never come
back. So statements behind a program change nothing of what has been made of it: not its fault, not
its bound tree, not the names it was given, not the lines written for it. The table of entities is
shared by both parts, but later statements can only add to it and retag variables, and what has
been written into the tree or the text is not looked up again.
-/

import Qalam.JavaScript.Statement
import Qalam.Naming.Rename
import Qalam.Proofs.Checking.Statement
import Qalam.Proofs.Checking.Table
import Qalam.Proofs.Structure.Kept

namespace Qalam

/-- A program and another one behind it. -/
instance : Append Program := ⟨fun first second => ⟨first.statements ++ second.statements⟩⟩

/-! ## The passes in two parts -/

theorem Analysis.statements_append (first second : List Statement) :
    Analysis.statements (first ++ second) = do
      let bound ← Analysis.statements first
      let bound' ← Analysis.statements second
      return bound ++ bound' := by
  induction first with
  | nil => simp [Analysis.statements]
  | cons s others ih => simp [Analysis.statements, ih]

theorem Naming.Rename.statements_append {oracle : Naming.Oracle} (first second : List Statement) :
    (statements (first ++ second) : Naming.Renaming oracle (List Statement)) = do
      let named ← statements first
      let named' ← statements second
      return named ++ named' := by
  induction first with
  | nil => simp [statements]
  | cons s others ih => simp [statements, ih]

theorem JavaScript.statements_append (margin : Margin) (first second : List Statement) :
    statements margin (first ++ second) = statements margin first ++ statements margin second := by
  induction first with
  | nil => rfl
  | cons s others ih => simp only [List.cons_append, statements, ih, List.append_assoc]

/-- The lines of a program come first among those of a longer one. -/
theorem Program.javaScriptLines_append (first second : Program) (oracle : Naming.Oracle)
    (indent : Nat) :
    (first.rename oracle).javaScriptLines indent <+:
      ((first ++ second).rename oracle).javaScriptLines indent := by
  show JavaScript.statements _ _ <+: JavaScript.statements _
    ((Naming.Rename.statements (first.statements ++ second.statements)).run (.empty oracle)).1
  rw [Naming.Rename.statements_append]
  show _ <+: JavaScript.statements _ (_ ++ _)
  rw [JavaScript.statements_append]
  exact List.prefix_append _ _

/-- Analysis of a longer program is analysis of its first part and then, in the context that is
left, of the second. -/
theorem Analysis.run_statements_append (first second : List Statement) (context : Context) :
    Analysis.statements (first ++ second) context =
      match Analysis.statements first context with
      | .error error => .error error
      | .ok (bound, middle) =>
        (Analysis.statements second middle).map
          fun (bound', final) => (bound ++ bound', final) := by
  rw [Analysis.statements_append]
  show Except.bind (Analysis.statements first context) _ = _
  cases Analysis.statements first context with
  | error error => rfl
  | ok reached =>
      show Except.bind (Analysis.statements second reached.2) _ = Except.map _ _
      cases Analysis.statements second reached.2 <;> rfl

open Checking

/-- In the context that a program leaves, further statements revise its entities and add others. -/
theorem Checking.revised_of_statements {first second bound bound' : List Statement}
    {middle final : Analysis.Context}
    (here : Analysis.statements first .initial = .ok (bound, middle))
    (there : Analysis.statements second middle = .ok (bound', final)) :
    Revised middle.entities final.entities := by
  have outermost : Contour [[]] .initial := .cons agrees_outermost .nil
  have followed := Follows.statements [] [] first .initial outermost
  rw [here] at followed
  have followed' := Follows.statements [] [] second middle followed.1
  rw [there] at followed'
  obtain ⟨-, visits, runs, -⟩ := followed'
  exact runs.revised

/-- Binding keeps the number of statements. -/
theorem Analysis.length_statements {body bound : List Statement} {context final : Context}
    (runs : Analysis.statements body context = .ok (bound, final)) :
    bound.length = body.length := by
  have kept := (Kept.statements body _ _ _ runs).same
  rw [Relabel.statements_eq_map, Relabel.statements_eq_map] at kept
  simpa using congrArg List.length kept

/-- A fault of a program is the fault of every continuation of it. If a continuation can be bound,
so can the program; its statements are bound as at the beginning of the continuation, its entities
have the same numbers there and differ at most in the tags of variables, and its lines, whatever the
source of names, come first. -/
theorem Program.bind_append (first second : Program) :
    (∀ error, first.bind = .error error → (first ++ second).bind = .error error) ∧
      ∀ whole, (first ++ second).bind = .ok whole → ∃ bound, first.bind = .ok bound ∧
        bound.program.statements = whole.program.statements.take first.statements.length ∧
        Revised bound.entities whole.entities ∧
        ∀ oracle indent, (bound.program.rename oracle).javaScriptLines indent <+:
          (whole.program.rename oracle).javaScriptLines indent := by
  have split := Analysis.run_statements_append first.statements second.statements .initial
  have ofWhole : (first ++ second).bind =
      (Analysis.statements (first.statements ++ second.statements) .initial).map
        fun reached => ⟨⟨reached.1⟩, reached.2.entities⟩ := rfl
  rw [ofWhole, split, Program.bind, StateT.run]
  cases here : Analysis.statements first.statements .initial with
  | error error =>
      constructor
      · intro _ same
        exact same
      · intro whole binds
        cases binds
  | ok reached =>
      obtain ⟨bound, middle⟩ := reached
      constructor
      · intro error same
        cases same
      intro whole binds
      refine ⟨_, rfl, ?_⟩
      dsimp only at binds
      cases there : Analysis.statements second.statements middle with
      | error error =>
          rw [there] at binds
          cases binds
      | ok ended =>
          obtain ⟨bound', final⟩ := ended
          rw [there] at binds
          cases binds
          refine ⟨?_, revised_of_statements here there, fun oracle indent => ?_⟩
          · rw [← Analysis.length_statements here]
            exact List.take_left.symm
          · exact Program.javaScriptLines_append ⟨bound⟩ ⟨bound'⟩ oracle indent

/-- A variable and its use, continued by an assignment of another kind of value. -/
theorem Program.bind_append_retagged :
    let name (line : Nat) : Expr := .ident (.at ⟨line, 1⟩) "count" none
    let first : Program := ⟨[.declare ⟨1, 1⟩ false ⟨"count", ⟨1, 5⟩, none⟩
      (some (.literal (.at ⟨1, 13⟩) (.int 1))), .print ⟨2, 1⟩ (name 2)]⟩
    let second : Program := ⟨[.assign ⟨3, 1⟩ (name 3) (.literal (.at ⟨3, 9⟩) (.str "one"))]⟩
    ∃ bound whole, first.bind = .ok bound ∧ (first ++ second).bind = .ok whole ∧
      bound.entities = ⟨#[.variable "count" false .int]⟩ ∧
      whole.entities = ⟨#[.variable "count" false .string]⟩ ∧
      bound.program.statements = whole.program.statements.take 2 := by
  intro name first second
  have binds : ∃ whole, (first ++ second).bind = .ok whole ∧
      whole.entities = ⟨#[.variable "count" false .string]⟩ := ⟨_, rfl, rfl⟩
  obtain ⟨whole, binds, table⟩ := binds
  obtain ⟨bound, binds', same, -⟩ := (bind_append first second).2 whole binds
  have table' : bound.entities = ⟨#[.variable "count" false .int]⟩ := by
    cases binds'
    rfl
  exact ⟨bound, whole, binds', binds, table', table, same⟩

end Qalam
