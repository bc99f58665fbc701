/-
# Jumps, returns and accesses to an instance stand where they may

A run knows at each visit which constructs are around it. So a jump was accepted only with a loop
or a case as the nearest boundary around it, a return only somewhere inside a function, and an
access to the instance only somewhere inside a class; and a refusal for one of these reasons is
due to a place that lacks just that.
-/

import Qalam.Proofs.Checking.Statement

namespace Qalam.Checking

open Analysis (Context)

/-- An access to the instance is evaluated inside a class only. -/
theorem Known.inClass {context : Context} {note : Note} {field : Field}
    (known : Known context (.this note field)) :
    context.scope.surroundings.inClass.isSome = true := by
  obtain ⟨bound, evaluates⟩ := known
  cases inside : context.scope.surroundings.inClass with
  | some id => rfl
  | none =>
      have stuck : Analysis.expr (.this note field) context =
          .error ⟨.thisOutsideClass, note.pos⟩ := by
        rw [Analysis.expr]
        change (if context.scope.surroundings.inClass.isNone then _ else _ : Analysis Unit) context
          >>= _ = _
        rw [inside]
        rfl
      rw [Evaluates, stuck] at evaluates
      cases evaluates

/-! ## Refusals -/

namespace Fails

variable {context : Context} {act : Act} {error : SemanticError}

theorem outsideLoop (fails : Fails context act error)
    (fault : error.fault = .loopControlOutsideLoop) :
    ∃ jump, act = .leaves jump error.pos ∧ context.scope.surroundings.inLoop = false := by
  cases fails with
  | leaves outside => exact ⟨_, rfl, outside⟩
  | inside mem refuses =>
      cases refuses with
      | @contract _ _ _ contract => cases contract <;> cases fault
      | _ => cases fault
  | _ => cases fault

theorem outsideFunction (fails : Fails context act error)
    (fault : error.fault = .returnOutsideFunction) :
    act = .returns error.pos ∧ context.scope.surroundings.inFunction.isSome = false := by
  cases fails with
  | returns outside => exact ⟨rfl, outside⟩
  | inside mem refuses =>
      cases refuses with
      | @contract _ _ _ contract => cases contract <;> cases fault
      | _ => cases fault
  | _ => cases fault

theorem outsideClass (fails : Fails context act error)
    (fault : error.fault = .thisOutsideClass) :
    ∃ note field, .this note field ∈ act.parts ∧ note.pos = error.pos ∧
      context.scope.surroundings.inClass.isSome = false := by
  cases fails with
  | inside mem refuses =>
      cases refuses with
      | outsideClass outside => exact ⟨_, _, mem, rfl, outside⟩
      | @contract _ _ _ contract => cases contract <;> cases fault
      | _ => cases fault
  | _ => cases fault

end Fails

end Qalam.Checking

namespace Qalam

open Checking

/-- The place of a jump, a return or an access to the instance is checked exactly. In an accepted
program the nearest boundary around every jump is a loop or a case, some function is around every
return, and some class is around every access to the instance. A program that is refused for one
of these reasons has at the reported position a jump, a return or an access without it. -/
theorem Program.bind_placed (program : Program) :
    (∀ bound, program.bind = .ok bound → ∀ visit ∈ program.visits,
      (∀ jump pos, visit.act = .leaves jump pos → Leavable visit.around) ∧
      (∀ pos, visit.act = .returns pos → .function ∈ visit.around) ∧
      (∀ note field, .this note field ∈ visit.act.parts → .classBody ∈ visit.around)) ∧
    (∀ pos, program.bind = .error ⟨.loopControlOutsideLoop, pos⟩ → ∃ visit ∈ program.visits,
      ∃ jump, visit.act = .leaves jump pos ∧ ¬ Leavable visit.around) ∧
    (∀ pos, program.bind = .error ⟨.returnOutsideFunction, pos⟩ → ∃ visit ∈ program.visits,
      visit.act = .returns pos ∧ .function ∉ visit.around) ∧
    (∀ pos, program.bind = .error ⟨.thisOutsideClass, pos⟩ → ∃ visit ∈ program.visits,
      ∃ note field, .this note field ∈ visit.act.parts ∧ note.pos = pos ∧
        .classBody ∉ visit.around) := by
  refine ⟨?_, ?_, ?_, ?_⟩
  · intro bound binds visit mem
    obtain ⟨scope, runs⟩ := Program.runs_of_bind binds
    obtain ⟨done, reached, next, agrees, does⟩ := runs.does_of_mem mem
    refine ⟨?_, ?_, ?_⟩
    · intro jump pos leaves
      rw [leaves] at does
      cases does with
      | leaves inside => exact agrees.loop.mp inside
    · intro pos returns
      rw [returns] at does
      cases does with
      | returns inside => exact agrees.function.mp inside
    · intro note field accessed
      exact agrees.classBody.mp (does.known _ accessed).inClass
  · intro pos refused
    obtain ⟨before, visit, later, done, reached, split, -, agrees, fails⟩ :=
      Program.stops_of_bind refused
    obtain ⟨jump, leaves, outside⟩ := fails.outsideLoop rfl
    refine ⟨visit, by simp [split], jump, leaves, ?_⟩
    rw [← agrees.loop, outside]
    exact Bool.false_ne_true
  · intro pos refused
    obtain ⟨before, visit, later, done, reached, split, -, agrees, fails⟩ :=
      Program.stops_of_bind refused
    obtain ⟨returns, outside⟩ := fails.outsideFunction rfl
    refine ⟨visit, by simp [split], returns, ?_⟩
    rw [← agrees.function, outside]
    exact Bool.false_ne_true
  · intro pos refused
    obtain ⟨before, visit, later, done, reached, split, -, agrees, fails⟩ :=
      Program.stops_of_bind refused
    obtain ⟨note, field, accessed, same, outside⟩ := fails.outsideClass rfl
    refine ⟨visit, by simp [split], note, field, accessed, same, ?_⟩
    rw [← agrees.classBody, outside]
    exact Bool.false_ne_true

/-- A method that loops, leaves the loop from a branch and returns a field of the instance; and
three programs that are refused: a jump in a function inside a loop, a return in a constructor and
an access to the instance in a function. -/
theorem Program.bind_placed_method :
    let around (body : List Statement) : Statement :=
      .whileLoop ⟨3, 1⟩ (.literal (.at ⟨3, 8⟩) (.bool true)) (.mk ⟨3, 14⟩ body)
    let named (body : List Statement) : Function :=
      .mk ⟨2, 1⟩ ⟨"walk", ⟨2, 10⟩, none⟩ [] (.mk ⟨2, 17⟩ body)
    let inClass (initialiser : Option Constructor) (methods : List Function) : Statement :=
      .classDef ⟨1, 1⟩ ⟨"Node", ⟨1, 7⟩, none⟩ initialiser ⟨1, 12⟩ methods
    let next : Expr := .this (.at ⟨5, 8⟩) ⟨"next", .at ⟨5, 13⟩⟩
    let leave : Statement := .breakLoop ⟨4, 9⟩
    let walking : Program := ⟨[inClass none [named [around [
      .ifElse ⟨4, 1⟩ [.mk ⟨4, 1⟩ (.literal (.at ⟨4, 5⟩) (.bool true)) (.mk ⟨4, 8⟩ [leave])] none,
      .returns ⟨5, 1⟩ (some next)]]]]⟩
    let jumping : Program := ⟨[around [.function (named [leave])]]⟩
    let returning : Program :=
      ⟨[inClass (some (.mk ⟨2, 1⟩ [] (.mk ⟨2, 15⟩ [.returns ⟨3, 1⟩ none]))) []]⟩
    let accessing : Program := ⟨[.function (named [.expr ⟨5, 8⟩ next])]⟩
    (∃ bound, walking.bind = .ok bound ∧ ∀ visit ∈ walking.visits,
      (∀ jump pos, visit.act = .leaves jump pos → Leavable visit.around) ∧
      (∀ pos, visit.act = .returns pos → .function ∈ visit.around) ∧
      (∀ note field, .this note field ∈ visit.act.parts → .classBody ∈ visit.around)) ∧
    (jumping.bind = .error ⟨.loopControlOutsideLoop, ⟨4, 9⟩⟩ ∧ ∃ visit ∈ jumping.visits,
      ∃ jump, visit.act = .leaves jump ⟨4, 9⟩ ∧ ¬ Leavable visit.around) ∧
    (returning.bind = .error ⟨.returnOutsideFunction, ⟨3, 1⟩⟩ ∧ ∃ visit ∈ returning.visits,
      visit.act = .returns ⟨3, 1⟩ ∧ .function ∉ visit.around) ∧
    (accessing.bind = .error ⟨.thisOutsideClass, ⟨5, 8⟩⟩ ∧ ∃ visit ∈ accessing.visits,
      ∃ note field, .this note field ∈ visit.act.parts ∧ note.pos = ⟨5, 8⟩ ∧
        .classBody ∉ visit.around) := by
  intro around named inClass next leave walking jumping returning accessing
  have accepted : ∃ bound, walking.bind = .ok bound := ⟨_, rfl⟩
  have jumps : jumping.bind = .error ⟨.loopControlOutsideLoop, ⟨4, 9⟩⟩ := rfl
  have returns : returning.bind = .error ⟨.returnOutsideFunction, ⟨3, 1⟩⟩ := rfl
  have accesses : accessing.bind = .error ⟨.thisOutsideClass, ⟨5, 8⟩⟩ := rfl
  obtain ⟨bound, binds⟩ := accepted
  exact ⟨⟨bound, binds, (bind_placed walking).1 bound binds⟩,
    ⟨jumps, (bind_placed jumping).2.1 _ jumps⟩,
    ⟨returns, (bind_placed returning).2.2.1 _ returns⟩,
    ⟨accesses, (bind_placed accessing).2.2.2 _ accesses⟩⟩

end Qalam
