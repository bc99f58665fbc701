/-
# Where a loop can be continued

In the generated code a `continue` goes on with the nearest loop around it, and a function, a
constructor or a class between the two makes it illegal. Analysis asks less: one mark stands for
loops and for the cases of a switch, since both can be left by a `break`. So a `continue` that it
accepts is legal, unless cases of a switch are all that is around it up to the nearest function or
class or the end of the program. Such a one is accepted as well, and stands in the generated text.
-/

import Qalam.Compiler
import Qalam.Proofs.Checking.Placement

namespace Qalam.Checking

/-- The constructs that a jump cannot cross. -/
def Construct.isFence : Construct → Bool
  | function | initialiser | classBody => true
  | block | loop | switchCase => false

/-- The constructs around a place up to the nearest function, constructor or class. -/
def reach (around : List Construct) : List Construct :=
  around.takeWhile fun construct => !construct.isFence

/-- A loop is around a place, with no function, constructor or class between the two. -/
def Continuable (around : List Construct) : Prop := .loop ∈ reach around

/-- Some case of a switch is around a place, but no loop, up to the nearest function, constructor
or class or up to the whole program. -/
def Stranded (around : List Construct) : Prop :=
  .switchCase ∈ reach around ∧ .loop ∉ reach around

instance (around : List Construct) : Decidable (Continuable around) :=
  inferInstanceAs (Decidable (_ ∈ _))

instance (around : List Construct) : Decidable (Stranded around) :=
  inferInstanceAs (Decidable (_ ∧ _))

/-! ## Constructors stand in classes -/

/-- Every constructor is directly in the body of a class. -/
def Housed : List Construct → Prop
  | [] => True
  | .initialiser :: around => around.head? = some .classBody ∧ Housed around
  | _ :: around => Housed around

theorem Housed.cons {construct : Construct} {around : List Construct} (housed : Housed around)
    (other : construct ≠ .initialiser) : Housed (construct :: around) := by
  cases construct with
  | initialiser => exact absurd rfl other
  | _ => exact housed

namespace Visits

variable {around : List Construct}

theorem housed_framed {construct : Construct} {inner : List Visit} (housed : Housed around)
    (inside : Housed (construct :: around)) (visits : ∀ visit ∈ inner, Housed visit.around) :
    ∀ visit ∈ framed construct around inner, Housed visit.around := by
  simp only [framed, List.cons_append, List.forall_mem_cons, List.forall_mem_append,
    List.not_mem_nil, false_implies, implies_true, and_true]
  exact ⟨housed, visits, inside⟩

theorem housed_parameters (housed : Housed around) (params : List Parameter) :
    ∀ visit ∈ parameters around params, Housed visit.around := by
  simp [parameters, housed]

mutual

theorem housed_statement {around : List Construct} (housed : Housed around) : ∀ s : Statement,
    ∀ visit ∈ statement around s, Housed visit.around
  | .declare _ _ _ _ | .assign _ _ _ | .print _ _ | .breakLoop _ | .continueLoop _ | .expr _ _ => by
      simpa [statement] using housed
  | .declareAll _ constant entries => by
      rw [statement, List.forall_mem_map]
      exact fun _ _ => housed
  | .returns _ (some _) | .returns _ none => by
      simpa [statement, optional] using housed
  | .tryCatch _ body name handler => by
      have inside : Housed (.block :: around) := housed.cons (by simp)
      rw [statement, List.forall_mem_append]
      refine ⟨housed_framed housed inside (housed_block inside body), ?_⟩
      refine housed_framed housed inside (List.forall_mem_cons.mpr ⟨inside, ?_⟩)
      exact housed_block inside handler
  | .classDef _ name (some initialiser) _ methods => by
      have inside : Housed (.classBody :: around) := housed.cons (by simp)
      rw [statement, List.forall_mem_cons]
      refine ⟨housed, housed_framed housed inside (List.forall_mem_append.mpr ⟨?_, ?_⟩)⟩
      · exact housed_constructor inside rfl initialiser
      · exact housed_functions inside methods
  | .classDef _ name none _ methods => by
      have inside : Housed (.classBody :: around) := housed.cons (by simp)
      rw [statement, List.forall_mem_cons]
      exact ⟨housed, housed_framed housed inside (housed_functions inside methods)⟩
  | .function declared => housed_function housed declared
  | .ifElse _ alternatives (some otherwise) => by
      have inside : Housed (.block :: around) := housed.cons (by simp)
      rw [statement, List.forall_mem_append]
      exact ⟨housed_arms housed (by simp) _ alternatives,
        housed_framed housed inside (housed_block inside otherwise)⟩
  | .ifElse _ alternatives none => housed_arms housed (by simp) _ alternatives
  | .whileLoop _ condition body => by
      have inside : Housed (.loop :: around) := housed.cons (by simp)
      rw [statement, List.forall_mem_cons]
      exact ⟨housed, housed_framed housed inside (housed_block inside body)⟩
  | .forLoop _ name init condition step body => by
      have inside : Housed (.loop :: around) := housed.cons (by simp)
      have deeper : Housed (.block :: .loop :: around) := inside.cons (by simp)
      rw [statement]
      refine housed_framed housed inside ?_
      simp only [List.forall_mem_cons]
      exact ⟨inside, inside, inside, housed_framed inside deeper (housed_block deeper body)⟩
  | .forOf _ name iterable body => by
      have inside : Housed (.loop :: around) := housed.cons (by simp)
      rw [statement, List.forall_mem_cons]
      refine ⟨housed, housed_framed housed inside (List.forall_mem_cons.mpr ⟨inside, ?_⟩)⟩
      exact housed_block inside body
  | .switch _ selector alternatives (some otherwise) => by
      have inside : Housed (.switchCase :: around) := housed.cons (by simp)
      rw [statement, List.forall_mem_cons, List.forall_mem_append]
      exact ⟨housed, housed_arms housed (by simp) _ alternatives,
        housed_framed housed inside (housed_block inside otherwise)⟩
  | .switch _ selector alternatives none => by
      rw [statement, List.forall_mem_cons]
      exact ⟨housed, housed_arms housed (by simp) _ alternatives⟩

theorem housed_statements {around : List Construct} (housed : Housed around) :
    ∀ body : List Statement, ∀ visit ∈ statements around body, Housed visit.around
  | [] => by simp [statements]
  | first :: others => by
      rw [statements, List.forall_mem_append]
      exact ⟨housed_statement housed first, housed_statements housed others⟩

theorem housed_block {around : List Construct} (housed : Housed around) :
    ∀ body : Block, ∀ visit ∈ block around body, Housed visit.around
  | .mk _ body => housed_statements housed body

theorem housed_function {around : List Construct} (housed : Housed around) :
    ∀ declared : Function, ∀ visit ∈ function around declared, Housed visit.around
  | .mk _ name params body => by
      have inside : Housed (.function :: around) := housed.cons (by simp)
      rw [function, List.forall_mem_cons]
      refine ⟨housed, housed_framed housed inside (List.forall_mem_append.mpr ⟨?_, ?_⟩)⟩
      · exact housed_parameters inside params
      · exact housed_block inside body

theorem housed_functions {around : List Construct} (housed : Housed around) :
    ∀ members : List Function, ∀ visit ∈ functions around members, Housed visit.around
  | [] => by simp [functions]
  | first :: others => by
      rw [functions, List.forall_mem_append]
      exact ⟨housed_function housed first, housed_functions housed others⟩

theorem housed_constructor {around : List Construct} (housed : Housed around)
    (classBody : around.head? = some .classBody) : ∀ initialiser : Constructor,
    ∀ visit ∈ constructor around initialiser, Housed visit.around
  | .mk _ params body => by
      have inside : Housed (.initialiser :: around) := ⟨classBody, housed⟩
      rw [constructor]
      refine housed_framed housed inside (List.forall_mem_append.mpr ⟨?_, ?_⟩)
      · exact housed_parameters inside params
      · exact housed_block inside body

theorem housed_arms {construct : Construct} {around : List Construct} (housed : Housed around)
    (other : construct ≠ .initialiser) (requirement : Option Requirement) :
    ∀ alternatives : List Arm,
      ∀ visit ∈ arms requirement construct around alternatives, Housed visit.around
  | [] => by simp [arms]
  | .mk _ test body :: others => by
      have inside := housed.cons other
      rw [arms, arm, List.forall_mem_append, List.forall_mem_cons]
      exact ⟨⟨housed, housed_framed housed inside (housed_block inside body)⟩,
        housed_arms housed other requirement others⟩

end

end Visits

/-! ## What is around an accepted jump -/

/-- A place that can be left has a loop or a case in its reach. -/
theorem Leavable.in_reach {around : List Construct} (leavable : Leavable around)
    (housed : Housed around) : .loop ∈ reach around ∨ .switchCase ∈ reach around := by
  induction around with
  | nil => simp [Leavable] at leavable
  | cons construct around ih =>
      cases construct with
      | block => simpa [reach, Construct.isFence] using ih leavable housed
      | loop => simp [reach, Construct.isFence]
      | switchCase => simp [reach, Construct.isFence]
      | function | classBody => simp [Leavable, Construct.isBoundary] at leavable
      | initialiser =>
          -- the class around the constructor is the nearest boundary
          obtain ⟨outer, rfl⟩ := List.head?_eq_some_iff.mp housed.1
          simp [Leavable, Construct.isBoundary] at leavable

/-- A place that cannot be left has neither in its reach. -/
theorem not_in_reach {around : List Construct} (fast : ¬ Leavable around) :
    .loop ∉ reach around ∧ .switchCase ∉ reach around := by
  induction around with
  | nil => simp [reach]
  | cons construct around ih =>
      cases construct with
      | block => simpa [reach, Construct.isFence] using ih fast
      | loop | switchCase => simp [Leavable, Construct.isBoundary] at fast
      | function | classBody | initialiser => simp [reach, Construct.isFence]

end Qalam.Checking

namespace Qalam

open Checking

/-- In an accepted program a `continue` has a loop in its reach, or it is stranded in the cases of
a switch. A program that is refused for a jump has at the reported position one with neither a
loop nor a case in its reach. -/
theorem Program.bind_continues (program : Program) :
    (∀ bound, program.bind = .ok bound → ∀ visit ∈ program.visits, ∀ pos,
      visit.act = .leaves .continueLoop pos →
        Continuable visit.around ∨ Stranded visit.around) ∧
    (∀ pos, program.bind = .error ⟨.loopControlOutsideLoop, pos⟩ → ∃ visit ∈ program.visits,
      ∃ jump, visit.act = .leaves jump pos ∧
        ¬ Continuable visit.around ∧ ¬ Stranded visit.around) := by
  constructor
  · intro bound binds visit mem pos continues
    obtain ⟨scope, runs⟩ := Program.runs_of_bind binds
    obtain ⟨done, reached, next, agrees, does⟩ := runs.does_of_mem mem
    rw [continues] at does
    cases does with
    | leaves inside =>
        have housed :=
          Visits.housed_statements (show Housed [] from trivial) program.statements visit mem
        rcases (agrees.loop.mp inside).in_reach housed with loop | case
        · exact .inl loop
        · by_cases loop : .loop ∈ reach visit.around
          · exact .inl loop
          · exact .inr ⟨case, loop⟩
  · intro pos refused
    obtain ⟨before, visit, later, done, reached, split, -, agrees, fails⟩ :=
      Program.stops_of_bind refused
    obtain ⟨jump, leaves, outside⟩ := fails.outsideLoop rfl
    have fast : ¬ Leavable visit.around := by
      rw [← agrees.loop, outside]
      exact Bool.false_ne_true
    obtain ⟨noLoop, noCase⟩ := not_in_reach fast
    exact ⟨visit, by simp [split], jump, leaves, noLoop, fun stranded => noCase stranded.1⟩

/-- A switch on the number one with a case that does something. -/
def switching (tag : Option Tag) (body : List Statement) : Statement :=
  .switch ⟨1, 1⟩ (.literal ⟨⟨1, 3⟩, tag⟩ (.int 1))
    [.mk ⟨2, 1⟩ (.literal ⟨⟨2, 2⟩, tag⟩ (.int 1)) (.mk ⟨2, 1⟩ body)] none

/-- A switch in a loop, whose case goes on with the loop; and a `continue` all alone. -/
theorem Program.bind_continues_switch :
    let looping : Program := ⟨[.whileLoop ⟨0, 1⟩ (.literal (.at ⟨0, 2⟩) (.bool true))
      (.mk ⟨0, 3⟩ [switching none [.continueLoop ⟨3, 1⟩]])]⟩
    let lone : Program := ⟨[.continueLoop ⟨3, 1⟩]⟩
    (∃ bound, looping.bind = .ok bound ∧ ∀ visit ∈ looping.visits, ∀ pos,
      visit.act = .leaves .continueLoop pos →
        Continuable visit.around ∨ Stranded visit.around) ∧
    lone.bind = .error ⟨.loopControlOutsideLoop, ⟨3, 1⟩⟩ ∧ ∃ visit ∈ lone.visits,
      ∃ jump, visit.act = .leaves jump ⟨3, 1⟩ ∧
        ¬ Continuable visit.around ∧ ¬ Stranded visit.around := by
  intro looping lone
  have accepted : ∃ bound, looping.bind = .ok bound := ⟨_, rfl⟩
  have refused : lone.bind = .error ⟨.loopControlOutsideLoop, ⟨3, 1⟩⟩ := rfl
  obtain ⟨bound, binds⟩ := accepted
  exact ⟨⟨bound, binds, (bind_continues looping).1 bound binds⟩,
    refused, (bind_continues lone).2 _ refused⟩

/-- The tokens of `switch (1) \x7b case 1: continue; \x7d`. -/
def strandedTokens : List Token :=
  [⟨.keyword .switchKw, ⟨1, 1⟩⟩, ⟨.symbol .lparen, ⟨1, 2⟩⟩, ⟨.int 1, ⟨1, 3⟩⟩,
    ⟨.symbol .rparen, ⟨1, 4⟩⟩, ⟨.symbol .lbrace, ⟨1, 5⟩⟩, ⟨.keyword .caseKw, ⟨2, 1⟩⟩,
    ⟨.int 1, ⟨2, 2⟩⟩, ⟨.symbol .colon, ⟨2, 3⟩⟩, ⟨.keyword .continueKw, ⟨3, 1⟩⟩,
    ⟨.symbol .semi, ⟨3, 2⟩⟩, ⟨.symbol .rbrace, ⟨4, 1⟩⟩, ⟨.eof, ⟨4, 2⟩⟩]

/-- A `continue` in a switch and nothing else is accepted, and it stands in the text. -/
theorem Program.continue_stranded :
    let program (tag : Option Tag) : Program := ⟨[switching tag [.continueLoop ⟨3, 1⟩]]⟩
    Program.ofTokens strandedTokens = .ok (program none) ∧
    (program none).bind = .ok ⟨program (some .int), .empty⟩ ∧
    (¬ ∀ visit ∈ (program none).visits, ∀ pos, visit.act = .leaves .continueLoop pos →
      Continuable visit.around) ∧
    (program (some .int)).generate .silent 2 =
      "switch (1) \x7b\n  case 1:\n    continue;\n\x7d" := by
  refine ⟨rfl, rfl, fun always => ?_, by decide +kernel⟩
  have listed : ⟨[.switchCase], .leaves .continueLoop ⟨3, 1⟩⟩ ∈
      (⟨[switching none [.continueLoop ⟨3, 1⟩]]⟩ : Program).visits :=
    List.mem_append_left _ (by simp [Visits.statement, switching, Visits.arms, Visits.arm,
      Visits.framed, Visits.block, Visits.statements])
  exact absurd (always _ listed ⟨3, 1⟩ rfl) (by decide)

end Qalam
