/-
# Lists that are never empty

An `if` has at least one alternative, and a declaration of several names has some. The grammar
says so, and analysis does not change the number of anything.
-/

import Qalam.Proofs.Structure.Checked

namespace Qalam.Branches

mutual

/-- How many alternatives and declared names the parts of a statement have. -/
def statement : Statement → List Nat
  | .declareAll _ _ entries => [entries.length]
  | .tryCatch _ body _ handler => block body ++ block handler
  | .classDef _ _ (some initialiser) _ methods => constructor initialiser ++ functions methods
  | .classDef _ _ none _ methods => functions methods
  | .function declared => function declared
  | .ifElse _ alternatives (some otherwise) =>
    alternatives.length :: (arms alternatives ++ block otherwise)
  | .ifElse _ alternatives none => alternatives.length :: arms alternatives
  | .whileLoop _ _ body => block body
  | .forLoop _ _ _ _ _ body => block body
  | .forOf _ _ _ body => block body
  | .switch _ _ alternatives (some otherwise) => arms alternatives ++ block otherwise
  | .switch _ _ alternatives none => arms alternatives
  | _ => []

/-- The numbers in several statements. -/
def statements : List Statement → List Nat
  | [] => []
  | first :: others => statement first ++ statements others

/-- The numbers in a block. -/
def block : Block → List Nat
  | .mk _ body => statements body

/-- The numbers in a function. -/
def function : Function → List Nat
  | .mk _ _ _ body => block body

/-- The numbers in several functions. -/
def functions : List Function → List Nat
  | [] => []
  | first :: others => function first ++ functions others

/-- The numbers in a constructor. -/
def constructor : Constructor → List Nat
  | .mk _ _ body => block body

/-- The numbers in the alternatives of an `if` or `switch`. -/
def arms : List Arm → List Nat
  | [] => []
  | first :: others => arm first ++ arms others

/-- The numbers in one alternative. -/
def arm : Arm → List Nat
  | .mk _ _ body => block body

end

/-! ## Programs that were read -/

/-- The numbers in a part of a program. -/
def piece : (piece : Grammar.Piece) → piece.Tree → List Nat
  | .statement, s => statement s
  | .statements, ss => statements ss
  | .block, b => block b
  | .elseIfs, alternatives => arms alternatives
  | .clauses, (alternatives, some otherwise) => arms alternatives ++ block otherwise
  | .clauses, (alternatives, none) => arms alternatives
  | .function, f => function f
  | .members, (some initialiser, methods) => constructor initialiser ++ functions methods
  | .members, (none, methods) => functions methods

theorem positive_of_forms {shape : Grammar.Piece} {ts : List Token} {tree : shape.Tree}
    (forms : Grammar.Forms shape ts tree) : ∀ n ∈ piece shape tree, 0 < n := by
  induction forms with
  | declareAll _ _ several =>
      rw [piece, statement, List.forall_mem_singleton]
      exact Nat.lt_of_lt_of_le (by decide) several
  | @switch _ _ _ _ otherwise _ _ _ _ _ ih => cases otherwise <;> exact ih
  | @classDef _ _ initialiser _ _ _ _ _ _ ih => cases initialiser <;> exact ih
  | @caseClause _ _ _ _ _ _ otherwise _ _ _ _ _ ih ih' =>
      cases otherwise with
      | none => exact List.forall_mem_append.mpr ⟨ih, ih'⟩
      | some otherwise =>
          obtain ⟨others, last⟩ := List.forall_mem_append.mp ih'
          exact List.forall_mem_append.mpr ⟨List.forall_mem_append.mpr ⟨ih, others⟩, last⟩
  | @method _ _ _ initialiser _ _ _ ih ih' =>
      cases initialiser with
      | none => exact List.forall_mem_append.mpr ⟨ih, ih'⟩
      | some initialiser =>
          obtain ⟨first, others⟩ := List.forall_mem_append.mp ih'
          exact List.forall_mem_append.mpr ⟨first, List.forall_mem_append.mpr ⟨ih, others⟩⟩
  | _ =>
      simp only [piece, statement, statements, block, function, functions, constructor, arms, arm,
        List.forall_mem_append, List.forall_mem_cons, List.length_cons] at *
      grind

/-! ## Bound programs -/

open Analysis (Yields)

theorem declarators (constant : Bool) : ∀ entries : List (Binding × Option Expr),
    Yields (Analysis.declarators constant entries) fun bound => bound.length = entries.length
  | [] => Yields.pure rfl
  | (name, init) :: others => by
      rw [Analysis.declarators]
      refine Yields.after _ fun first => (declarators constant others).map fun rest same => ?_
      rw [List.length_cons, List.length_cons, same]

mutual

theorem yields_statement : ∀ s : Statement,
    Yields (Analysis.statement s) fun bound => statement bound = statement s
  | .declare pos constant name init => by
      rw [Analysis.statement]
      exact Yields.after _ fun _ => Yields.pure rfl
  | .declareAll pos constant entries => by
      rw [Analysis.statement]
      refine (declarators constant entries).map fun bound same => ?_
      rw [statement, statement, same]
  | .assign pos target value => by
      rw [Analysis.statement]
      refine Yields.after _ fun _ => Yields.after _ fun _ => ?_
      exact Yields.after _ fun _ => Yields.after _ fun _ => Yields.pure rfl
  | .tryCatch pos body name handler => by
      rw [Analysis.statement]
      refine (yields_blockIn id body).bind fun boundBody here => ?_
      refine Yields.after _ fun _ => Yields.after _ fun boundName => ?_
      refine (yields_blockHere handler).bind fun boundHandler there => ?_
      exact Yields.after _ fun _ => Yields.pure (by rw [statement, statement, here, there])
  | .classDef pos name (some initialiser) bodyPos methods => by
      rw [Analysis.statement]
      refine Yields.after _ fun declared => Yields.after _ fun _ => ?_
      refine (yields_constructor initialiser).present.bind ?_
      rintro _ ⟨boundInitialiser, rfl, here⟩
      refine (yields_functions methods).bind fun boundMethods there => ?_
      exact Yields.after _ fun _ => Yields.pure (by rw [statement, statement, here, there])
  | .classDef pos name none bodyPos methods => by
      rw [Analysis.statement]
      refine Yields.after _ fun declared => Yields.after _ fun _ => ?_
      dsimp only
      rw [pure_bind]
      refine (yields_functions methods).bind fun boundMethods there => ?_
      exact Yields.after _ fun _ => Yields.pure (by rw [statement, statement, there])
  | .function declared => by
      rw [Analysis.statement]
      exact (yields_function declared).map fun _ same => by rw [statement, statement, same]
  | .ifElse pos alternatives (some otherwise) => by
      rw [Analysis.statement]
      refine (yields_ifArms alternatives).bind fun bound here => ?_
      refine (yields_blockIn id otherwise).present.bind ?_
      rintro _ ⟨boundOtherwise, rfl, there⟩
      exact Yields.pure (by rw [statement, statement, here.1, here.2, there])
  | .ifElse pos alternatives none => by
      rw [Analysis.statement]
      refine (yields_ifArms alternatives).bind fun bound here => ?_
      dsimp only
      rw [pure_bind]
      exact Yields.pure (by rw [statement, statement, here.1, here.2])
  | .whileLoop pos condition body => by
      rw [Analysis.statement]
      refine Yields.after _ fun _ => Yields.after _ fun _ => ?_
      exact (yields_blockIn _ body).map fun _ same => by rw [statement, statement, same]
  | .forLoop pos name init condition step body => by
      rw [Analysis.statement]
      refine Yields.after _ fun _ => Yields.after _ fun _ => Yields.after _ fun _ => ?_
      refine Yields.after _ fun _ => Yields.after _ fun _ => Yields.after _ fun _ => ?_
      refine (yields_blockIn id body).bind fun boundBody same => ?_
      exact Yields.after _ fun _ => Yields.pure (by rw [statement, statement, same])
  | .forOf pos name iterable body => by
      rw [Analysis.statement]
      refine Yields.after _ fun _ => Yields.after _ fun _ => ?_
      refine Yields.after _ fun _ => Yields.after _ fun _ => ?_
      refine (yields_blockHere body).bind fun boundBody same => ?_
      exact Yields.after _ fun _ => Yields.pure (by rw [statement, statement, same])
  | .switch pos selector alternatives (some otherwise) => by
      rw [Analysis.statement]
      refine Yields.after _ fun _ => (yields_switchArms alternatives).bind fun bound here => ?_
      refine (yields_blockIn _ otherwise).present.bind ?_
      rintro _ ⟨boundOtherwise, rfl, there⟩
      exact Yields.pure (by rw [statement, statement, here, there])
  | .switch pos selector alternatives none => by
      rw [Analysis.statement]
      refine Yields.after _ fun _ => (yields_switchArms alternatives).bind fun bound here => ?_
      dsimp only
      rw [pure_bind]
      exact Yields.pure (by rw [statement, statement, here])
  | .returns pos (some value) => by
      rw [Analysis.statement]
      exact Yields.after _ fun _ => Yields.after _ fun _ => Yields.pure rfl
  | .returns pos none => by
      rw [Analysis.statement]
      exact Yields.after _ fun _ => Yields.pure rfl
  | .print pos argument => by
      rw [Analysis.statement]
      exact Yields.after _ fun _ => Yields.pure rfl
  | .breakLoop pos => by
      rw [Analysis.statement]
      exact Yields.after _ fun _ => Yields.pure rfl
  | .continueLoop pos => by
      rw [Analysis.statement]
      exact Yields.after _ fun _ => Yields.pure rfl
  | .expr pos e => by
      rw [Analysis.statement]
      exact Yields.after _ fun _ => Yields.pure rfl

theorem yields_statements : ∀ body : List Statement,
    Yields (Analysis.statements body) fun bound => statements bound = statements body
  | [] => Yields.pure rfl
  | first :: others => by
      rw [Analysis.statements]
      refine (yields_statement first).bind fun boundFirst here => ?_
      exact (yields_statements others).map fun _ there => by
        rw [statements, statements, here, there]

theorem yields_blockHere : ∀ body : Block,
    Yields (Analysis.blockHere body) fun bound => block bound = block body
  | .mk pos body => by
      rw [Analysis.blockHere]
      exact (yields_statements body).map fun _ same => by rw [block, block, same]

theorem yields_blockIn (adjust : Surroundings → Surroundings) : ∀ body : Block,
    Yields (Analysis.blockIn adjust body) fun bound => block bound = block body
  | .mk pos body => by
      rw [Analysis.blockIn]
      refine Yields.after _ fun _ => (yields_statements body).bind fun bound same => ?_
      exact Yields.after _ fun _ => Yields.pure (by rw [block, block, same])

theorem yields_function : ∀ declared : Function,
    Yields (Analysis.function declared) fun bound => function bound = function declared
  | .mk pos name params body => by
      rw [Analysis.function]
      refine Yields.after _ fun _ => Yields.after _ fun _ => Yields.after _ fun _ => ?_
      refine (yields_blockHere body).bind fun bound same => ?_
      exact Yields.after _ fun _ => Yields.pure (by rw [function, function, same])

theorem yields_functions : ∀ members : List Function,
    Yields (Analysis.functions members) fun bound => functions bound = functions members
  | [] => Yields.pure rfl
  | first :: others => by
      rw [Analysis.functions]
      refine (yields_function first).bind fun boundFirst here => ?_
      exact (yields_functions others).map fun _ there => by rw [functions, functions, here, there]

theorem yields_constructor : ∀ initialiser : Constructor,
    Yields (Analysis.constructor initialiser) fun bound =>
      constructor bound = constructor initialiser
  | .mk pos params body => by
      rw [Analysis.constructor]
      refine Yields.after _ fun _ => Yields.after _ fun _ => ?_
      refine (yields_blockHere body).bind fun bound same => ?_
      exact Yields.after _ fun _ => Yields.pure (by rw [constructor, constructor, same])

theorem yields_ifArms : ∀ alternatives : List Arm,
    Yields (Analysis.ifArms alternatives) fun bound =>
      bound.length = alternatives.length ∧ arms bound = arms alternatives
  | [] => Yields.pure ⟨rfl, rfl⟩
  | .mk pos condition body :: others => by
      rw [Analysis.ifArms, Analysis.ifArm]
      simp only [bind_assoc, pure_bind]
      refine Yields.after _ fun _ => Yields.after _ fun _ => ?_
      refine (yields_blockIn id body).bind fun bound here => ?_
      refine (yields_ifArms others).map fun _ there => ⟨?_, ?_⟩
      · rw [List.length_cons, List.length_cons, there.1]
      · rw [arms, arms, arm, arm, here, there.2]

theorem yields_switchArms : ∀ alternatives : List Arm,
    Yields (Analysis.switchArms alternatives) fun bound => arms bound = arms alternatives
  | [] => Yields.pure rfl
  | .mk pos test body :: others => by
      rw [Analysis.switchArms, Analysis.switchArm]
      simp only [bind_assoc, pure_bind]
      refine Yields.after _ fun _ => (yields_blockIn _ body).bind fun bound here => ?_
      exact (yields_switchArms others).map fun _ there => by rw [arms, arms, arm, arm, here, there]

end

end Qalam.Branches

namespace Qalam

/-- No list of a program that was read is empty where it must not be. -/
theorem Program.branches_of_ofTokens {tokens : List Token} {program : Program}
    (read : Program.ofTokens tokens = .ok program) :
    ∀ n ∈ Branches.statements program.statements, 0 < n := by
  obtain ⟨rest, reads⟩ := Program.ofTokens_ok.mp read
  obtain ⟨used, -, sequence, -⟩ := Parser.manyUntil_accepts
    (Parser.statement_accepts (Parser.nested_accepts _).expression _) Grammar.Forms.ne_nil reads
  exact Branches.positive_of_forms (Parser.statements_of_sequence sequence)

/-- Binding leaves the lists as long as they are. -/
theorem Program.branches_of_bind {tokens : List Token} {program : Program} {bound : BoundProgram}
    (read : Program.ofTokens tokens = .ok program) (binds : program.bind = .ok bound) :
    ∀ n ∈ Branches.statements bound.program.statements, 0 < n := by
  obtain ⟨context, runs⟩ := Program.run_of_bind binds
  rw [Branches.yields_statements _ _ _ _ runs]
  exact Program.branches_of_ofTokens read

end Qalam
