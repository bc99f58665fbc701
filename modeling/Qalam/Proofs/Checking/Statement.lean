/-
# Analysis of statements follows the visits

Every construct of the language is followed: the actions of analysis run over the visits that the
walk over the construct gives. So an accepted program is a complete run from its visits to those
of the bound tree, and a refused one is a run up to the visit that fails.
-/

import Qalam.Proofs.Checking.Run

namespace Qalam.Checking

open Analysis (Context)

namespace Follows

variable {α : Type} {around : List Construct} {rest : List (List Construct)}

/-- An expression of which nothing is demanded. -/
theorem evaluate (e : Expr) :
    Follows (around :: rest) (around :: rest) (Analysis.expr e) [⟨around, .evaluates none e⟩]
      fun bound bounds => bounds = [⟨around, .evaluates none bound⟩] := by
  refine single fun context contour => ?_
  have whole : Acts context (around :: rest) (Analysis.expr e >>= fun bound => Pure.pure bound)
      (.evaluates none e) fun bound => .evaluates none bound :=
    Acts.reads (reports_expr context e) (List.Subset.refl _) fun bound found _ =>
      ⟨contour, .evaluates found nofun⟩
  rwa [bind_pure] at whole

/-- An expression that has to meet a requirement. -/
theorem require {next : Expr → Analysis α} {stack : List (List Construct)} {raws : List Visit}
    {result : α → List Visit → Prop} (requirement : Requirement) (e : Expr)
    (there : ∀ bound, Follows (around :: rest) stack (next bound) raws fun value bounds =>
      result value (⟨around, .evaluates (some requirement) bound⟩ :: bounds)) :
    Follows (around :: rest) stack
      (Analysis.expr e >>= fun bound => Analysis.require requirement bound >>= fun _ => next bound)
      (⟨around, .evaluates (some requirement) e⟩ :: raws) result := by
  have here : Follows (around :: rest) (around :: rest)
      (Analysis.expr e >>= fun bound =>
        Analysis.require requirement bound >>= fun _ => Pure.pure bound)
      [⟨around, .evaluates (some requirement) e⟩]
      fun bound bounds => bounds = [⟨around, .evaluates (some requirement) bound⟩] := by
    refine single fun context contour => ?_
    refine Acts.reads (reports_expr context e) (List.Subset.refl _) fun bound found judged => ?_
    refine Acts.map ?_
    change Acts context _ (demand (.meets requirement) bound) _ _
    rw [Acts, run_demand]
    cases kept : Contract.accepts (.meets requirement) bound.tag with
    | true =>
        refine ⟨contour, .evaluates found ?_⟩
        rintro _ ⟨⟩
        exact kept
    | false =>
        have fails := Fails.requirement found kept
        rw [← judged.pos] at fails
        exact fails
  have whole := here.bind fun bound bounds same => by
    subst same
    exact there bound
  simpa only [bind_assoc, pure_bind, List.singleton_append] using whole

/-- A variable that is declared after its value. -/
theorem initialise {next : Binding → Expr → Analysis α} {stack : List (List Construct)}
    {raws : List Visit} {result : α → List Visit → Prop} (constant : Bool) (name : Binding)
    (init : Expr)
    (there : ∀ bound value, Follows (around :: rest) stack (next bound value) raws
      fun final bounds =>
        result final (Visits.binding around bound (.variable constant (some value)) :: bounds)) :
    Follows (around :: rest) stack
      (Analysis.expr init >>= fun value =>
        Analysis.declareBinding name (.variable name.name constant value.tag) >>= fun bound =>
          next bound value)
      (Visits.binding around name (.variable constant (some init)) :: raws) result := by
  have here : Follows (around :: rest) (around :: rest)
      (Analysis.expr init >>= fun value =>
        Analysis.declareBinding name (.variable name.name constant value.tag) >>= fun bound =>
          Pure.pure (bound, value))
      [Visits.binding around name (.variable constant (some init))]
      fun pair bounds => bounds =
        [Visits.binding around pair.1 (.variable constant (some pair.2))] := by
    refine single fun context contour => ?_
    refine Acts.reads (reports_expr context init) (List.Subset.refl _) fun value found _ => ?_
    exact Acts.map (Acts.map (declares_of_fills contour (.valued found)))
  have whole := here.bind fun pair bounds same => by
    subst same
    exact there pair.1 pair.2
  simpa only [bind_assoc, pure_bind, List.singleton_append] using whole

theorem requireLoop (jump : Jump) (pos : Position) :
    Follows (around :: rest) (around :: rest) (Analysis.requireLoop pos)
      [⟨around, .leaves jump pos⟩] fun _ bounds => bounds = [⟨around, .leaves jump pos⟩] := by
  refine single fun context contour => ?_
  change Acts context _ (if _ then _ else _) _ _
  cases inside : context.scope.surroundings.inLoop with
  | true => exact ⟨contour, .leaves inside⟩
  | false => exact .leaves inside

theorem requireFunction (pos : Position) :
    Follows (around :: rest) (around :: rest) (Analysis.requireFunction pos)
      [⟨around, .returns pos⟩] fun _ bounds => bounds = [⟨around, .returns pos⟩] := by
  refine single fun context contour => ?_
  change Acts context _ (if _ then _ else _) _ _
  cases inside : context.scope.surroundings.inFunction with
  | some id => exact ⟨contour, .returns (by rw [inside]; rfl)⟩
  | none => exact .returns (by rw [inside]; rfl)

/-- Recording a tag touches no frame. -/
theorem run_retype (tag : Tag) (bound : Expr) (context : Context) :
    ∃ entities, Analysis.retype tag bound context = .ok ((), ⟨context.scope, entities⟩) := by
  unfold Analysis.retype
  split
  · exact ⟨_, rfl⟩
  · exact ⟨context.entities, rfl⟩

/-- The bound sides of an assignment. Both are evaluated before the target changes. -/
def assignment (target value : Expr) : Analysis (Expr × Expr) := do
  let target ← Analysis.expr target
  let value ← Analysis.expr value
  Analysis.requireMutable target
  Analysis.retype value.tag target
  return (target.withTag value.tag, value)

theorem assign (target value : Expr) :
    Follows (around :: rest) (around :: rest) (assignment target value)
      [⟨around, .assigns target value⟩]
      fun pair bounds => bounds = [⟨around, .assigns pair.1 pair.2⟩] := by
  refine single fun context contour => ?_
  refine Acts.reads (reports_expr context target) (by simp [Act.parts]) fun left found judged => ?_
  refine Acts.reads (reports_expr context value) (by simp [Act.parts]) fun right found' _ => ?_
  refine Acts.checks ?_
  rcases run_requireMutable context left with ⟨runs, changes⟩ | ⟨note, name, id, entity, rfl,
    known, constant, runs⟩
  · refine .inl ⟨(), runs, Acts.map ?_⟩
    obtain ⟨entities, retypes⟩ := run_retype right.tag left context
    rw [Acts, retypes]
    exact ⟨contour, .assigns found found' changes retypes⟩
  · refine .inr ⟨_, runs, ?_⟩
    rw [judged.pos]
    exact .constant found known constant

theorem declarator (constant : Bool) (name : Binding) : ∀ init : Option Expr,
    Follows (around :: rest) (around :: rest) (Analysis.declarator constant name init)
      [⟨around, .declares (.ofDeclarator constant (name, init))⟩]
      fun bound bounds => bounds = [⟨around, .declares (.ofDeclarator constant bound)⟩]
  | some init => by
      have same : Analysis.declarator constant name (some init) =
          Analysis.expr init >>= fun value =>
            Analysis.declareBinding name (.variable name.name constant value.tag) >>= fun bound =>
              Pure.pure (bound, some value) := by
        simp only [Analysis.declarator, Analysis.optional, bind_assoc, pure_bind]
      rw [same]
      exact initialise constant name init fun bound value => pure rfl
  | none => by
      have same : Analysis.declarator constant name none =
          Analysis.declareBinding name (.variable name.name constant .none) >>= fun bound =>
            Pure.pure (bound, none) := by
        simp only [Analysis.declarator, Analysis.optional, pure_bind]
      rw [same]
      exact (declareBinding name (.variable constant none) fun _ => .bare).map fun _ _ here => here

theorem declarators (constant : Bool) : ∀ entries : List (Binding × Option Expr),
    Follows (around :: rest) (around :: rest) (Analysis.declarators constant entries)
      (entries.map fun entry => ⟨around, .declares (.ofDeclarator constant entry)⟩)
      fun bound bounds => bounds =
        bound.map fun entry => ⟨around, .declares (.ofDeclarator constant entry)⟩
  | [] => pure rfl
  | (name, init) :: others =>
      (declarator constant name init).bind fun _ _ here =>
        (declarators constant others).map fun _ _ there => by rw [here, there]; rfl

/-! ## Statements -/

mutual

theorem statement (around : List Construct) (rest : List (List Construct)) : ∀ s : Statement,
    Follows (around :: rest) (around :: rest) (Analysis.statement s) (Visits.statement around s)
      fun bound bounds => bounds = Visits.statement around bound
  | .declare pos constant name init => by
      rw [Analysis.statement, Visits.statement]
      exact (declarator constant name init).map fun bound _ here => by rw [here, Visits.statement]
  | .declareAll pos constant entries => by
      rw [Analysis.statement, Visits.statement]
      exact (declarators constant entries).map fun bound _ here => by rw [here, Visits.statement]
  | .assign pos target value => by
      have same : Analysis.statement (.assign pos target value) =
          assignment target value >>= fun pair => Pure.pure (.assign pos pair.1 pair.2) := by
        simp only [Analysis.statement, assignment, bind_assoc, pure_bind]
      rw [same, Visits.statement]
      exact (assign target value).map fun pair _ here => by rw [here, Visits.statement]
  | .tryCatch pos body name handler => by
      rw [Analysis.statement, Visits.statement]
      refine (blockIn suits_block around rest body).bind fun boundBody _ here => ?_
      rw [Visits.framed, List.cons_append, List.cons_append]
      refine (enter suits_block).bind fun _ _ opened => ?_
      refine (declareBinding name .item fun _ => .item).bind fun boundName _ named => ?_
      refine (blockHere _ _ handler).bind fun boundHandler _ there => ?_
      refine exit.map fun _ _ closed => ?_
      rw [here, opened, named, there, closed, Visits.statement]
      rfl
  | .classDef pos name (some initialiser) bodyPos methods => by
      rw [Analysis.statement, Visits.statement, Visits.framed, List.cons_append, List.append_assoc]
      refine (declare name.name name.pos name.entity fun _ => .classDef).bind
        fun id _ named => ?_
      refine (enter (suits_classBody id)).bind fun _ _ opened => ?_
      refine (constructor _ _ initialiser).present.bind ?_
      rintro _ _ ⟨boundInitialiser, rfl, here⟩
      refine (functions _ _ methods).bind fun boundMethods _ there => ?_
      refine exit.map fun _ _ closed => ?_
      rw [named, opened, here, there, closed, Visits.statement, Visits.framed]
      simp [Visits.binding, Declaration.ofBinding]
  | .classDef pos name none bodyPos methods => by
      rw [Analysis.statement, Visits.statement, Visits.framed, List.cons_append]
      refine (declare name.name name.pos name.entity fun _ => .classDef).bind
        fun id _ named => ?_
      refine (enter (suits_classBody id)).bind fun _ _ opened => ?_
      dsimp only
      rw [pure_bind]
      refine (functions _ _ methods).bind fun boundMethods _ there => ?_
      refine exit.map fun _ _ closed => ?_
      rw [named, opened, there, closed, Visits.statement]
      rfl
  | .function declared => by
      rw [Analysis.statement, Visits.statement]
      exact (function around rest declared).map fun bound _ here => by rw [here, Visits.statement]
  | .ifElse pos alternatives (some otherwise) => by
      rw [Analysis.statement, Visits.statement]
      refine (ifArms around rest alternatives).bind fun bound _ here => ?_
      refine (blockIn suits_block around rest otherwise).present.finish ?_
      rintro _ _ ⟨boundOtherwise, rfl, there⟩
      exact pure (by rw [here, there, Visits.statement, List.append_nil])
  | .ifElse pos alternatives none => by
      rw [Analysis.statement, Visits.statement]
      refine (ifArms around rest alternatives).finish fun bound _ here => ?_
      dsimp only
      rw [pure_bind]
      exact pure (by rw [here, Visits.statement, List.append_nil])
  | .whileLoop pos condition body => by
      rw [Analysis.statement, Visits.statement]
      refine require .boolean condition fun test => ?_
      exact (blockIn suits_loop around rest body).map fun inner _ there => by
        rw [there, Visits.statement]
  | .forLoop pos name init condition step body => by
      rw [Analysis.statement, Visits.statement, Visits.framed]
      simp only [List.cons_append]
      refine (enter suits_loop).bind fun _ _ opened => ?_
      refine initialise false name init fun boundName boundInit => ?_
      refine require .boolean condition fun test => ?_
      refine (evaluate step).bind fun boundStep _ stepped => ?_
      refine (blockIn suits_block _ _ body).bind fun boundBody _ inner => ?_
      refine exit.map fun _ _ closed => ?_
      rw [opened, stepped, inner, closed, Visits.statement]
      simp [Visits.framed]
  | .forOf pos name iterable body => by
      rw [Analysis.statement, Visits.statement]
      refine require .iterable iterable fun boundIterable => ?_
      rw [Visits.framed, List.cons_append, List.cons_append]
      refine (enter suits_loop).bind fun _ _ opened => ?_
      refine (declareBinding name .item fun _ => .item).bind fun boundName _ named => ?_
      refine (blockHere _ _ body).bind fun boundBody _ there => ?_
      refine exit.map fun _ _ closed => ?_
      rw [opened, named, there, closed, Visits.statement]
      rfl
  | .switch pos selector alternatives (some otherwise) => by
      rw [Analysis.statement, Visits.statement]
      refine (evaluate selector).bind fun boundSelector _ first => ?_
      refine (switchArms around rest alternatives).bind fun bound _ here => ?_
      refine (blockIn suits_switchCase around rest otherwise).present.finish ?_
      rintro _ _ ⟨boundOtherwise, rfl, there⟩
      exact pure (by rw [first, here, there, Visits.statement, List.append_nil]; rfl)
  | .switch pos selector alternatives none => by
      rw [Analysis.statement, Visits.statement]
      refine (evaluate selector).bind fun boundSelector _ first => ?_
      refine (switchArms around rest alternatives).finish fun bound _ here => ?_
      dsimp only
      rw [pure_bind]
      exact pure (by rw [first, here, Visits.statement, List.append_nil]; rfl)
  | .returns pos (some value) => by
      rw [Analysis.statement, Visits.statement]
      refine (requireFunction pos).bind fun _ _ allowed => ?_
      exact (evaluate value).map fun bound _ here => by
        rw [allowed, here, Visits.statement]
        rfl
  | .returns pos none => by
      rw [Analysis.statement, Visits.statement]
      exact (requireFunction pos).map fun _ _ allowed => by
        rw [allowed, Visits.statement]
        rfl
  | .print pos argument => by
      rw [Analysis.statement, Visits.statement]
      exact (evaluate argument).map fun bound _ here => by rw [here, Visits.statement]
  | .breakLoop pos => by
      rw [Analysis.statement, Visits.statement]
      exact (requireLoop .breakLoop pos).map fun _ _ here => by rw [here, Visits.statement]
  | .continueLoop pos => by
      rw [Analysis.statement, Visits.statement]
      exact (requireLoop .continueLoop pos).map fun _ _ here => by rw [here, Visits.statement]
  | .expr pos e => by
      rw [Analysis.statement, Visits.statement]
      exact (evaluate e).map fun bound _ here => by rw [here, Visits.statement]

theorem statements (around : List Construct) (rest : List (List Construct)) :
    ∀ body : List Statement, Follows (around :: rest) (around :: rest) (Analysis.statements body)
      (Visits.statements around body) fun bound bounds => bounds = Visits.statements around bound
  | [] => pure rfl
  | first :: others => by
      rw [Analysis.statements, Visits.statements]
      refine (statement around rest first).bind fun bound _ here => ?_
      exact (statements around rest others).map fun rest _ there => by
        rw [here, there, Visits.statements]

theorem blockHere (around : List Construct) (rest : List (List Construct)) : ∀ body : Block,
    Follows (around :: rest) (around :: rest) (Analysis.blockHere body) (Visits.block around body)
      fun bound bounds => bounds = Visits.block around bound
  | .mk pos body => by
      rw [Analysis.blockHere, Visits.block]
      exact (statements around rest body).map fun bound _ here => by rw [here, Visits.block]

theorem blockIn {construct : Construct} {adjust : Surroundings → Surroundings}
    (suits : Suits construct adjust) (around : List Construct) (rest : List (List Construct)) :
    ∀ body : Block, Follows (around :: rest) (around :: rest) (Analysis.blockIn adjust body)
      (Visits.framed construct around (Visits.block (construct :: around) body))
      fun bound bounds =>
        bounds = Visits.framed construct around (Visits.block (construct :: around) bound)
  | .mk pos body => by
      rw [Analysis.blockIn, Visits.block, Visits.framed, List.cons_append]
      refine (enter suits).bind fun _ _ opened => ?_
      refine (statements _ _ body).bind fun bound _ here => ?_
      refine exit.map fun _ _ closed => ?_
      rw [opened, here, closed, Visits.block]
      rfl

theorem function (around : List Construct) (rest : List (List Construct)) :
    ∀ declared : Function, Follows (around :: rest) (around :: rest) (Analysis.function declared)
      (Visits.function around declared) fun bound bounds => bounds = Visits.function around bound
  | .mk pos name params body => by
      rw [Analysis.function, Visits.function, Visits.framed, List.cons_append, List.append_assoc]
      refine (declare name.name name.pos name.entity fun _ => .function).bind
        fun id _ named => ?_
      refine (enter (suits_function id)).bind fun _ _ opened => ?_
      refine (parameters params).bind fun boundParams _ first => ?_
      refine (blockHere _ _ body).bind fun boundBody _ second => ?_
      refine exit.map fun _ _ closed => ?_
      rw [named, opened, first, second, closed, Visits.function, Visits.framed]
      simp [Visits.binding, Declaration.ofBinding]

theorem functions (around : List Construct) (rest : List (List Construct)) :
    ∀ members : List Function, Follows (around :: rest) (around :: rest)
      (Analysis.functions members) (Visits.functions around members)
      fun bound bounds => bounds = Visits.functions around bound
  | [] => pure rfl
  | first :: others => by
      rw [Analysis.functions, Visits.functions]
      refine (function around rest first).bind fun bound _ here => ?_
      exact (functions around rest others).map fun rest _ there => by
        rw [here, there, Visits.functions]

theorem constructor (around : List Construct) (rest : List (List Construct)) :
    ∀ initialiser : Constructor, Follows (around :: rest) (around :: rest)
      (Analysis.constructor initialiser) (Visits.constructor around initialiser)
      fun bound bounds => bounds = Visits.constructor around bound
  | .mk pos params body => by
      rw [Analysis.constructor, Visits.constructor, Visits.framed, List.cons_append,
        List.append_assoc]
      refine (enter suits_initialiser).bind fun _ _ opened => ?_
      refine (parameters params).bind fun boundParams _ first => ?_
      refine (blockHere _ _ body).bind fun boundBody _ second => ?_
      refine exit.map fun _ _ closed => ?_
      rw [opened, first, second, closed, Visits.constructor, Visits.framed]
      simp

theorem ifArms (around : List Construct) (rest : List (List Construct)) :
    ∀ alternatives : List Arm, Follows (around :: rest) (around :: rest)
      (Analysis.ifArms alternatives) (Visits.arms (some .boolean) .block around alternatives)
      fun bound bounds => bounds = Visits.arms (some .boolean) .block around bound
  | [] => pure rfl
  | first :: others => by
      rw [Analysis.ifArms, Visits.arms]
      refine (ifArm around rest first).bind fun bound _ here => ?_
      exact (ifArms around rest others).map fun rest _ there => by rw [here, there, Visits.arms]

theorem ifArm (around : List Construct) (rest : List (List Construct)) :
    ∀ alternative : Arm, Follows (around :: rest) (around :: rest) (Analysis.ifArm alternative)
      (Visits.arm (some .boolean) .block around alternative)
      fun bound bounds => bounds = Visits.arm (some .boolean) .block around bound
  | .mk pos condition body => by
      rw [Analysis.ifArm, Visits.arm]
      refine require .boolean condition fun test => ?_
      exact (blockIn suits_block around rest body).map fun inner _ there => by
        rw [there, Visits.arm]

theorem switchArms (around : List Construct) (rest : List (List Construct)) :
    ∀ alternatives : List Arm, Follows (around :: rest) (around :: rest)
      (Analysis.switchArms alternatives) (Visits.arms none .switchCase around alternatives)
      fun bound bounds => bounds = Visits.arms none .switchCase around bound
  | [] => pure rfl
  | first :: others => by
      rw [Analysis.switchArms, Visits.arms]
      refine (switchArm around rest first).bind fun bound _ here => ?_
      exact (switchArms around rest others).map fun rest _ there => by
        rw [here, there, Visits.arms]

theorem switchArm (around : List Construct) (rest : List (List Construct)) :
    ∀ alternative : Arm, Follows (around :: rest) (around :: rest)
      (Analysis.switchArm alternative) (Visits.arm none .switchCase around alternative)
      fun bound bounds => bounds = Visits.arm none .switchCase around bound
  | .mk pos test body => by
      rw [Analysis.switchArm, Visits.arm]
      refine (evaluate test).bind fun bound _ here => ?_
      exact (blockIn suits_switchCase around rest body).map fun inner _ there => by
        rw [here, there, Visits.arm]
        rfl

end

end Follows

end Qalam.Checking

namespace Qalam

open Checking

theorem Program.follows (program : Program) :
    match Analysis.statements program.statements .initial with
    | .ok (body, final) =>
      Runs program.visits (Visits.statements [] body) .initial final
    | .error error => Stops .initial program.visits error := by
  have outermost : Contour [[]] .initial := .cons agrees_outermost .nil
  have followed := Follows.statements [] [] program.statements .initial outermost
  cases ended : Analysis.statements program.statements .initial with
  | error error =>
      rw [ended] at followed
      exact followed
  | ok pair =>
      rw [ended] at followed
      obtain ⟨-, bounds, runs, rfl⟩ := followed
      exact runs

/-- An accepted program is a run from its visits to those of the bound tree. -/
theorem Program.runs_of_bind {program : Program} {bound : BoundProgram}
    (binds : program.bind = .ok bound) :
    ∃ scope, Runs program.visits bound.program.visits .initial ⟨scope, bound.entities⟩ := by
  have followed := program.follows
  rw [Program.bind, StateT.run] at binds
  cases ended : Analysis.statements program.statements .initial with
  | error error =>
      rw [ended] at binds
      cases binds
  | ok pair =>
      rw [ended] at binds followed
      cases binds
      exact ⟨pair.2.scope, followed⟩

/-- A refused program is a run up to the visit that fails. -/
theorem Program.stops_of_bind {program : Program} {error : SemanticError}
    (refused : program.bind = .error error) : Stops .initial program.visits error := by
  have followed := program.follows
  rw [Program.bind, StateT.run] at refused
  cases ended : Analysis.statements program.statements .initial with
  | error error =>
      rw [ended] at refused followed
      cases refused
      exact followed
  | ok pair =>
      rw [ended] at refused
      cases refused

end Qalam
