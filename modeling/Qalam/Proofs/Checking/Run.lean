/-
# Runs over visits

What one visit does to the context, and when it fails. A run takes visits one after the other; it
relates the visits of the raw tree to those of the bound tree, and at each of them the surroundings
of the innermost frame say what the constructs around the visit are. Analysis follows some visits
if it runs over all of them, or over those before the one at which it stops.
-/

import Mathlib.Data.List.Forall2
import Qalam.Proofs.Checking.Expression
import Qalam.Proofs.Checking.Visit

namespace Qalam.Checking

open Analysis (Context)

/-- The surroundings of a frame say what the constructs around it are. -/
structure Agrees (around : List Construct) (surroundings : Surroundings) : Prop where
  loop : surroundings.inLoop = true ↔ Leavable around
  function : surroundings.inFunction.isSome = true ↔ .function ∈ around
  classBody : surroundings.inClass.isSome = true ↔ .classBody ∈ around

theorem agrees_outermost : Agrees [] .outermost := by
  constructor <;> simp [Surroundings.outermost, Leavable]

/-- What is filled in for a declared name. -/
inductive Fills (context : Context) : Origin → Origin → Prop
  | bare {constant : Bool} : Fills context (.variable constant none) (.variable constant none)
  | valued {constant : Bool} {e bound : Expr} (evaluates : Evaluates context e bound) :
      Fills context (.variable constant (some e)) (.variable constant (some bound))
  | parameter {tag : Option Tag} : Fills context (.parameter tag) (.parameter (some .any))
  | item : Fills context .item .item
  | function : Fills context .function .function
  | classDef : Fills context .classDef .classDef

/-- What an act does to the context if it succeeds, and what it becomes in the bound tree. -/
inductive Does (context : Context) : Act → Act → Context → Prop
  | opens (adjust : Surroundings → Surroundings) :
      Does context .opens .opens { context with scope := context.scope.enter adjust }
  | closes : Does context .closes .closes { context with scope := context.scope.exit }
  | declares {name : String} {pos : Position} {entity : Option EntityId} {origin filled : Origin}
      {scope : Scope} (fills : Fills context origin filled)
      (free : context.scope.declare? name ⟨context.entities.size⟩ = some scope) :
      Does context (.declares ⟨name, pos, entity, origin⟩)
        (.declares ⟨name, pos, some ⟨context.entities.size⟩, filled⟩)
        ⟨scope, (context.entities.alloc (filled.entity name)).2⟩
  | evaluates {requirement : Option Requirement} {e bound : Expr}
      (evaluates : Evaluates context e bound)
      (meets : ∀ demanded, requirement = some demanded → demanded.accepts bound.tag = true) :
      Does context (.evaluates requirement e) (.evaluates requirement bound) context
  | assigns {target value boundTarget boundValue : Expr}
      (first : Evaluates context target boundTarget) (second : Evaluates context value boundValue)
      (changes : Mutable context boundTarget) {final : Context}
      (retypes : Analysis.retype boundValue.tag boundTarget context = .ok ((), final)) :
      Does context (.assigns target value)
        (.assigns (boundTarget.withTag boundValue.tag) boundValue) final
  | leaves {jump : Jump} {pos : Position} (inside : context.scope.surroundings.inLoop = true) :
      Does context (.leaves jump pos) (.leaves jump pos) context
  | returns {pos : Position} (inside : context.scope.surroundings.inFunction.isSome = true) :
      Does context (.returns pos) (.returns pos) context

/-- The fault with which an act fails. -/
inductive Fails (context : Context) : Act → SemanticError → Prop
  | inside {act : Act} {x : Expr} {error : SemanticError} (mem : x ∈ act.parts)
      (refuses : Refuses context x error) : Fails context act error
  | taken {name : String} {pos : Position} {entity : Option EntityId} {origin : Origin}
      (taken : (context.scope.top.get? name).isSome = true) :
      Fails context (.declares ⟨name, pos, entity, origin⟩) ⟨.alreadyDeclared name, pos⟩
  | requirement {requirement : Requirement} {e bound : Expr}
      (evaluates : Evaluates context e bound) (breaks : requirement.accepts bound.tag = false) :
      Fails context (.evaluates (some requirement) e)
        ⟨.typeMismatch requirement bound.tag, e.pos⟩
  | constant {target value : Expr} {note : Note} {name : String} {id : EntityId} {entity : Entity}
      (evaluates : Evaluates context target (.ident note name (some id)))
      (known : context.entities.get? id = some entity) (constant : entity.isConstant = true) :
      Fails context (.assigns target value) ⟨.assignToConstant entity.name, target.pos⟩
  | leaves {jump : Jump} {pos : Position} (outside : context.scope.surroundings.inLoop = false) :
      Fails context (.leaves jump pos) ⟨.loopControlOutsideLoop, pos⟩
  | returns {pos : Position} (outside : context.scope.surroundings.inFunction.isSome = false) :
      Fails context (.returns pos) ⟨.returnOutsideFunction, pos⟩

/-- Visits of a raw tree and of the bound tree, done one after the other. -/
inductive Runs : List Visit → List Visit → Context → Context → Prop
  | nil {context : Context} : Runs [] [] context context
  | cons {around : List Construct} {raw bound : Act} {raws bounds : List Visit}
      {context middle final : Context} (agrees : Agrees around context.scope.surroundings)
      (does : Does context raw bound middle) (rest : Runs raws bounds middle final) :
      Runs (⟨around, raw⟩ :: raws) (⟨around, bound⟩ :: bounds) context final

namespace Runs

theorem append {first second bound bound' : List Visit} {context middle final : Context}
    (here : Runs first bound context middle) (there : Runs second bound' middle final) :
    Runs (first ++ second) (bound ++ bound') context final := by
  induction here with
  | nil => exact there
  | cons agrees does _ ih => exact .cons agrees does (ih there)

/-- A visit of the bound tree is done in the context that the visits before it lead to. -/
theorem exists_of_split {raws done done' : List Visit} {visit : Visit} {context final : Context}
    (runs : Runs raws (done ++ visit :: done') context final) :
    ∃ before raw later reached next, raws = before ++ ⟨visit.around, raw⟩ :: later ∧
      Runs before done context reached ∧ Agrees visit.around reached.scope.surroundings ∧
      Does reached raw visit.act next ∧ Runs later done' next final := by
  induction done generalizing raws context with
  | nil =>
      cases runs with
      | cons agrees does rest => exact ⟨[], _, _, _, _, rfl, .nil, agrees, does, rest⟩
  | cons first done ih =>
      cases runs with
      | cons agrees does rest =>
          obtain ⟨before, raw, later, reached, next, rfl, runs, there⟩ := ih rest
          exact ⟨_ :: before, raw, later, reached, next, rfl, .cons agrees does runs, there⟩

/-- Every bound visit of a run is done in a context that the run reaches. -/
theorem exists_of_mem {raws bounds : List Visit} {context final : Context}
    (runs : Runs raws bounds context final) {visit : Visit} (mem : visit ∈ bounds) :
    ∃ before done raw later done' reached next, raws = before ++ ⟨visit.around, raw⟩ :: later ∧
      Runs before done context reached ∧ Agrees visit.around reached.scope.surroundings ∧
      Does reached raw visit.act next ∧ Runs later done' next final := by
  obtain ⟨done, done', rfl⟩ := List.append_of_mem mem
  obtain ⟨before, raw, later, reached, next, here⟩ := runs.exists_of_split
  exact ⟨before, done, raw, later, done', reached, next, here⟩

/-- Every visit of the raw tree is done in a context that the run reaches. -/
theorem does_of_mem {raws bounds : List Visit} {context final : Context}
    (runs : Runs raws bounds context final) {visit : Visit} (mem : visit ∈ raws) :
    ∃ bound reached next, Agrees visit.around reached.scope.surroundings ∧
      Does reached visit.act bound next := by
  induction runs with
  | nil => cases mem
  | cons agrees does _ ih =>
      rcases List.mem_cons.mp mem with rfl | further
      · exact ⟨_, _, _, agrees, does⟩
      · exact ih further

end Runs

/-! ## The expressions of an act

A new tag on an expression concerns neither its operands nor the names in it. -/

theorem parts_withTag (e : Expr) (tag : Tag) :
    Parts.expr (e.withTag tag) = e.withTag tag :: (Parts.expr e).tail := by
  cases e <;> rfl

theorem note_withTag (e : Expr) (tag : Tag) : (e.withTag tag).note.tag = some tag := by
  cases e <;> rfl

theorem contracts_withTag (tagOf : Expr → Tag) (e : Expr) (tag : Tag) :
    (e.withTag tag).contracts tagOf = e.contracts tagOf := by
  cases e <;> rfl

theorem stored?_withTag (e : Expr) (tag : Tag) : (e.withTag tag).stored? = e.stored? := by
  cases e <;> rfl

theorem fields_withTag (e : Expr) (tag : Tag) : (e.withTag tag).fields = e.fields := by
  cases e <;> rfl

namespace Does

variable {context final : Context} {raw bound : Act}

/-- The expressions of an act that was done can be evaluated. -/
theorem known (does : Does context raw bound final) : ∀ x ∈ raw.parts, Known context x := by
  cases does with
  | opens | closes | leaves | returns => exact nofun
  | declares fills =>
      cases fills with
      | valued evaluates => exact evaluates.judged.known evaluates
      | _ => exact nofun
  | evaluates evaluates => exact evaluates.judged.known evaluates
  | assigns first second =>
      exact List.forall_mem_append.mpr ⟨first.judged.known first, second.judged.known second⟩

/-- The expressions of a bound act are accepted, with the exception of the target of an
assignment. -/
theorem accepted (does : Does context raw bound final) :
    ∀ x ∈ bound.values, Accepted context x := by
  cases does with
  | opens | closes | leaves | returns => exact nofun
  | declares fills =>
      cases fills with
      | valued evaluates => exact evaluates.judged.accepted
      | _ => exact nofun
  | evaluates evaluates => exact evaluates.judged.accepted
  | @assigns target value boundTarget boundValue first second =>
      rw [Act.values, parts_withTag, List.tail_cons, List.forall_mem_append]
      refine ⟨fun x mem => first.judged.accepted x ?_, second.judged.accepted⟩
      rw [parts_eq_cons]
      exact List.mem_cons_of_mem _ mem

/-- Every expression of a bound act is accepted, or would be with its own tag. -/
theorem exists_accepted (does : Does context raw bound final) {x : Expr} (mem : x ∈ bound.parts) :
    ∃ y, Accepted context y ∧ (x = y ∨ ∃ tag, x = y.withTag tag) := by
  have values := does.accepted
  cases does with
  | opens | closes | leaves | returns => cases mem
  | declares | evaluates => exact ⟨x, values x mem, .inl rfl⟩
  -- Of the sides of an assignment only the target itself has another tag than its own.
  | @assigns target value boundTarget boundValue first =>
      rw [Act.values, parts_withTag, List.tail_cons] at values
      rw [Act.parts, parts_withTag, List.cons_append, List.mem_cons] at mem
      rcases mem with rfl | inside
      · exact ⟨boundTarget, first.judged.accepted _ (Parts.mem_self _), .inr ⟨_, rfl⟩⟩
      · exact ⟨x, values x inside, .inl rfl⟩

/-- The names in a bound act carry the entities that they refer to. -/
theorem named (does : Does context raw bound final) {note : Note} {name : String}
    {entity : Option EntityId} (mem : .ident note name entity ∈ bound.parts) :
    ∃ id, entity = some id ∧ context.scope.resolve? name = some id := by
  obtain ⟨y, accepted, here | ⟨tag, here⟩⟩ := does.exists_accepted mem
  · obtain ⟨id, same, resolved, -⟩ := accepted.named _ _ _ here.symm
    exact ⟨id, same, resolved⟩
  · cases y with
    | ident note' name' entity' =>
        cases here
        obtain ⟨id, same, resolved, -⟩ := accepted.named _ _ _ rfl
        exact ⟨id, same, resolved⟩
    | _ => cases here

end Does

/-! ## Following visits -/

/-- The frames of a context belong to the given constructs, the innermost frame first. -/
def Contour (stack : List (List Construct)) (context : Context) : Prop :=
  List.Forall₂ (fun around frame => Agrees around frame.surroundings) stack context.scope.frames

/-- A run comes to a visit at which it stops. -/
def Stops (context : Context) (raws : List Visit) (error : SemanticError) : Prop :=
  ∃ before visit later done reached, raws = before ++ visit :: later ∧
    Runs before done context reached ∧ Agrees visit.around reached.scope.surroundings ∧
    Fails reached visit.act error

/-- An action of analysis is one act: it does it, and leads to frames of the given kind, or it fails
as the act does. -/
def Acts {α : Type} (context : Context) (stack : List (List Construct)) (action : Analysis α)
    (act : Act) (result : α → Act) : Prop :=
  match action context with
  | .ok (value, final) => Contour stack final ∧ Does context act (result value) final
  | .error error => Fails context act error

/-- An action of analysis runs over some visits, with a result that fits the bound ones, or stops
at one of them. It leads from frames of one kind to frames of another. -/
def Follows {α : Type} (stack stack' : List (List Construct)) (action : Analysis α)
    (raws : List Visit) (result : α → List Visit → Prop) : Prop :=
  ∀ context, Contour stack context → match action context with
    | .ok (value, final) =>
      Contour stack' final ∧ ∃ bounds, Runs raws bounds context final ∧ result value bounds
    | .error error => Stops context raws error

theorem Stops.append_right {context : Context} {first : List Visit} {error : SemanticError}
    (stops : Stops context first error) (second : List Visit) :
    Stops context (first ++ second) error := by
  obtain ⟨before, visit, later, done, reached, rfl, rest⟩ := stops
  exact ⟨before, visit, later ++ second, done, reached, by simp, rest⟩

theorem Stops.append_left {context middle : Context} {first bound second : List Visit}
    {error : SemanticError} (runs : Runs first bound context middle)
    (stops : Stops middle second error) : Stops context (first ++ second) error := by
  obtain ⟨before, visit, later, done, reached, rfl, reaches, rest⟩ := stops
  exact ⟨first ++ before, visit, later, bound ++ done, reached, by simp, runs.append reaches, rest⟩

namespace Acts

variable {α β : Type} {context : Context} {stack : List (List Construct)} {act : Act}

/-- A reading as the beginning of an act. -/
theorem reads {action : Analysis α} {next : α → Analysis β} {parts : List Expr} {good : α → Prop}
    {result : β → Act} (here : Reports context parts action good) (among : parts ⊆ act.parts)
    (there : ∀ value, action context = .ok (value, context) → good value →
      Acts context stack (next value) act result) :
    Acts context stack (action >>= next) act result := by
  unfold Reports at here
  change match Except.bind (action context) fun reached => next reached.1 reached.2 with
    | .ok (value, final) => Contour stack final ∧ Does context act (result value) final
    | .error error => Fails context act error
  cases reached : action context with
  | error error =>
      rw [reached] at here
      obtain ⟨x, mem, refuses⟩ := here
      exact .inside (among mem) refuses
  | ok pair =>
      obtain ⟨value, final⟩ := pair
      rw [reached] at here
      obtain ⟨rfl, holds⟩ := here
      exact there value reached holds

/-- An act of which only the result is changed. -/
theorem map {action : Analysis α} {change : α → β} {result : β → Act}
    (here : Acts context stack action act fun value => result (change value)) :
    Acts context stack (action >>= fun value => Pure.pure (change value)) act result := by
  unfold Acts at here
  change match Except.bind (action context) fun reached =>
      Except.ok (change reached.1, reached.2) with
    | .ok (value, final) => Contour stack final ∧ Does context act (result value) final
    | .error error => Fails context act error
  cases reached : action context with
  | error error =>
      rw [reached] at here
      exact here
  | ok pair =>
      rw [reached] at here
      exact here

/-- A check as the beginning of an act, which succeeds or makes the act fail. -/
theorem checks {action : Analysis α} {next : α → Analysis β} {result : β → Act}
    (here : (∃ value, action context = .ok (value, context) ∧
        Acts context stack (next value) act result) ∨
      ∃ error, action context = .error error ∧ Fails context act error) :
    Acts context stack (action >>= next) act result := by
  change match Except.bind (action context) fun reached => next reached.1 reached.2 with
    | .ok (value, final) => Contour stack final ∧ Does context act (result value) final
    | .error error => Fails context act error
  rcases here with ⟨value, runs, there⟩ | ⟨error, runs, fails⟩
  · rw [runs]
    exact there
  · rw [runs]
    exact fails

end Acts

namespace Follows

variable {α β : Type} {stack stack' stack'' : List (List Construct)} {action : Analysis α}
  {first second : List Visit} {middle : α → List Visit → Prop}

theorem pure {value : α} {result : α → List Visit → Prop} (fits : result value []) :
    Follows stack stack (Pure.pure value) [] result :=
  fun _ contour => ⟨contour, [], .nil, fits⟩

/-- Two actions one after the other follow their visits one after the other. -/
theorem bind {next : α → Analysis β} {result : β → List Visit → Prop}
    (here : Follows stack stack' action first middle)
    (there : ∀ value bounds, middle value bounds →
      Follows stack' stack'' (next value) second fun final more => result final (bounds ++ more)) :
    Follows stack stack'' (action >>= next) (first ++ second) result := by
  intro context contour
  have step := here context contour
  change match Except.bind (action context) fun reached => next reached.1 reached.2 with
    | .ok (value, final) => _
    | .error error => _
  cases reached : action context with
  | error error =>
      rw [reached] at step
      exact step.append_right second
  | ok pair =>
      obtain ⟨value, after⟩ := pair
      rw [reached] at step
      obtain ⟨contour, bounds, runs, fits⟩ := step
      have further := there value bounds fits after contour
      change match next value after with
        | .ok (value, final) => _
        | .error error => _
      cases finished : next value after with
      | error error =>
          rw [finished] at further
          exact Stops.append_left runs further
      | ok last =>
          obtain ⟨final, context'⟩ := last
          rw [finished] at further
          obtain ⟨contour, more, runs', whole⟩ := further
          exact ⟨contour, bounds ++ more, runs.append runs', whole⟩

/-- An action after which nothing more is visited. -/
theorem finish {next : α → Analysis β} {result : β → List Visit → Prop}
    (here : Follows stack stack' action first middle)
    (there : ∀ value bounds, middle value bounds →
      Follows stack' stack'' (next value) [] fun final more => result final (bounds ++ more)) :
    Follows stack stack'' (action >>= next) first result := by
  have whole : Follows stack stack'' (action >>= next) (first ++ []) result := here.bind there
  rwa [List.append_nil] at whole

/-- An action of which only the result is changed. -/
theorem map {change : α → β} {result : β → List Visit → Prop}
    (here : Follows stack stack' action first middle)
    (fits : ∀ value bounds, middle value bounds → result (change value) bounds) :
    Follows stack stack' (action >>= fun value => Pure.pure (change value)) first result :=
  here.finish fun value bounds holds => pure (by
    rw [List.append_nil]
    exact fits value bounds holds)

/-- An action whose result is a part that is present. -/
theorem present (here : Follows stack stack' action first middle) :
    Follows stack stack' (some <$> action) first fun found bounds =>
      ∃ value, found = some value ∧ middle value bounds :=
  here.map fun value _ holds => ⟨value, rfl, holds⟩

/-- An action that is one visit. -/
theorem single {around : List Construct} {rest : List (List Construct)} {act : Act}
    {result : α → Act}
    (acts : ∀ context, Contour (around :: rest) context →
      Acts context stack' action act result) :
    Follows (around :: rest) stack' action [⟨around, act⟩]
      fun value bounds => bounds = [⟨around, result value⟩] := by
  intro context contour
  have agrees : Agrees around context.scope.surroundings := by
    cases contour with
    | cons here _ => exact here
  have acted := acts context contour
  unfold Acts at acted
  cases reached : action context with
  | error error =>
      rw [reached] at acted
      exact ⟨[], _, [], [], context, rfl, .nil, agrees, acted⟩
  | ok pair =>
      rw [reached] at acted
      exact ⟨acted.1, _, .cons agrees acted.2 .nil, rfl⟩

end Follows

/-! ## The acts of analysis -/

/-- An adjustment of surroundings suits the construct that it is made for. -/
def Suits (construct : Construct) (adjust : Surroundings → Surroundings) : Prop :=
  ∀ around surroundings, Agrees around surroundings →
    Agrees (construct :: around) (adjust surroundings)

theorem suits_block : Suits .block id :=
  fun _ _ agrees => ⟨agrees.loop, by simpa using agrees.function, by simpa using agrees.classBody⟩

theorem suits_initialiser : Suits .initialiser id :=
  fun _ _ agrees => ⟨agrees.loop, by simpa using agrees.function, by simpa using agrees.classBody⟩

theorem suits_loop : Suits .loop Analysis.insideLoop :=
  fun _ _ agrees => ⟨by simp [Analysis.insideLoop, Leavable, Construct.isBoundary],
    by simpa [Analysis.insideLoop] using agrees.function,
    by simpa [Analysis.insideLoop] using agrees.classBody⟩

theorem suits_switchCase : Suits .switchCase Analysis.insideLoop :=
  fun _ _ agrees => ⟨by simp [Analysis.insideLoop, Leavable, Construct.isBoundary],
    by simpa [Analysis.insideLoop] using agrees.function,
    by simpa [Analysis.insideLoop] using agrees.classBody⟩

theorem suits_function (id : EntityId) : Suits .function (Analysis.insideFunction id) :=
  fun _ _ agrees => ⟨by simp [Analysis.insideFunction, Leavable, Construct.isBoundary],
    by simp [Analysis.insideFunction],
    by simpa [Analysis.insideFunction] using agrees.classBody⟩

theorem suits_classBody (id : EntityId) : Suits .classBody (Analysis.insideClass id) :=
  fun _ _ agrees => ⟨by simp [Analysis.insideClass, Leavable, Construct.isBoundary],
    by simpa [Analysis.insideClass] using agrees.function, by simp [Analysis.insideClass]⟩

namespace Follows

variable {around : List Construct} {rest : List (List Construct)}

theorem enter {construct : Construct} {adjust : Surroundings → Surroundings}
    (suits : Suits construct adjust) :
    Follows (around :: rest) ((construct :: around) :: around :: rest) (Analysis.enter adjust)
      [⟨around, .opens⟩] fun _ bounds => bounds = [⟨around, .opens⟩] := by
  refine single fun context contour => ⟨?_, .opens adjust⟩
  cases contour with
  | cons here below => exact .cons (suits _ _ here) (.cons here below)

theorem exit {inner : List Construct} :
    Follows (inner :: around :: rest) (around :: rest) Analysis.exit [⟨inner, .closes⟩]
      fun _ bounds => bounds = [⟨inner, .closes⟩] := by
  refine single fun context contour => ⟨?_, .closes⟩
  obtain ⟨⟨top, below⟩, entities⟩ := context
  cases contour with
  | cons _ others =>
      cases others with
      | cons here below => exact .cons here below

/-- Declaring a name changes no surroundings. -/
theorem contour_declare {stack : List (List Construct)} {context : Context} {name : String}
    {id : EntityId} {scope : Scope} {entities : Entities} (contour : Contour stack context)
    (declared : context.scope.declare? name id = some scope) : Contour stack ⟨scope, entities⟩ := by
  rw [Scope.declare?] at declared
  split at declared
  · cases declared
  · cases declared
    cases contour with
    | cons here below => exact .cons here below

/-- A name that cannot be declared is taken in the innermost frame. -/
theorem taken_of_declare {scope : Scope} {name : String} {id : EntityId}
    (refused : scope.declare? name id = none) : (scope.top.get? name).isSome = true := by
  rw [Scope.declare?] at refused
  split at refused
  · rename_i found
    rw [found]
    rfl
  · cases refused

/-- A declaration whose value, if any, is bound already. -/
theorem declares_of_fills {context : Context} {stack : List (List Construct)} {name : String}
    {pos : Position} {entity : Option EntityId} {origin filled : Origin}
    (contour : Contour stack context) (fills : Fills context origin filled) :
    Acts context stack (Analysis.declare pos (filled.entity name))
      (.declares ⟨name, pos, entity, origin⟩)
      fun id => .declares ⟨name, pos, some id, filled⟩ := by
  rw [Acts, Scoping.run_declare, Origin.name_entity]
  cases declared : context.scope.declare? name ⟨context.entities.size⟩ with
  | some scope => exact ⟨contour_declare contour declared, .declares fills declared⟩
  | none => exact .taken (taken_of_declare declared)

/-- A declaration without a value. -/
theorem declare (name : String) (pos : Position) (entity : Option EntityId)
    {origin filled : Origin} (fills : ∀ context, Fills context origin filled) :
    Follows (around :: rest) (around :: rest) (Analysis.declare pos (filled.entity name))
      [⟨around, .declares ⟨name, pos, entity, origin⟩⟩]
      fun id bounds => bounds = [⟨around, .declares ⟨name, pos, some id, filled⟩⟩] :=
  single fun context contour => declares_of_fills contour (fills context)

theorem declareBinding (name : Binding) (origin : Origin)
    (fills : ∀ context, Fills context origin origin) :
    Follows (around :: rest) (around :: rest)
      (Analysis.declareBinding name (origin.entity name.name)) [Visits.binding around name origin]
      fun bound bounds => bounds = [Visits.binding around bound origin] :=
  (declare name.name name.pos name.entity fills).map fun _ _ here => here

theorem parameters (params : List Parameter) :
    Follows (around :: rest) (around :: rest) (Analysis.parameters params)
      (Visits.parameters around params)
      fun bound bounds => bounds = Visits.parameters around bound := by
  induction params with
  | nil => exact pure rfl
  | cons param others ih =>
      have first : Follows (around :: rest) (around :: rest) (Analysis.parameter param)
          [⟨around, .declares (.ofParameter param)⟩]
          fun bound bounds => bounds = Visits.parameters around [bound] :=
        (declare param.name param.note.pos param.entity fun _ => .parameter).map
          fun _ _ here => here
      refine first.bind fun bound _ here => ih.map fun others _ there => ?_
      rw [here, there]
      rfl

end Follows

end Qalam.Checking
