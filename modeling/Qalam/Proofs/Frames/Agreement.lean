/-
# The two analyses agree

An analyzer binds a program to the same tree and the same entities as analysis on a plain scope, or
finds the same fault, and it always comes to an end with one or the other. A context of analysis is
read as an analyzer in which no mode is set; every action of the analyzer then does what its
counterpart does.

Two things need more than that. The parameters of a function are bound while their mode is set, so
actions are compared from one mode to another. And an expression may be read in a frame more than
on the other side, that of an index; but all it asks of a scope is what names and which class are
around it, and an empty frame changes neither.
-/

import Qalam.Proofs.Frames.Balance
import Qalam.Proofs.Scoping.Trace

namespace Qalam

open Analysis (Context)

/-- A scope as a stack of frames with modes. None is set, except that plain names may declare
parameters in the innermost frame. -/
def Scope.moded (binding : Bool) (scope : Scope) : Stack Flags :=
  ⟨⟨scope.top.symbols, ⟨scope.top.surroundings, binding, false⟩⟩,
    scope.below.map fun frame => ⟨frame.symbols, ⟨frame.surroundings, false, false⟩⟩⟩

/-- A context as an analyzer. -/
def Analysis.Context.analyzer (binding : Bool) (context : Context) : Analyzer :=
  ⟨(context.scope.moded binding).arena, context.entities⟩

theorem Scope.resolve?_moded (binding : Bool) (scope : Scope) (name : String) :
    (scope.moded binding).resolve? name = scope.resolve? name := by
  simp only [Stack.resolve?, Stack.layers, moded, resolve?, frames, List.findSome?_cons,
    List.findSome?_map]
  rfl

namespace Analyzer

variable {α β : Type}

/-! ## What actions do to a stack -/

theorem run_access {work : Arena Flags → Option (α × Arena Flags)} {state : Analyzer} {value : α}
    {scopes : Arena Flags} (works : work state.scopes = some (value, scopes)) :
    ((access work).run state).run = some (.ok (value, { state with scopes })) := by
  change Option.map _ (work state.scopes) = _
  rw [works]
  rfl

theorem run_flags (stack : Stack Flags) (entities : Entities) :
    (flags.run ⟨stack.arena, entities⟩).run =
      some (.ok (stack.top.flags, ⟨stack.arena, entities⟩)) :=
  run_access (congrArg (Option.map fun slot => (slot.flags, stack.arena)) (Arena.here?_arena stack))

theorem run_flags_analyzer (binding : Bool) (context : Context) :
    (flags.run (context.analyzer binding)).run =
      some (.ok (⟨context.scope.surroundings, binding, false⟩, context.analyzer binding)) :=
  run_flags (context.scope.moded binding) context.entities

theorem run_enter (adjust : Flags → Flags) (stack : Stack Flags) (entities : Entities) :
    ((enter adjust).run ⟨stack.arena, entities⟩).run =
      some (.ok ((), ⟨(stack.enter adjust).arena, entities⟩)) :=
  run_access (congrArg (Option.map fun scopes => ((), scopes)) (Arena.enter?_arena stack adjust))

theorem run_exit (stack : Stack Flags) (entities : Entities) :
    (exit.run ⟨stack.arena, entities⟩).run = some (.ok ((), ⟨stack.exit.arena, entities⟩)) :=
  run_access (congrArg (Option.map fun scopes => ((), scopes)) (Arena.exit?_arena stack))

theorem run_get_bind (next : Analyzer → Analyzing α) (state : Analyzer) :
    ((MonadState.get >>= next).run state).run = ((next state).run state).run := rfl

theorem run_set_bind (next : PUnit → Analyzing α) (state later : Analyzer) :
    ((MonadStateOf.set later >>= next).run state).run = ((next ⟨⟩).run later).run := rfl

theorem run_declare (pos : Position) (entity : Entity) (stack : Stack Flags)
    (entities : Entities) :
    ((declare pos entity).run ⟨stack.arena, entities⟩).run =
      match stack.top.get? entity.name with
      | some _ => some (.error ⟨.alreadyDeclared entity.name, pos⟩)
      | none => some (.ok ((entities.alloc entity).1,
          ⟨(stack.put (stack.top.add entity.name (entities.alloc entity).1)).arena,
            (entities.alloc entity).2⟩)) := by
  have declares := Arena.declare?_arena stack entity.name (entities.alloc entity).1
  rw [declare, run_get_bind]
  dsimp only
  rw [run_set_bind]
  cases taken : stack.top.get? entity.name with
  | some id =>
      rw [taken] at declares
      rw [run_bind, run_access declares]
      rfl
  | none =>
      rw [taken] at declares
      rw [run_bind, run_access declares]
      rfl

/-- A plain name outside all modes is looked up. -/
theorem run_identifier (name : String) (pos : Position) (entity : Option EntityId)
    {stack : Stack Flags} (entities : Entities)
    (binding : stack.top.flags.bindingParameters = false)
    (field : stack.top.flags.insidePropertyAccess = false) :
    ((identifier name pos entity).run ⟨stack.arena, entities⟩).run =
      some (match stack.resolve? name with
        | some id => .ok ((some id, ((entities.get? id).map Entity.tag).getD .any),
            ⟨stack.arena, entities⟩)
        | none => .error ⟨.notDeclared name, pos⟩) := by
  rw [identifier, run_bind, run_flags]
  simp only [binding, field, Bool.false_eq_true, if_false]
  rw [run_bind, run_access
    (congrArg (Option.map fun found => (found, stack.arena)) (Arena.resolve?_arena stack name))]
  dsimp only
  cases stack.resolve? name <;> rfl

/-- The name of a field is left alone, and its frame is gone again. -/
theorem run_fieldName (name : String) (pos : Position) (entity : Option EntityId)
    {stack : Stack Flags} (entities : Entities)
    (binding : stack.top.flags.bindingParameters = false) :
    ((fieldName name pos entity).run ⟨stack.arena, entities⟩).run =
      some (.ok ((entity, .any), ⟨stack.arena, entities⟩)) := by
  have inner : ((identifier name pos entity).run
      ⟨(stack.enter ({ · with insidePropertyAccess := true })).arena, entities⟩).run =
      some (.ok ((entity, .any),
        ⟨(stack.enter ({ · with insidePropertyAccess := true })).arena, entities⟩)) := by
    rw [identifier, run_bind, run_flags]
    simp only [Stack.enter, binding, Bool.false_eq_true, if_false, if_true]
    rfl
  rw [fieldName, run_bind, run_enter]
  dsimp only
  rw [run_bind, inner]
  dsimp only
  rw [run_bind, run_exit]
  rfl

theorem run_field (name : Field) {stack : Stack Flags} (entities : Entities)
    (binding : stack.top.flags.bindingParameters = false) :
    ((field name).run ⟨stack.arena, entities⟩).run =
      some (.ok (Analysis.field name, ⟨stack.arena, entities⟩)) := by
  rw [field, run_bind, run_fieldName name.name name.note.pos none entities binding]
  rfl

/-! ## Checks -/

/-- What one step of analysis after another does to a context. -/
theorem apply_bind (rule : Analysis α) (next : α → Analysis β) (context : Context) :
    (rule >>= next) context =
      match rule context with
      | .error error => .error error
      | .ok (value, middle) => next value middle := by
  change Except.bind (rule context) _ = _
  cases rule context <;> rfl

/-- A rule depends on the entities alone and keeps the scope. -/
def Local (rule : Analysis α) : Prop :=
  ∀ entities, ∃ outcome : Except SemanticError (α × Entities), ∀ scope,
    rule ⟨scope, entities⟩ = outcome.map fun reached => (reached.1, ⟨scope, reached.2⟩)

namespace Local

variable {rule : Analysis α} {next : α → Analysis β}

theorem pure (value : α) : Local (pure value : Analysis α) :=
  fun entities => ⟨.ok (value, entities), fun _ => rfl⟩

theorem failAt (fault : SemanticFault) (pos : Position) :
    Local (Analysis.failAt fault pos : Analysis α) :=
  fun _ => ⟨.error ⟨fault, pos⟩, fun _ => rfl⟩

theorem bind (here : Local rule) (there : ∀ value, Local (next value)) :
    Local (rule >>= next) := by
  intro entities
  obtain ⟨outcome, same⟩ := here entities
  cases outcome with
  | error error => exact ⟨.error error, fun scope => by rw [apply_bind, same]; rfl⟩
  | ok reached =>
      obtain ⟨outcome, same'⟩ := there reached.1 reached.2
      exact ⟨outcome, fun scope => by rw [apply_bind, same]; exact same' scope⟩

theorem ite {condition : Prop} [Decidable condition] {no : Analysis α}
    (yes : Local rule) (other : Local no) : Local (if condition then rule else no) := by
  split
  · exact yes
  · exact other

theorem require (requirement : Requirement) (e : Expr) : Local (Analysis.require requirement e) :=
  ite (failAt _ _) (pure _)

theorem requireCallable (e : Expr) : Local (Analysis.requireCallable e) :=
  ite (failAt _ _) (pure _)

theorem requireClassReference (e : Expr) : Local (Analysis.requireClassReference e) :=
  ite (failAt _ _) (pure _)

theorem distinctKey (seen : List String) (entry : Pair) :
    Local (Analysis.distinctKey seen entry) := by
  cases entry
  exact ite (failAt _ _) (pure _)

/-- The entities may be read, as long as the scope has no influence on what follows. -/
theorem get {rest : Context → Analysis α}
    (there : ∀ entities, ∃ rule, Local rule ∧ ∀ scope, rest ⟨scope, entities⟩ = rule) :
    Local (MonadState.get >>= rest) := by
  intro entities
  obtain ⟨rule, here, same⟩ := there entities
  obtain ⟨outcome, result⟩ := here entities
  refine ⟨outcome, fun scope => ?_⟩
  change rest ⟨scope, entities⟩ ⟨scope, entities⟩ = _
  rw [same, result]

theorem requireMutable (e : Expr) : Local (Analysis.requireMutable e) := by
  unfold Analysis.requireMutable
  split
  · rename_i note name id
    refine get fun entities => ?_
    cases found : entities.get? id with
    | none => exact ⟨_, pure (), fun scope => by simp only [found]⟩
    | some entity => exact ⟨_, ite (failAt _ _) (pure ()), fun scope => by simp only [found]; rfl⟩
  · exact pure _

theorem retype (tag : Tag) (e : Expr) : Local (Analysis.retype tag e) := by
  unfold Analysis.retype
  split
  · rename_i note name id
    exact fun entities => ⟨.ok ((), entities.retype id tag), fun _ => rfl⟩
  · exact pure _

theorem binaryTag (op : BinaryOp) (left right : Expr) :
    Local (Analysis.binaryTag op left right) := by
  have numbers : ∀ tag : Tag, Local (do
      Analysis.require .number left
      Analysis.require .number right
      return tag) :=
    fun _ => (require _ _).bind fun _ => (require _ _).bind fun _ => pure _
  cases op with
  | addAssign => exact (requireMutable left).bind fun _ => pure _
  | subAssign => exact (requireMutable left).bind fun _ => numbers _
  | sub | mul | div | mod | pow => exact numbers _
  | _ => exact pure _

theorem unaryTag (op : UnaryOp) (operand : Expr) : Local (Analysis.unaryTag op operand) := by
  cases op with
  | increment | decrement =>
      exact (requireMutable operand).bind fun _ => (require _ _).bind fun _ => pure _
  | _ => exact (require _ _).bind fun _ => pure _

end Local

/-! ## Expressions -/

/-- A stack in which no mode is set shows the same names and the same class as a scope. -/
structure Shows (stack : Stack Flags) (scope : Scope) : Prop where
  names : ∀ name, stack.resolve? name = scope.resolve? name
  inClass : stack.top.flags.inClass = scope.surroundings.inClass
  binding : stack.top.flags.bindingParameters = false
  field : stack.top.flags.insidePropertyAccess = false

theorem shows_moded (scope : Scope) : Shows (scope.moded false) scope :=
  ⟨scope.resolve?_moded false, rfl, rfl, rfl⟩

/-- A frame for an index shows what is around it. -/
theorem Shows.entered {stack : Stack Flags} {scope : Scope} (shows_ : Shows stack scope) :
    Shows (stack.enter ({ · with insidePropertyAccess := false })) scope :=
  ⟨shows_.names, shows_.inClass, shows_.binding, rfl⟩

/-- An action has the outcome of a rule wherever its stack shows what the scope shows, and neither
of the two changes its frames. -/
def Reads (action : Analyzing α) (rule : Analysis α) : Prop :=
  ∀ ⦃stack scope⦄ entities, Shows stack scope →
    ∃ outcome : Except SemanticError (α × Entities),
      (action.run ⟨stack.arena, entities⟩).run =
        some (outcome.map fun reached => (reached.1, ⟨stack.arena, reached.2⟩)) ∧
      rule ⟨scope, entities⟩ = outcome.map fun reached => (reached.1, ⟨scope, reached.2⟩)

namespace Reads

variable {action : Analyzing α} {rule : Analysis α} {next : α → Analyzing β}
  {next' : α → Analysis β} {rest : Analysis β}

theorem pure (value : α) : Reads (pure value) (pure value) :=
  fun _ _ entities _ => ⟨.ok (value, entities), rfl, rfl⟩

theorem bind (here : Reads action rule) (there : ∀ value, Reads (next value) (next' value)) :
    Reads (action >>= next) (rule >>= next') := by
  intro stack scope entities shows_
  obtain ⟨outcome, runs, same⟩ := here entities shows_
  rw [run_bind, apply_bind, runs, same]
  cases outcome with
  | error error => exact ⟨.error error, rfl, rfl⟩
  | ok reached => exact there reached.1 reached.2 shows_

/-- The action takes a step that only fills in a value. -/
theorem extra (value : α)
    (fills : ∀ ⦃stack : Stack Flags⦄ (entities : Entities), stack.top.flags.bindingParameters = false →
      (action.run ⟨stack.arena, entities⟩).run = some (.ok (value, ⟨stack.arena, entities⟩)))
    (there : Reads (next value) rest) : Reads (action >>= next) rest := by
  intro stack scope entities shows_
  rw [run_bind, fills entities shows_.binding]
  exact there entities shows_

theorem check (scopeless : Local rule) : Reads (check rule) rule := by
  intro stack scope entities shows_
  obtain ⟨outcome, same⟩ := scopeless entities
  refine ⟨outcome, ?_, same scope⟩
  change some (Except.map _ (rule ⟨.root, entities⟩)) = _
  rw [same]
  cases outcome <;> rfl

theorem requireClass (pos : Position) :
    Reads (requireClass pos) (Analysis.requireClass pos) := by
  intro stack scope entities shows_
  refine ⟨if scope.surroundings.inClass.isNone then .error ⟨.thisOutsideClass, pos⟩
    else .ok ((), entities), ?_, ?_⟩
  · rw [Analyzer.requireClass, run_bind, run_flags]
    dsimp only
    rw [shows_.inClass]
    cases scope.surroundings.inClass.isNone <;> rfl
  · change (if scope.surroundings.inClass.isNone = true then _ else _ : Analysis Unit) _ = _
    cases scope.surroundings.inClass.isNone <;> rfl

mutual

theorem expr : ∀ e : Expr, Reads (Analyzer.expr e) (Analysis.expr e)
  | .literal note value => by
      rw [Analyzer.expr, Analysis.expr]
      exact pure _
  | .ident note name entity => by
      intro stack scope entities shows_
      rw [Analyzer.expr, Analysis.expr, run_bind, apply_bind, Scoping.run_resolve,
        run_identifier name note.pos entity entities shows_.binding shows_.field, shows_.names]
      cases scope.resolve? name with
      | none => exact ⟨.error _, rfl, rfl⟩
      | some id => exact ⟨.ok (_, entities), rfl, rfl⟩
  | .call note callee args => by
      rw [Analyzer.expr, Analysis.expr]
      refine (expr callee).bind fun bound => (check (.requireCallable bound)).bind fun _ => ?_
      exact (exprs args).bind fun _ => pure _
  | .this note name => by
      rw [Analyzer.expr, Analysis.expr]
      refine (requireClass note.pos).bind fun _ => ?_
      exact extra (Analysis.field name) (fun _ => run_field name) (pure _)
  | .new note target args => by
      rw [Analyzer.expr, Analysis.expr]
      refine (expr target).bind fun bound => (check (.requireClassReference bound)).bind fun _ => ?_
      exact (exprs args).bind fun _ => pure _
  | .typeOf note operand => by
      rw [Analyzer.expr, Analysis.expr]
      exact (expr operand).bind fun _ => pure _
  | .ternary note condition yes no => by
      rw [Analyzer.expr, Analysis.expr]
      refine (expr condition).bind fun bound => (check (.require _ bound)).bind fun _ => ?_
      exact (expr yes).bind fun _ => (expr no).bind fun _ => pure _
  | .binary note op left right => by
      rw [Analyzer.expr, Analysis.expr]
      refine (expr left).bind fun boundLeft => (expr right).bind fun boundRight => ?_
      exact (check (.binaryTag op boundLeft boundRight)).bind fun _ => pure _
  | .unary note op side operand => by
      rw [Analyzer.expr, Analysis.expr]
      exact (expr operand).bind fun bound => (check (.unaryTag op bound)).bind fun _ => pure _
  | .array note elements => by
      rw [Analyzer.expr, Analysis.expr]
      exact (exprs elements).bind fun _ => pure _
  | .object note entries => by
      rw [Analyzer.expr, Analysis.expr]
      exact (pairs [] entries).bind fun _ => pure _
  | .member note base index => by
      rw [Analyzer.expr, Analysis.expr]
      refine (expr base).bind fun bound => (check (.require _ bound)).bind fun _ => ?_
      -- behind the index its frame is gone and the two sides show the same again
      intro stack scope entities shows_
      obtain ⟨outcome, runs, same⟩ := expr index entities shows_.entered
      rw [run_bind, run_enter]
      dsimp only
      rw [run_bind, apply_bind, runs, same]
      cases outcome with
      | error error => exact ⟨.error error, rfl, rfl⟩
      | ok reached =>
          dsimp only [Except.map]
          rw [run_bind, run_exit]
          have last : Reads (do
              if bound.tag = .array then Analyzer.check (Analysis.require .integer reached.1)
              return Expr.member { note with tag := some .any } bound reached.1) (do
              if bound.tag = .array then Analysis.require .integer reached.1
              return Expr.member { note with tag := some .any } bound reached.1) := by
            split
            · exact (check (.require _ reached.1)).bind fun _ => pure _
            · exact pure _
          exact last reached.2 shows_
  | .property note base name => by
      rw [Analyzer.expr, Analysis.expr]
      refine (expr base).bind fun bound => (check (.require _ bound)).bind fun _ => ?_
      exact extra (Analysis.field name) (fun _ => run_field name) (pure _)

theorem exprs : ∀ es : List Expr, Reads (Analyzer.exprs es) (Analysis.exprs es)
  | [] => by
      rw [Analyzer.exprs, Analysis.exprs]
      exact pure _
  | e :: others => by
      rw [Analyzer.exprs, Analysis.exprs]
      exact (expr e).bind fun _ => (exprs others).bind fun _ => pure _

theorem pair : ∀ entry : Pair, Reads (Analyzer.pair entry) (Analysis.pair entry)
  | .mk pos key value canonical => by
      have here := expr key
      have there : ∀ key : Expr, Reads (do
          let value ← Analyzer.expr value
          return Pair.mk pos key value (some key.keyText)) (do
          let value ← Analysis.expr value
          return Pair.mk pos key value (some key.keyText)) :=
        fun _ => (expr value).bind fun _ => pure _
      cases key with
      | ident note name entity =>
          exact extra (entity, .any) (fun _ => run_fieldName name note.pos entity) (there _)
      | _ => exact here.bind there

theorem pairs (seen : List String) :
    ∀ entries : List Pair, Reads (Analyzer.pairs seen entries) (Analysis.pairs seen entries)
  | [] => by
      rw [Analyzer.pairs, Analysis.pairs]
      exact pure _
  | entry :: others => by
      rw [Analyzer.pairs, Analysis.pairs]
      refine (pair entry).bind fun bound => (check (.distinctKey seen bound)).bind fun seen => ?_
      exact (pairs seen others).bind fun _ => pure _

end

end Reads

/-! ## Statements -/

/-- An action does in any context what a rule does, from one mode of the innermost frame to
another one. -/
def Follows (before after : Bool) (action : Analyzing α) (rule : Analysis α) : Prop :=
  ∀ context : Context, (action.run (context.analyzer before)).run =
    some ((rule context).map fun reached => (reached.1, reached.2.analyzer after))

namespace Follows

variable {action : Analyzing α} {rule : Analysis α} {next : α → Analyzing β}
  {next' : α → Analysis β} {rest : Analysis β} {before middle after : Bool}

theorem pure (value : α) : Follows before before (pure value) (pure value) := fun _ => rfl

theorem bind (here : Follows before middle action rule)
    (there : ∀ value, Follows middle after (next value) (next' value)) :
    Follows before after (action >>= next) (rule >>= next') := by
  intro context
  rw [run_bind, apply_bind, here context]
  cases rule context with
  | error error => rfl
  | ok reached => exact there reached.1 reached.2

theorem map (here : Follows before after action rule) (change : α → β) :
    Follows before after (change <$> action) (change <$> rule) := by
  rw [map_eq_pure_bind, map_eq_pure_bind]
  exact here.bind fun _ => pure _

theorem of_reads (reads : Reads action rule) : Follows false false action rule := by
  intro context
  obtain ⟨outcome, runs, same⟩ := reads context.entities (shows_moded context.scope)
  change _ = some ((rule ⟨context.scope, context.entities⟩).map _)
  rw [same]
  refine runs.trans ?_
  cases outcome <;> rfl

theorem expr (e : Expr) : Follows false false (Analyzer.expr e) (Analysis.expr e) :=
  of_reads (Reads.expr e)

theorem check (scopeless : Local rule) : Follows false false (check rule) rule :=
  of_reads (Reads.check scopeless)

theorem require (requirement : Requirement) (e : Expr) :
    Follows false false (Analyzer.check (Analysis.require requirement e))
      (Analysis.require requirement e) :=
  check (.require requirement e)

theorem enter {adjust : Flags → Flags} {adjust' : Surroundings → Surroundings}
    (fits : ∀ around, adjust ⟨around, false, false⟩ = ⟨adjust' around, after, false⟩) :
    Follows false after (enter adjust) (Analysis.enter adjust') := by
  intro context
  refine (run_enter adjust (context.scope.moded false) context.entities).trans ?_
  have opened : (context.scope.moded false).enter adjust =
      (context.scope.enter adjust').moded after := by
    simp only [Stack.enter, Scope.moded, fits]
    rfl
  rw [opened]
  rfl

theorem exit : Follows false false exit Analysis.exit := by
  intro context
  refine (run_exit (context.scope.moded false) context.entities).trans ?_
  obtain ⟨⟨top, below⟩, entities⟩ := context
  cases below <;> rfl

theorem declare (pos : Position) (entity : Entity) :
    Follows before before (declare pos entity) (Analysis.declare pos entity) := by
  intro context
  refine (run_declare pos entity (context.scope.moded before) context.entities).trans ?_
  rw [Scoping.run_declare, Scope.declare?]
  change (match context.scope.top.get? entity.name with
    | some _ => _
    | none => _) = _
  cases context.scope.top.get? entity.name <;> rfl

theorem declareBinding (name : Binding) (entity : Entity) :
    Follows before before (declareBinding name entity) (Analysis.declareBinding name entity) :=
  (declare name.pos entity).bind fun _ => pure _

/-- While plain names declare parameters, a parameter is declared. -/
theorem parameter (param : Parameter) :
    Follows true true (parameter param) (Analysis.parameter param) := by
  intro context
  have named : ((identifier param.name param.note.pos param.entity).run
      (context.analyzer true)).run = ((do
        let id ← Analyzer.declare param.note.pos (.variable param.name false .any)
        return (some id, .any) : Analyzing (Option EntityId × Tag)).run
          (context.analyzer true)).run := by
    rw [identifier, run_bind, run_flags_analyzer]
    rfl
  have follows : Follows true true
      (Analyzer.declare param.note.pos (.variable param.name false .any))
      (Analysis.declare param.note.pos (.variable param.name false .any)) := declare _ _
  have declared := follows context
  rw [Analyzer.parameter, Analyzer.expr, run_bind, run_bind, named, run_bind, declared,
    Analysis.parameter, apply_bind]
  cases Analysis.declare param.note.pos (.variable param.name false .any) context <;> rfl

theorem parameters (params : List Parameter) :
    Follows true true (parameters params) (Analysis.parameters params) := by
  induction params with
  | nil => exact pure _
  | cons param others ih => exact (parameter param).bind fun _ => ih.bind fun _ => pure _

/-- The mode for parameters ends. -/
theorem endParameters {next : Unit → Analyzing β} (there : Follows false after (next ()) rest) :
    Follows true after (setBindingParameters false >>= next) rest := by
  intro context
  have changes : (context.analyzer true).scopes.changeFlags? ({ · with bindingParameters := false })
      = some (_, (context.analyzer false).scopes) :=
    Arena.changeFlags?_arena (context.scope.moded true) ({ · with bindingParameters := false })
  rw [run_bind, setBindingParameters, run_access (congrArg (Option.map _) changes)]
  exact there context

theorem failAt (fault : SemanticFault) (pos : Position) :
    Follows before after (failAt fault pos : Analyzing α) (Analysis.failAt fault pos) :=
  fun _ => rfl

theorem ite {condition : Prop} [Decidable condition] {no : Analyzing α} {no' : Analysis α}
    (yes : Follows before after action rule) (other : Follows before after no no') :
    Follows before after (if condition then action else no) (if condition then rule else no') := by
  split
  · exact yes
  · exact other

/-- Both look at the constructs around the place. -/
theorem look {next : Flags → Analyzing β} {next' : Surroundings → Analysis β}
    (there : ∀ around, Follows false after (next ⟨around, false, false⟩) (next' around)) :
    Follows false after (flags >>= next) (Analysis.surroundings >>= next') := by
  intro context
  rw [run_bind, run_flags_analyzer]
  exact there context.scope.surroundings context

theorem requireLoop (pos : Position) :
    Follows false false (requireLoop pos) (Analysis.requireLoop pos) :=
  look fun _ => ite (failAt _ _) (pure _)

theorem requireFunction (pos : Position) :
    Follows false false (requireFunction pos) (Analysis.requireFunction pos) :=
  look fun _ => ite (failAt _ _) (pure _)

theorem optional (value : Option Expr) :
    Follows false false (optional value) (Analysis.optional value) := by
  cases value with
  | none => exact pure _
  | some e => exact (expr e).bind fun _ => pure _

theorem declarator (constant : Bool) (name : Binding) (init : Option Expr) :
    Follows false false (declarator constant name init) (Analysis.declarator constant name init) :=
  (optional init).bind fun _ => (declareBinding name _).bind fun _ => pure _

theorem declarators (constant : Bool) (entries : List (Binding × Option Expr)) :
    Follows false false (declarators constant entries) (Analysis.declarators constant entries) := by
  induction entries with
  | nil => exact pure _
  | cons entry others ih =>
      exact (declarator constant entry.1 entry.2).bind fun _ => ih.bind fun _ => pure _

mutual

theorem statement :
    ∀ s : Statement, Follows false false (Analyzer.statement s) (Analysis.statement s)
  | .declare pos constant name init => by
      rw [Analyzer.statement, Analysis.statement]
      exact (declarator constant name init).bind fun _ => pure _
  | .declareAll pos constant entries => by
      rw [Analyzer.statement, Analysis.statement]
      exact (declarators constant entries).bind fun _ => pure _
  | .assign pos target value => by
      rw [Analyzer.statement, Analysis.statement]
      refine (expr target).bind fun bound => (expr value).bind fun boundValue => ?_
      refine (check (.requireMutable bound)).bind fun _ => ?_
      exact (check (.retype boundValue.tag bound)).bind fun _ => pure _
  | .tryCatch pos body name handler => by
      rw [Analyzer.statement, Analysis.statement]
      refine (blockIn (fun _ => rfl) body).bind fun _ => (enter fun _ => rfl).bind fun _ => ?_
      refine (declareBinding name _).bind fun _ => (blockHere handler).bind fun _ => ?_
      exact exit.bind fun _ => pure _
  | .classDef pos name initialiser bodyPos methods => by
      rw [Analyzer.statement, Analysis.statement]
      refine (declare name.pos _).bind fun declared => (enter fun _ => rfl).bind fun _ => ?_
      have members := functions methods
      cases initialiser with
      | none =>
          refine (pure none).bind fun _ => members.bind fun _ => ?_
          exact exit.bind fun _ => pure _
      | some initialiser =>
          refine ((constructor initialiser).map some).bind fun _ => members.bind fun _ => ?_
          exact exit.bind fun _ => pure _
  | .function declared => by
      rw [Analyzer.statement, Analysis.statement]
      exact (function declared).map _
  | .ifElse pos alternatives otherwise => by
      rw [Analyzer.statement, Analysis.statement]
      refine (ifArms alternatives).bind fun _ => ?_
      cases otherwise with
      | none => exact (pure none).bind fun _ => pure _
      | some otherwise =>
          exact ((blockIn (fun _ => rfl) otherwise).map some).bind fun _ => pure _
  | .whileLoop pos condition body => by
      rw [Analyzer.statement, Analysis.statement]
      refine (expr condition).bind fun bound => (require .boolean bound).bind fun _ => ?_
      exact (blockIn (fun _ => rfl) body).bind fun _ => pure _
  | .forLoop pos name init condition step body => by
      rw [Analyzer.statement, Analysis.statement]
      refine (enter fun _ => rfl).bind fun _ => (expr init).bind fun bound => ?_
      refine (declareBinding name _).bind fun _ => (expr condition).bind fun test => ?_
      refine (require .boolean test).bind fun _ => (expr step).bind fun _ => ?_
      exact (blockIn (fun _ => rfl) body).bind fun _ => exit.bind fun _ => pure _
  | .forOf pos name iterable body => by
      rw [Analyzer.statement, Analysis.statement]
      refine (expr iterable).bind fun bound => (require .iterable bound).bind fun _ => ?_
      refine (enter fun _ => rfl).bind fun _ => (declareBinding name _).bind fun _ => ?_
      exact (blockHere body).bind fun _ => exit.bind fun _ => pure _
  | .switch pos selector alternatives otherwise => by
      rw [Analyzer.statement, Analysis.statement]
      refine (expr selector).bind fun _ => (switchArms alternatives).bind fun _ => ?_
      cases otherwise with
      | none => exact (pure none).bind fun _ => pure _
      | some otherwise =>
          exact ((blockIn (fun _ => rfl) otherwise).map some).bind fun _ => pure _
  | .returns pos (some value) => by
      rw [Analyzer.statement, Analysis.statement]
      exact (requireFunction pos).bind fun _ => (expr value).bind fun _ => pure _
  | .returns pos none => by
      rw [Analyzer.statement, Analysis.statement]
      exact (requireFunction pos).bind fun _ => pure _
  | .print pos argument => by
      rw [Analyzer.statement, Analysis.statement]
      exact (expr argument).bind fun _ => pure _
  | .breakLoop pos => by
      rw [Analyzer.statement, Analysis.statement]
      exact (requireLoop pos).bind fun _ => pure _
  | .continueLoop pos => by
      rw [Analyzer.statement, Analysis.statement]
      exact (requireLoop pos).bind fun _ => pure _
  | .expr pos e => by
      rw [Analyzer.statement, Analysis.statement]
      exact (expr e).bind fun _ => pure _

theorem statements : ∀ body : List Statement,
    Follows false false (Analyzer.statements body) (Analysis.statements body)
  | [] => by
      rw [Analyzer.statements, Analysis.statements]
      exact pure _
  | first :: others => by
      rw [Analyzer.statements, Analysis.statements]
      exact (statement first).bind fun _ => (statements others).bind fun _ => pure _

theorem blockHere :
    ∀ body : Block, Follows false false (Analyzer.blockHere body) (Analysis.blockHere body)
  | .mk pos body => by
      rw [Analyzer.blockHere, Analysis.blockHere]
      exact (statements body).bind fun _ => pure _

theorem blockIn {adjust : Flags → Flags} {adjust' : Surroundings → Surroundings}
    (fits : ∀ around, adjust ⟨around, false, false⟩ = ⟨adjust' around, false, false⟩) :
    ∀ body : Block,
      Follows false false (Analyzer.blockIn adjust body) (Analysis.blockIn adjust' body)
  | .mk pos body => by
      rw [Analyzer.blockIn, Analysis.blockIn]
      refine (enter fits).bind fun _ => (statements body).bind fun _ => ?_
      exact exit.bind fun _ => pure _

theorem function : ∀ declared : Function,
    Follows false false (Analyzer.function declared) (Analysis.function declared)
  | .mk pos name params body => by
      rw [Analyzer.function, Analysis.function]
      refine (declare name.pos _).bind fun declared => (enter fun _ => rfl).bind fun _ => ?_
      refine (parameters params).bind fun _ => endParameters ?_
      exact (blockHere body).bind fun _ => exit.bind fun _ => pure _

theorem functions : ∀ methods : List Function,
    Follows false false (Analyzer.functions methods) (Analysis.functions methods)
  | [] => by
      rw [Analyzer.functions, Analysis.functions]
      exact pure _
  | first :: others => by
      rw [Analyzer.functions, Analysis.functions]
      exact (function first).bind fun _ => (functions others).bind fun _ => pure _

theorem constructor : ∀ initialiser : Constructor,
    Follows false false (Analyzer.constructor initialiser) (Analysis.constructor initialiser)
  | .mk pos params body => by
      rw [Analyzer.constructor, Analysis.constructor]
      refine (enter fun _ => rfl).bind fun _ => (parameters params).bind fun _ => ?_
      exact endParameters ((blockHere body).bind fun _ => exit.bind fun _ => pure _)

theorem ifArms : ∀ alternatives : List Arm,
    Follows false false (Analyzer.ifArms alternatives) (Analysis.ifArms alternatives)
  | [] => by
      rw [Analyzer.ifArms, Analysis.ifArms]
      exact pure _
  | first :: others => by
      rw [Analyzer.ifArms, Analysis.ifArms]
      exact (ifArm first).bind fun _ => (ifArms others).bind fun _ => pure _

theorem ifArm : ∀ arm : Arm, Follows false false (Analyzer.ifArm arm) (Analysis.ifArm arm)
  | .mk pos condition body => by
      rw [Analyzer.ifArm, Analysis.ifArm]
      refine (expr condition).bind fun bound => (require .boolean bound).bind fun _ => ?_
      exact (blockIn (fun _ => rfl) body).bind fun _ => pure _

theorem switchArms : ∀ alternatives : List Arm,
    Follows false false (Analyzer.switchArms alternatives) (Analysis.switchArms alternatives)
  | [] => by
      rw [Analyzer.switchArms, Analysis.switchArms]
      exact pure _
  | first :: others => by
      rw [Analyzer.switchArms, Analysis.switchArms]
      exact (switchArm first).bind fun _ => (switchArms others).bind fun _ => pure _

theorem switchArm :
    ∀ arm : Arm, Follows false false (Analyzer.switchArm arm) (Analysis.switchArm arm)
  | .mk pos test body => by
      rw [Analyzer.switchArm, Analysis.switchArm]
      exact (expr test).bind fun _ => (blockIn (fun _ => rfl) body).bind fun _ => pure _

end

end Follows

end Analyzer

/-- An analyzer always comes to an end, with what analysis finds. -/
theorem Program.analyze?_eq_bind (program : Program) :
    program.analyze? = some program.bind := by
  have runs := Analyzer.Follows.statements program.statements .initial
  change Option.map _ ((Analyzer.statements program.statements).run
    (Analysis.Context.initial.analyzer false)).run = _
  rw [runs, Program.bind, StateT.run]
  cases Analysis.statements program.statements .initial <;> rfl

/-- In every state of an analyzer, whatever its frames and modes: a statement that can be bound
leaves the frames as they were, with the names that it declares itself at the end of the current
one. An expression leaves everything as it was, except that a plain name is declared where plain
names are parameters. This analyzer gives the bound tree of every program. -/
theorem Analyzer.leaves_scopes :
    (∀ (s bound : Statement) (before after : Analyzer), Yields (statement s) before bound after →
      before.scopes.Extends after.scopes (s.declared before.binding)) ∧
    (∀ (e bound : Expr) (before after : Analyzer), before.binding = false →
      Yields (expr e) before bound after → after.scopes = before.scopes) ∧
    (∀ (note : Note) (name : String) (entity : Option EntityId) (bound : Expr)
      (before after : Analyzer), before.binding = true →
      Yields (expr (.ident note name entity)) before bound after →
      before.scopes.Extends after.scopes [name]) ∧
    ∀ program : Program, program.analyze? = some program.bind := by
  have extended : ∀ {before after : Arena Flags} {added : List (String × EntityId)}
      {names : List String}, added.map Prod.fst = names → after = before.extend added →
      before.Extends after names := by
    rintro before _ added _ rfl rfl
    exact Arena.extends_extend before added
  refine ⟨?_, ?_, ?_, Program.analyze?_eq_bind⟩
  · intro s bound before after yields
    obtain ⟨added, names, same⟩ := Keeps.statement s yields
    exact extended names same
  · intro e bound before after mode yields
    obtain ⟨added, names, same⟩ := Keeps.expr e yields
    rw [mode] at names
    have none : added = [] := List.map_eq_nil_iff.mp (names.trans e.declared_false)
    rw [same, none, Arena.extend_nil]
  · intro note name entity bound before after mode yields
    obtain ⟨added, names, same⟩ := Keeps.expr (.ident note name entity) yields
    rw [mode] at names
    exact extended names same

/-- A function with a parameter and a variable, an element of an array, and a plain name where
plain names are parameters. -/
theorem Analyzer.leaves_scopes_function :
    let name (text : String) (column : Nat) : Binding := ⟨text, ⟨1, column⟩, none⟩
    let declared : Statement := .function (.mk ⟨1, 1⟩ (name "f" 10) [⟨"x", .at ⟨1, 12⟩, none⟩]
      (.mk ⟨1, 15⟩ [.declare ⟨1, 17⟩ false (name "y" 21) none]))
    let number (column : Nat) : Expr := .literal (.at ⟨1, column⟩) (.int 0)
    let element : Expr := .member (.at ⟨1, 1⟩) (.array (.at ⟨1, 1⟩) [number 2]) (number 5)
    let binding : Analyzer := ⟨.new { Flags.outermost with bindingParameters := true }, .empty⟩
    (∃ bound after, Yields (statement declared) .initial bound after ∧
      Analyzer.initial.scopes.Extends after.scopes ["f"]) ∧
    (∃ bound after, Analyzer.initial.binding = false ∧ Yields (expr element) .initial bound after ∧
      after.scopes = Analyzer.initial.scopes) ∧
    ∃ bound after, binding.binding = true ∧
      Yields (expr (.ident (.at ⟨1, 1⟩) "x" none)) binding bound after ∧
      binding.scopes.Extends after.scopes ["x"] := by
  intro name declared number element binding
  obtain ⟨ofStatement, ofExpr, ofName, -⟩ := Analyzer.leaves_scopes
  exact ⟨⟨_, _, rfl, ofStatement declared _ _ _ rfl⟩, ⟨_, _, rfl, rfl, ofExpr element _ _ _ rfl rfl⟩,
    ⟨_, _, rfl, rfl, ofName (.at ⟨1, 1⟩) "x" none _ _ _ rfl rfl⟩⟩

end Qalam
