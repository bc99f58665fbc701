/-
# Analysis as a reading of events

Analysis checks many things at once. As far as names are concerned it reads the events of the
tree through a ledger: it either fills in the entities just as the ledger does, or stops at an
event where the ledger would stop, or stops for a reason that has nothing to do with names. This
is shown rule by rule, each construct being a sequence of smaller readings.
-/

import Qalam.Analysis.Statement
import Qalam.Proofs.Scoping.Ledger
import Qalam.Proofs.Scoping.Walk

namespace Qalam.Scoping

open Analysis (Context)

/-- What a context knows about names. -/
def ledgerOf (context : Context) : Ledger :=
  ⟨context.scope.frames.map Frame.symbols, context.entities.size⟩

/-- What declaring an entity does to a context. -/
theorem run_declare (pos : Position) (entity : Entity) (context : Context) :
    Analysis.declare pos entity context =
      match context.scope.declare? entity.name ⟨context.entities.size⟩ with
      | some scope => .ok (⟨context.entities.size⟩, ⟨scope, (context.entities.alloc entity).2⟩)
      | none => .error ⟨.alreadyDeclared entity.name, pos⟩ := by
  change (match context.scope.declare? entity.name ⟨context.entities.size⟩ with
    | some scope => _
    | none => _ : Analysis EntityId) context = _
  cases context.scope.declare? entity.name ⟨context.entities.size⟩ <;> rfl

/-- What looking a name up finds in a context. -/
theorem run_resolve (name : String) (pos : Position) (context : Context) :
    Analysis.resolve name pos context =
      match context.scope.resolve? name with
      | some id => .ok ((id, ((context.entities.get? id).map Entity.tag).getD .any), context)
      | none => .error ⟨.notDeclared name, pos⟩ := by
  change (match context.scope.resolve? name with
    | some id => _
    | none => _ : Analysis (EntityId × Tag)) context = _
  cases context.scope.resolve? name <;> rfl

/-- A fault that concerns a name is found where a ledger cannot go on reading. -/
def Explains (ledger : Ledger) (raw : List (Event Mark)) (error : SemanticError) : Prop :=
  match error.fault with
  | .notDeclared name => ∃ before mark later bound reached,
      raw = before ++ .mentions name mark :: later ∧ mark.pos = error.pos ∧
      ledger.readAll before = some (bound, reached) ∧ reached.find? name = none
  | .alreadyDeclared name => ∃ before mark later bound reached,
      raw = before ++ .declares name mark :: later ∧ mark.pos = error.pos ∧
      ledger.readAll before = some (bound, reached) ∧ (reached.findInner? name).isSome = true
  | _ => True

/-- An action of analysis reads some events: it leaves the context that a ledger reaches, with a
result that fits the events it has bound, or its fault is explained. -/
def Traces {α : Type} (action : Analysis α) (raw : List (Event Mark))
    (result : α → List (Event Mark) → Prop) : Prop :=
  ∀ context, match action context with
    | .ok (value, final) =>
      ∃ bound, (ledgerOf context).readAll raw = some (bound, ledgerOf final) ∧ result value bound
    | .error error => Explains (ledgerOf context) raw error

/-- An action that reads no event. -/
def Inert {α : Type} (action : Analysis α) : Prop :=
  Traces action [] fun _ bound => bound = []

theorem Explains.append_right {ledger : Ledger} {first : List (Event Mark)}
    {error : SemanticError} (explains : Explains ledger first error)
    (second : List (Event Mark)) : Explains ledger (first ++ second) error := by
  obtain ⟨fault, pos⟩ := error
  cases fault with
  | notDeclared name =>
      obtain ⟨before, mark, later, bound, reached, rfl, rest⟩ := explains
      exact ⟨before, mark, later ++ second, bound, reached, by simp, rest⟩
  | alreadyDeclared name =>
      obtain ⟨before, mark, later, bound, reached, rfl, rest⟩ := explains
      exact ⟨before, mark, later ++ second, bound, reached, by simp, rest⟩
  | _ => trivial

theorem Explains.append_left {ledger middle : Ledger} {first bound second : List (Event Mark)}
    {error : SemanticError} (read : ledger.readAll first = some (bound, middle))
    (explains : Explains middle second error) : Explains ledger (first ++ second) error := by
  obtain ⟨fault, pos⟩ := error
  cases fault with
  | notDeclared name =>
      obtain ⟨before, mark, later, reading, reached, rfl, here, known, stuck⟩ := explains
      exact ⟨first ++ before, mark, later, _, reached, by simp, here,
        Ledger.readAll_append read known, stuck⟩
  | alreadyDeclared name =>
      obtain ⟨before, mark, later, reading, reached, rfl, here, known, stuck⟩ := explains
      exact ⟨first ++ before, mark, later, _, reached, by simp, here,
        Ledger.readAll_append read known, stuck⟩
  | _ => trivial

namespace Traces

variable {α β : Type} {action : Analysis α} {first second : List (Event Mark)}
  {middle : α → List (Event Mark) → Prop}

theorem pure {value : α} {result : α → List (Event Mark) → Prop} (fits : result value []) :
    Traces (pure value) [] result :=
  fun _ => ⟨[], rfl, fits⟩

/-- Two actions one after the other read their events one after the other. -/
theorem bind {next : α → Analysis β} {result : β → List (Event Mark) → Prop}
    (here : Traces action first middle)
    (there : ∀ value bound, middle value bound →
      Traces (next value) second fun final events => result final (bound ++ events)) :
    Traces (action >>= next) (first ++ second) result := by
  intro context
  have step := here context
  change match Except.bind (action context) fun reached => next reached.1 reached.2 with
    | .ok (value, final) => _
    | .error error => _
  cases reached : action context with
  | error error =>
      rw [reached] at step
      exact step.append_right second
  | ok pair =>
      obtain ⟨value, after⟩ := pair
      rw [reached] at step
      obtain ⟨bound, read, fits⟩ := step
      have further := there value bound fits after
      change match next value after with
        | .ok (value, final) => _
        | .error error => _
      cases finished : next value after with
      | error error =>
          rw [finished] at further
          exact Explains.append_left read further
      | ok last =>
          obtain ⟨final, end_⟩ := last
          rw [finished] at further
          obtain ⟨events, readRest, whole⟩ := further
          exact ⟨bound ++ events, Ledger.readAll_append read readRest, whole⟩

/-- An action after which nothing more is read. -/
theorem finish {next : α → Analysis β} {result : β → List (Event Mark) → Prop}
    (here : Traces action first middle)
    (there : ∀ value bound, middle value bound →
      Traces (next value) [] fun final events => result final (bound ++ events)) :
    Traces (action >>= next) first result := by
  have whole : Traces (action >>= next) (first ++ []) result := here.bind there
  rwa [List.append_nil] at whole

/-- An action of which only the result is changed. -/
theorem map {change : α → β} {result : β → List (Event Mark) → Prop}
    (here : Traces action first middle)
    (fits : ∀ value bound, middle value bound → result (change value) bound) :
    Traces (action >>= fun value => Pure.pure (change value)) first result :=
  here.finish fun value bound holds => Traces.pure (by
    rw [List.append_nil]
    exact fits value bound holds)

/-- An action whose result is a part that is present. -/
theorem present (here : Traces action first middle) :
    Traces (some <$> action) first fun found bound =>
      ∃ value, found = some value ∧ middle value bound :=
  here.map fun value _ holds => ⟨value, rfl, holds⟩

end Traces

namespace Inert

variable {α β : Type}

theorem pure (value : α) : Inert (Pure.pure value : Analysis α) := Traces.pure rfl

/-- An action that reads nothing can stand before any other. -/
theorem before {action : Analysis α} {next : α → Analysis β} {events : List (Event Mark)}
    {result : β → List (Event Mark) → Prop} (here : Inert action)
    (there : ∀ value, Traces (next value) events result) :
    Traces (action >>= next) events result :=
  Traces.bind here fun value bound empty => by
    subst empty
    exact there value

theorem bind {action : Analysis α} {next : α → Analysis β} (here : Inert action)
    (there : ∀ value, Inert (next value)) : Inert (action >>= next) :=
  here.before there

/-- Reading the context changes nothing. -/
theorem get : Inert (get : Analysis Context) := fun _ => ⟨[], rfl, rfl⟩

/-- A fault that does not concern a name needs no explanation. -/
theorem failAt {fault : SemanticFault} {pos : Position}
    (noName : ∀ ledger, Explains ledger [] ⟨fault, pos⟩) :
    Inert (Analysis.failAt fault pos : Analysis α) :=
  fun context => noName (ledgerOf context)

theorem ite {condition : Prop} [Decidable condition] {yes no : Analysis α}
    (whenTrue : Inert yes) (whenFalse : Inert no) : Inert (if condition then yes else no) := by
  split
  · exact whenTrue
  · exact whenFalse

theorem surroundings : Inert Analysis.surroundings := get.bind fun _ => pure _

theorem require (requirement : Requirement) (e : Expr) :
    Inert (Analysis.require requirement e) :=
  ite (failAt fun _ => trivial) (pure ())

theorem requireMutable (e : Expr) : Inert (Analysis.requireMutable e) := by
  unfold Analysis.requireMutable
  split
  · refine get.bind fun context => ?_
    split
    · exact ite (failAt fun _ => trivial) (pure ())
    · exact pure ()
  · exact pure ()

/-- Recording a tag touches no name. -/
theorem retype (tag : Tag) (e : Expr) : Inert (Analysis.retype tag e) := by
  unfold Analysis.retype
  split
  · intro context
    refine ⟨[], ?_, rfl⟩
    simp [ledgerOf, Entities.size_retype]
  · exact pure ()

theorem requireLoop (pos : Position) : Inert (Analysis.requireLoop pos) :=
  surroundings.bind fun _ => ite (failAt fun _ => trivial) (pure ())

theorem requireFunction (pos : Position) : Inert (Analysis.requireFunction pos) :=
  surroundings.bind fun _ => ite (failAt fun _ => trivial) (pure ())

theorem requireClass (pos : Position) : Inert (Analysis.requireClass pos) :=
  surroundings.bind fun _ => ite (failAt fun _ => trivial) (pure ())

theorem requireCallable (e : Expr) : Inert (Analysis.requireCallable e) :=
  ite (failAt fun _ => trivial) (pure ())

theorem requireClassReference (e : Expr) : Inert (Analysis.requireClassReference e) :=
  ite (failAt fun _ => trivial) (pure ())

theorem distinctKey (seen : List String) (entry : Pair) :
    Inert (Analysis.distinctKey seen entry) := by
  cases entry with
  | mk pos key value canonical => exact ite (failAt fun _ => trivial) (pure _)

theorem binaryTag (op : BinaryOp) (left right : Expr) :
    Inert (Analysis.binaryTag op left right) := by
  cases op with
  | addAssign => exact (requireMutable left).bind fun _ => pure _
  | subAssign =>
      exact (requireMutable left).bind fun _ => (require _ left).bind fun _ =>
        (require _ right).bind fun _ => pure _
  | sub | mul | div | mod | pow =>
      exact (require _ left).bind fun _ => (require _ right).bind fun _ => pure _
  | _ => exact pure _

theorem unaryTag (op : UnaryOp) (operand : Expr) : Inert (Analysis.unaryTag op operand) := by
  cases op with
  | increment | decrement =>
      exact (requireMutable operand).bind fun _ => (require _ operand).bind fun _ => pure _
  | neg | not => exact (require _ operand).bind fun _ => pure _

end Inert

end Qalam.Scoping
