/-
# Contexts with other names

Analysis compares names with one another and with nothing else. So a name is found, or declared, in
a scope with other names as it was before, as long as different names stay different. Only the names
of a program have to be told apart, and only these are declared while it is analysed.
-/

import Mathlib.Data.Set.Function
import Qalam.Analysis.Basic
import Qalam.Proofs.Structure.Relabel

namespace Qalam.Relabel

variable {α : Type} (change : Relabel) (names : List String)

/-- Different names among the given ones stay different. -/
def Separates : Prop := Set.InjOn change.name {name | name ∈ names}

/-- What keeps all names keeps them different. -/
theorem separates_of_name {change : Relabel} (same : change.name = id) :
    change.Separates names := by
  rw [Separates, same]
  exact Set.injOn_id _

/-! ## Scopes -/

/-- A frame in which other names are declared. -/
def frame (frame : Frame) : Frame :=
  { frame with symbols := frame.symbols.map fun entry => (change.name entry.1, entry.2) }

/-- A scope in which other names are declared. -/
def scope (scope : Scope) : Scope := ⟨change.frame scope.top, scope.below.map change.frame⟩

/-- A context with other names. -/
def context (context : Analysis.Context) : Analysis.Context :=
  ⟨change.scope context.scope, change.entities context.entities⟩

/-- Only the given names are declared. -/
def Within (scope : Scope) : Prop :=
  ∀ frame ∈ scope.frames, ∀ entry ∈ frame.symbols, entry.1 ∈ names

variable {change names}

/-- A name is found in a list under its new spelling if it was found there before. -/
theorem lookup_map (separates : change.Separates names) {entries : List (String × α)}
    (among : ∀ entry ∈ entries, entry.1 ∈ names) {name : String} (known : name ∈ names) :
    (entries.map fun entry => (change.name entry.1, entry.2)).lookup (change.name name) =
      entries.lookup name := by
  induction entries with
  | nil => rfl
  | cons entry others ih =>
      rw [List.forall_mem_cons] at among
      rw [List.map_cons, List.lookup_cons, List.lookup_cons, ih among.2]
      by_cases same : name = entry.1
      · simp [same]
      · have different : change.name name ≠ change.name entry.1 :=
          fun equal => same (separates known among.1 equal)
        simp [beq_eq_false_iff_ne.mpr same, beq_eq_false_iff_ne.mpr different]

theorem resolve?_scope (separates : change.Separates names) {scope : Scope}
    (within : Within names scope) {name : String} (known : name ∈ names) :
    (change.scope scope).resolve? (change.name name) = scope.resolve? name := by
  have frames : (change.scope scope).frames = scope.frames.map change.frame := rfl
  rw [Scope.resolve?, Scope.resolve?, frames, List.findSome?_map]
  rw [Within] at within
  generalize scope.frames = frames at within
  induction frames with
  | nil => rfl
  | cons frame below ih =>
      rw [List.forall_mem_cons] at within
      have here : (change.frame frame).get? (change.name name) = frame.get? name :=
        lookup_map separates within.1 known
      rw [List.findSome?_cons, List.findSome?_cons, ih within.2, Function.comp_apply, here]

theorem declare?_scope (separates : change.Separates names) {scope : Scope}
    (within : Within names scope) {name : String} (known : name ∈ names) (id : EntityId) :
    (change.scope scope).declare? (change.name name) id =
      (scope.declare? name id).map change.scope := by
  have here : (change.scope scope).top.get? (change.name name) = scope.top.get? name :=
    lookup_map separates (within scope.top List.mem_cons_self) known
  rw [Scope.declare?, Scope.declare?, here]
  cases scope.top.get? name with
  | some id => rfl
  | none => simp [Relabel.scope, Relabel.frame]

theorem Within.declare? {scope final : Scope} (within : Within names scope) {name : String}
    (known : name ∈ names) {id : EntityId} (declared : scope.declare? name id = some final) :
    Within names final := by
  rw [Scope.declare?] at declared
  split at declared
  · cases declared
  · cases declared
    intro frame mem
    rcases List.mem_cons.mp mem with rfl | below
    · rw [List.forall_mem_append, List.forall_mem_singleton]
      exact ⟨within scope.top List.mem_cons_self, known⟩
    · exact within frame (List.mem_cons_of_mem _ below)

theorem Within.exit {scope : Scope} (within : Within names scope) : Within names scope.exit := by
  rw [Scope.exit]
  split
  · exact within
  · rename_i frame below same
    intro frame' mem
    exact within frame' (List.mem_cons_of_mem _ (same ▸ mem))

theorem scope_exit (scope : Scope) : (change.scope scope).exit = change.scope scope.exit := by
  rw [Scope.exit, Scope.exit]
  cases scope with
  | mk top below => cases below <;> rfl

/-! ## Tables of entities -/

theorem get?_entities (entities : Entities) (id : EntityId) :
    (change.entities entities).get? id = (entities.get? id).map change.declared := by
  simp [Relabel.entities, Entities.get?]

theorem retype_entities (entities : Entities) (id : EntityId) (tag : Tag) :
    (change.entities entities).retype id tag = change.entities (entities.retype id tag) := by
  have retyped : ∀ entity : Entity,
      (change.declared entity).retype tag = change.declared (entity.retype tag) := by
    intro entity
    cases entity <;> rfl
  apply congrArg Entities.mk
  apply Array.ext
  · simp [Relabel.entities, Entities.retype]
  · intro index _ _
    by_cases here : id.index = index
    · simp [Relabel.entities, Entities.retype, Array.getElem_modify, here, retyped]
    · simp [Relabel.entities, Entities.retype, Array.getElem_modify, here]

theorem context_initial : change.context .initial = .initial := by
  simp [Relabel.context, Relabel.scope, Relabel.frame, Relabel.entities,
    Analysis.Context.initial, Scope.root, Entities.empty]

end Qalam.Relabel
