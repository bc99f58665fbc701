/-
# Naming does not depend on spelling

Without an oracle a name is made from a number, and spellings only tell which name belongs where. So
a program with other names gets the same names as the program itself, as long as different names
stay different. The table remembers the new spellings instead of the old ones, and the same names
for them.
-/

import Qalam.Proofs.Naming.Table
import Qalam.Proofs.Relabelling.Context
import Qalam.Proofs.Relabelling.Naming

namespace Qalam

namespace Naming

variable {change : Relabel} {names : List String}

namespace Table

/-- A table of the names for other spellings. -/
def respell (change : Relabel) (table : Table .silent) : Table .silent where
  memory := table.memory
  candidates := table.candidates.map fun entry => (change.name entry.1, entry.2)
  fallbacks := table.fallbacks
  entities := table.entities
  fields := table.fields.map fun entry => (change.name entry.1, entry.2)

/-- A table remembers only the given names, and another one has the same names for their new
spellings. -/
structure Respelled (change : Relabel) (names : List String) (table table' : Table .silent) :
    Prop where
  same : table' = table.respell change
  candidates : ∀ entry ∈ table.candidates, entry.1 ∈ names
  fields : ∀ entry ∈ table.fields, entry.1 ∈ names

theorem takenFields_respell (table : Table .silent) :
    (table.respell change).takenFields = table.takenFields := by
  simp [takenFields, respell]

theorem respelled_empty : Respelled change names (.empty .silent) (.empty .silent) :=
  ⟨rfl, List.forall_mem_nil _, List.forall_mem_nil _⟩

/-- Without an oracle a new spelling gets the next number. -/
theorem candidate_run_silent {spelling : String} {table : Table .silent}
    (new : table.candidates.lookup spelling = none) :
    (candidate spelling).run table =
      ("var_" ++ toString (table.fallbacks + 1), { table with
        fallbacks := table.fallbacks + 1
        candidates := (spelling, "var_" ++ toString (table.fallbacks + 1)) ::
          table.candidates }) := by
  simp only [candidate, StateT.run_bind, StateT.run_get, pure_bind, new]
  rfl

end Table

open Table (Respelled)

/-! ## Requests -/

namespace Echoes

theorem candidate (separates : change.Separates names) {spelling : String}
    (known : spelling ∈ names) :
    Echoes (Respelled change names) id (Table.candidate spelling)
      (Table.candidate (change.name spelling)) := by
  constructor
  rintro table _ ⟨rfl, candidates, fields⟩
  have same : (table.respell change).candidates.lookup (change.name spelling) =
      table.candidates.lookup spelling := Relabel.lookup_map separates candidates known
  cases found : table.candidates.lookup spelling with
  | some base =>
      rw [Table.candidate_run_known (same.trans found), Table.candidate_run_known found]
      exact ⟨⟨rfl, candidates, fields⟩, rfl⟩
  | none =>
      rw [Table.candidate_run_silent (same.trans found), Table.candidate_run_silent found]
      exact ⟨⟨rfl, List.forall_mem_cons.mpr ⟨known, candidates⟩, fields⟩, rfl⟩

theorem entity (separates : change.Separates names) (entity : EntityId) {spelling : String}
    (known : spelling ∈ names) :
    Echoes (Respelled change names) id (Table.entity entity spelling)
      (Table.entity entity (change.name spelling)) := by
  constructor
  rintro table _ ⟨rfl, candidates, fields⟩
  obtain ⟨reached, base⟩ := (candidate separates known).run table _ ⟨rfl, candidates, fields⟩
  cases found : table.entities.lookup entity with
  | some name =>
      have found' : (table.respell change).entities.lookup entity = some name := found
      rw [Table.entity_run_known found, Table.entity_run_known found']
      exact ⟨⟨rfl, candidates, fields⟩, rfl⟩
  | none =>
      have found' : (table.respell change).entities.lookup entity = none := found
      rw [Table.entity_run_new found, Table.entity_run_new found']
      rw [id, id] at base
      dsimp only
      rw [base, reached.same]
      exact ⟨⟨rfl, reached.candidates, reached.fields⟩, rfl⟩

theorem tableField (separates : change.Separates names) {spelling : String}
    (known : spelling ∈ names) :
    Echoes (Respelled change names) id (Table.field spelling)
      (Table.field (change.name spelling)) := by
  constructor
  rintro table _ ⟨rfl, candidates, fields⟩
  obtain ⟨reached, base⟩ := (candidate separates known).run table _ ⟨rfl, candidates, fields⟩
  have same : (table.respell change).fields.lookup (change.name spelling) =
      table.fields.lookup spelling := Relabel.lookup_map separates fields known
  cases found : table.fields.lookup spelling with
  | some name =>
      rw [Table.field_run_known found, Table.field_run_known (same.trans found)]
      exact ⟨⟨rfl, candidates, fields⟩, rfl⟩
  | none =>
      rw [Table.field_run_new found, Table.field_run_new (same.trans found)]
      rw [id, id] at base
      dsimp only
      rw [base, reached.same, Table.takenFields_respell]
      exact ⟨⟨rfl, reached.candidates, List.forall_mem_cons.mpr ⟨known, reached.fields⟩⟩, rfl⟩

end Echoes

/-- Without an oracle every mention of a name is answered alike in every spelling that keeps
different names different. -/
theorem answers_respell (separates : change.Separates names)
    (kept : ∀ entity, change.entity entity = entity) :
    Answers (Respelled change names) change names where
  kept := kept
  entity entity _ known := Echoes.entity separates entity known
  field known := Echoes.tableField separates known

end Naming

end Qalam
