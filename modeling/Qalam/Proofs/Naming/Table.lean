/-
# What the table of names keeps

Every name that the table gives is usable, no entity has a reserved word for its name, and within
one name space no name is given twice. A name stays the same once it is given. These facts hold of
the empty table and are kept by every request, whatever the oracle answers.

A table gives names to finitely many entities. The names can always be completed to names for all
of them, with the same properties.
-/

import Mathlib.Data.List.Nodup
import Qalam.Naming.Table
import Qalam.Proofs.Naming.Sanitize

namespace Qalam.Naming

/-- A name that can stand in the generated code. -/
def Usable (name : String) : Prop :=
  name.toList ≠ [] ∧ (∀ c ∈ name.toList, isNameChar c = true) ∧
    beginsWithDigit name.toList = false

/-! ## Sanitised and suffixed names -/

theorem usable_of_sanitize? {proposal name : String} (found : sanitize? proposal = some name) :
    Usable name := by
  obtain ⟨acceptable, spelled⟩ := sanitize?_eq_some_iff.mp found
  rw [Usable, spelled, beginsWithDigit_map, List.forall_mem_map]
  exact ⟨by simpa using acceptable.nonempty,
    fun c mem => isNameChar_nameCharOf (acceptable.chars c mem), acceptable.first⟩

theorem usable_append {base : String} (usable : Usable base) {behind : String}
    (chars : ∀ c ∈ behind.toList, isNameChar c = true) : Usable (base ++ behind) := by
  obtain ⟨nonempty, all, first⟩ := usable
  cases spelled : base.toList with
  | nil => exact absurd spelled nonempty
  | cons c rest =>
      rw [spelled] at all first
      refine ⟨by simp [spelled], ?_, by simpa [spelled, beginsWithDigit] using first⟩
      intro d mem
      rw [String.toList_append, spelled, List.mem_append] at mem
      exact mem.elim (all d) (chars d)

theorem isNameChar_toString (n : Nat) : ∀ c ∈ (toString n).toList, isNameChar c = true := by
  intro c mem
  rw [Nat.toString_eq_ofList_toDigits, String.toList_ofList] at mem
  exact isNameChar_iff.mpr (.inr (.inl (Nat.isDigit_of_mem_toDigits (by decide) (by decide) mem)))

theorem usable_suffixed {base : String} (usable : Usable base) (suffix : Nat) :
    Usable (suffixed base suffix) := by
  cases suffix with
  | zero => exact usable
  | succ suffix =>
      refine usable_append (usable_append usable ?_) (isNameChar_toString _)
      simp [isNameChar]

theorem usable_fallback (n : Nat) : Usable ("var_" ++ toString n) :=
  usable_append ⟨by simp, by simp [isNameChar], by simp [beginsWithDigit]⟩ (isNameChar_toString n)

theorem suffixed_injective (base : String) : Function.Injective (suffixed base) := by
  have longer : ∀ suffix, suffixed base (suffix + 1) ≠ base := by
    intro suffix same
    have size := congrArg (fun name => name.toList.length) same
    simp [suffixed] at size
  have numbers : ∀ {i j : Nat}, suffixed base (i + 1) = suffixed base (j + 1) → i = j := by
    intro i j same
    have chars := congrArg String.toList same
    simp only [suffixed, String.toList_append] at chars
    have digits := congrArg (fun chars => Nat.ofDigitChars 10 chars 0)
      (List.append_cancel_left chars)
    simpa [Nat.toString_eq_ofList_toDigits] using digits
  intro first second same
  cases first with
  | zero =>
      cases second with
      | zero => rfl
      | succ second => exact absurd same.symm (longer second)
  | succ first =>
      cases second with
      | zero => exact absurd same (longer first)
      | succ second => rw [numbers same]

/-- Some suffix is free, so a fresh name is the base with a suffix and is not taken. -/
theorem fresh_spec (base : String) (taken : List String) :
    fresh base taken ∉ taken ∧ ∃ suffix, fresh base taken = suffixed base suffix := by
  unfold fresh
  cases found : (List.range (taken.length + 1)).findSome? fun suffix =>
      if suffixed base suffix ∈ taken then none else some (suffixed base suffix) with
  | some name =>
      obtain ⟨suffix, -, chosen⟩ := List.exists_of_findSome?_eq_some found
      split at chosen
      · cases chosen
      · rename_i free
        cases chosen
        exact ⟨free, suffix, rfl⟩
  | none =>
      -- all of them would be taken, which are more than there are taken names
      rw [List.findSome?_eq_none_iff] at found
      have inside : (List.range (taken.length + 1)).map (suffixed base) ⊆ taken := by
        intro name mem
        obtain ⟨suffix, small, rfl⟩ := List.mem_map.mp mem
        have blocked := found suffix small
        split at blocked
        · assumption
        · cases blocked
      have distinct : ((List.range (taken.length + 1)).map (suffixed base)).Nodup :=
        List.nodup_range.map (suffixed_injective base)
      have size := distinct.length_le_of_subset inside
      simp only [List.length_map, List.length_range] at size
      omega

theorem fresh_not_mem (base : String) (taken : List String) : fresh base taken ∉ taken :=
  (fresh_spec base taken).1

theorem usable_fresh {base : String} (usable : Usable base) (taken : List String) :
    Usable (fresh base taken) := by
  obtain ⟨-, suffix, same⟩ := fresh_spec base taken
  rw [same]
  exact usable_suffixed usable suffix

variable {oracle : Oracle}

/-- Names for all entities and fields. -/
structure Names where
  entity : EntityId → String
  field : String → String

/-- Names that can stand in the generated code, with a different one for each entity. -/
structure Names.Proper (names : Names) : Prop where
  entity : ∀ id, Usable (names.entity id)
  free : ∀ id, names.entity id ∉ reserved
  injective : Function.Injective names.entity
  field : ∀ spelling, Usable (names.field spelling)

/-- All names of a table are kept. -/
structure Names.Agrees (names : Names) (table : Table oracle) : Prop where
  entity : ∀ {id name}, table.entities.lookup id = some name → names.entity id = name
  field : ∀ {spelling name}, table.fields.lookup spelling = some name →
    names.field spelling = name

namespace Table

/-- What holds of every table that arises by requests. -/
structure Sound (table : Table oracle) : Prop where
  candidates : ∀ entry ∈ table.candidates, Usable entry.2
  entities : ∀ entry ∈ table.entities, Usable entry.2 ∧ entry.2 ∉ reserved
  fields : ∀ entry ∈ table.fields, Usable entry.2
  entityNames : (table.entities.map Prod.snd).Nodup
  fieldNames : (table.fields.map Prod.snd).Nodup

theorem sound_empty (oracle : Oracle) : Sound (empty oracle) := by
  constructor <;> simp [empty]

theorem candidate_run_known {table : Table oracle} {spelling base : String}
    (known : table.candidates.lookup spelling = some base) :
    (candidate spelling).run table = (base, table) := by
  simp only [candidate, StateT.run_bind, StateT.run_get, bind_pure_comp, pure_bind, known]
  rfl

/-- Asking for a base name changes no name that is given. -/
theorem candidate_spec {table : Table oracle} (sound : Sound table) (spelling : String) :
    Usable ((candidate spelling).run table).1 ∧ Sound ((candidate spelling).run table).2 ∧
      ((candidate spelling).run table).2.entities = table.entities ∧
      ((candidate spelling).run table).2.fields = table.fields := by
  have added : ∀ {base : String}, Usable base →
      ∀ entry ∈ (spelling, base) :: table.candidates, Usable entry.2 := by
    intro base usable
    rw [List.forall_mem_cons]
    exact ⟨usable, sound.candidates⟩
  cases known : table.candidates.lookup spelling with
  | some base =>
      rw [candidate_run_known known]
      obtain ⟨before, behind, split⟩ := List.lookup_eq_some_iff.mp known
      exact ⟨sound.candidates (spelling, base) (by simp [split]), sound, rfl, rfl⟩
  | none =>
      simp only [candidate, StateT.run_bind, StateT.run_get, pure_bind, known]
      cases proposed : (oracle.ask table.memory spelling).1.bind sanitize? with
      | some base =>
          obtain ⟨proposal, -, sanitized⟩ := Option.bind_eq_some_iff.mp proposed
          have usable := usable_of_sanitize? sanitized
          exact ⟨usable, { sound with candidates := added usable }, rfl, rfl⟩
      | none =>
          have usable := usable_fallback (table.fallbacks + 1)
          exact ⟨usable, { sound with candidates := added usable }, rfl, rfl⟩

theorem entity_run_known {table : Table oracle} {id : EntityId} {name : String}
    (known : table.entities.lookup id = some name) (spelling : String) :
    (entity id spelling).run table = (name, table) := by
  simp only [entity, StateT.run_bind, StateT.run_get, pure_bind, known]
  rfl

theorem entity_run_new {table : Table oracle} {id : EntityId}
    (new : table.entities.lookup id = none) (spelling : String) :
    (entity id spelling).run table =
      let asked := (candidate spelling).run table
      let name := fresh asked.1 asked.2.takenEntities
      (name, { asked.2 with entities := (id, name) :: asked.2.entities }) := by
  simp only [entity, StateT.run_bind, StateT.run_get, pure_bind, new]
  rfl

theorem field_run_known {table : Table oracle} {spelling name : String}
    (known : table.fields.lookup spelling = some name) :
    (field spelling).run table = (name, table) := by
  simp only [field, StateT.run_bind, StateT.run_get, pure_bind, known]
  rfl

theorem field_run_new {table : Table oracle} {spelling : String}
    (new : table.fields.lookup spelling = none) :
    (field spelling).run table =
      let asked := (candidate spelling).run table
      let name := fresh asked.1 asked.2.takenFields
      (name, { asked.2 with fields := (spelling, name) :: asked.2.fields }) := by
  simp only [field, StateT.run_bind, StateT.run_get, pure_bind, new]
  rfl

/-- A new entry leaves the other ones as they are. -/
theorem lookup_cons_of_some {α : Type} [BEq α] [LawfulBEq α] {entries : List (α × String)}
    {key new : α} {name given : String} (absent : entries.lookup new = none)
    (found : entries.lookup key = some given) :
    ((new, name) :: entries).lookup key = some given := by
  have differs : (key == new) = false := by
    rw [Bool.eq_false_iff]
    intro same
    rw [eq_of_beq same, absent] at found
    cases found
  rw [List.lookup_cons, differs]
  exact found

theorem entity_spec {table : Table oracle} (sound : Sound table) (id : EntityId)
    (spelling : String) :
    Sound ((entity id spelling).run table).2 ∧
      ∀ names : Names, names.Agrees ((entity id spelling).run table).2 →
        names.Agrees table ∧ ((entity id spelling).run table).1 = names.entity id := by
  cases known : table.entities.lookup id with
  | some name =>
      rw [entity_run_known known]
      exact ⟨sound, fun names agrees => ⟨agrees, (agrees.entity known).symm⟩⟩
  | none =>
      rw [entity_run_new known]
      obtain ⟨usable, sound', entities, fields⟩ := candidate_spec sound spelling
      extract_lets asked name
      have free : name ∉ asked.2.takenEntities := fresh_not_mem _ _
      simp only [takenEntities, List.mem_append, not_or] at free
      refine ⟨{ sound' with entities := ?_, entityNames := ?_ }, fun names agrees => ⟨⟨?_, ?_⟩, ?_⟩⟩
      · rw [List.forall_mem_cons]
        exact ⟨⟨usable_fresh usable _, free.1⟩, sound'.entities⟩
      · exact List.nodup_cons.mpr ⟨free.2, sound'.entityNames⟩
      · intro other given found
        refine agrees.entity ?_
        rw [entities]
        exact lookup_cons_of_some known found
      · intro other given found
        refine agrees.field ?_
        rwa [← fields] at found
      · exact (agrees.entity (by simp)).symm

theorem field_spec {table : Table oracle} (sound : Sound table) (spelling : String) :
    Sound ((field spelling).run table).2 ∧
      ∀ names : Names, names.Agrees ((field spelling).run table).2 →
        names.Agrees table ∧ ((field spelling).run table).1 = names.field spelling := by
  cases known : table.fields.lookup spelling with
  | some name =>
      rw [field_run_known known]
      exact ⟨sound, fun names agrees => ⟨agrees, (agrees.field known).symm⟩⟩
  | none =>
      rw [field_run_new known]
      obtain ⟨usable, sound', entities, fields⟩ := candidate_spec sound spelling
      extract_lets asked name
      have free : name ∉ asked.2.takenFields := fresh_not_mem _ _
      refine ⟨{ sound' with fields := ?_, fieldNames := ?_ }, fun names agrees => ⟨⟨?_, ?_⟩, ?_⟩⟩
      · rw [List.forall_mem_cons]
        exact ⟨usable_fresh usable _, sound'.fields⟩
      · exact List.nodup_cons.mpr ⟨free, sound'.fieldNames⟩
      · intro other given found
        refine agrees.entity ?_
        rwa [← entities] at found
      · intro other given found
        refine agrees.field ?_
        rw [fields]
        exact lookup_cons_of_some known found
      · exact (agrees.field (by simp)).symm

/-- Two entities never share a name. -/
theorem Sound.entity_injective {table : Table oracle} (sound : Sound table)
    {first second : EntityId} {name : String} (given : table.entities.lookup first = some name)
    (given' : table.entities.lookup second = some name) : first = second := by
  obtain ⟨before, behind, split, -⟩ := List.lookup_eq_some_iff.mp given
  obtain ⟨before', behind', split', -⟩ := List.lookup_eq_some_iff.mp given'
  have mem : (first, name) ∈ table.entities := by simp [split]
  have mem' : (second, name) ∈ table.entities := by simp [split']
  have same := List.inj_on_of_nodup_map sound.entityNames mem mem' rfl
  exact congrArg Prod.fst same

/-- Tables that arise by requests. -/
inductive Reached : Table oracle → Prop
  | empty : Reached (.empty oracle)
  | entity {table : Table oracle} (id : EntityId) (spelling : String) :
      Reached table → Reached ((entity id spelling).run table).2
  | field {table : Table oracle} (spelling : String) :
      Reached table → Reached ((field spelling).run table).2

theorem Reached.sound {table : Table oracle} (reached : Reached table) : Sound table := by
  induction reached with
  | empty => exact sound_empty oracle
  | entity id spelling _ ih => exact (entity_spec ih id spelling).1
  | field spelling _ ih => exact (field_spec ih spelling).1

/-! ## Names for all entities -/

/-- Names that are longer than any of the given ones. -/
def spare (avoided : List String) (index : Nat) : String :=
  String.ofList (List.replicate ((avoided.flatMap String.toList).length + index + 1) '_')

theorem usable_spare (avoided : List String) (index : Nat) : Usable (spare avoided index) := by
  refine ⟨by simp [spare], ?_, by simp [spare, List.replicate_succ, beginsWithDigit]⟩
  intro c mem
  rw [spare, String.toList_ofList] at mem
  rw [List.eq_of_mem_replicate mem]
  decide

theorem spare_not_mem (avoided : List String) (index : Nat) : spare avoided index ∉ avoided := by
  intro mem
  have inside : (spare avoided index).toList.Sublist (avoided.flatMap String.toList) :=
    List.sublist_flatten_of_mem (List.mem_map_of_mem mem)
  have bound := inside.length_le
  simp only [spare, String.toList_ofList, List.length_replicate] at bound
  omega

theorem spare_injective (avoided : List String) : Function.Injective (spare avoided) := by
  intro first second same
  have size := congrArg String.length same
  simp only [spare, String.length_ofList, List.length_replicate] at size
  omega

/-- The names of a table, with spare ones for everything it does not name. -/
def names (table : Table oracle) : Names where
  entity id := (table.entities.lookup id).getD (spare table.takenEntities id.index)
  field spelling := (table.fields.lookup spelling).getD (spare [] 0)

theorem agrees_names (table : Table oracle) : table.names.Agrees table :=
  ⟨fun found => by simp [names, found], fun found => by simp [names, found]⟩

theorem Sound.of_lookup {table : Table oracle} (sound : Sound table) {id : EntityId}
    {name : String} (found : table.entities.lookup id = some name) :
    Usable name ∧ name ∉ reserved ∧ name ∈ table.takenEntities := by
  obtain ⟨before, behind, split, -⟩ := List.lookup_eq_some_iff.mp found
  have mem : (id, name) ∈ table.entities := by simp [split]
  refine ⟨(sound.entities _ mem).1, (sound.entities _ mem).2, ?_⟩
  exact List.mem_append_right _ (List.mem_map_of_mem mem)

theorem Sound.proper_names {table : Table oracle} (sound : Sound table) :
    table.names.Proper := by
  have spared : ∀ index, spare table.takenEntities index ∉ reserved := by
    intro index mem
    exact spare_not_mem _ index (List.mem_append_left _ mem)
  refine ⟨?_, ?_, ?_, ?_⟩
  · intro id
    cases found : table.entities.lookup id with
    | some name => simpa [names, found] using (sound.of_lookup found).1
    | none => simpa [names, found] using usable_spare _ _
  · intro id
    cases found : table.entities.lookup id with
    | some name => simpa [names, found] using (sound.of_lookup found).2.1
    | none => simpa [names, found] using spared _
  · intro first second same
    cases found : table.entities.lookup first with
    | some name =>
        cases found' : table.entities.lookup second with
        | some name' =>
            simp only [names, found, found', Option.getD_some] at same
            subst same
            exact sound.entity_injective found found'
        | none =>
            simp only [names, found, found', Option.getD_some, Option.getD_none] at same
            exact absurd (same ▸ (sound.of_lookup found).2.2) (spare_not_mem _ _)
    | none =>
        cases found' : table.entities.lookup second with
        | some name' =>
            simp only [names, found, found', Option.getD_some, Option.getD_none] at same
            exact absurd (same ▸ (sound.of_lookup found').2.2) (spare_not_mem _ _)
        | none =>
            simp only [names, found, found', Option.getD_none] at same
            exact congrArg EntityId.mk (spare_injective _ same)
  · intro spelling
    cases found : table.fields.lookup spelling with
    | some name =>
        obtain ⟨before, behind, split, -⟩ := List.lookup_eq_some_iff.mp found
        have mem : (spelling, name) ∈ table.fields := by simp [split]
        simpa [names, found] using sound.fields _ mem
    | none => simpa [names, found] using usable_spare _ _

end Table

end Qalam.Naming
