/-
# The table of entities along a run

Every declaration of a run adds one entity, and an assignment changes at most a tag. So an entity
keeps its name and stays constant or not, a constant keeps its tag as well, and numbers are given
in the order of the declarations. As far as names are concerned a run reads its opened and closed
frames and its declarations through a ledger, so a name that is looked up refers to a declaration
that the run has met.
-/

import Qalam.Proofs.Checking.Run
import Qalam.Proofs.Scoping.Lexical

namespace Qalam.Checking

open Analysis (Context)
open Scoping (DeclaredIn Event Ledger Mark RefersTo Tracks Traces declaredEntities ledgerOf)

/-! ## What an entity keeps -/

/-- An entity and the same entity at a later point of a run. -/
structure Retains (old new : Entity) : Prop where
  name : new.name = old.name
  constant : new.isConstant = old.isConstant
  fixed : old.isConstant = true → new = old

/-- An entity and what statements may make of it: a variable that is not constant may take another
tag. -/
inductive Revises : Entity → Entity → Prop
  | same (entity : Entity) : Revises entity entity
  | retagged (name : String) (old new : Tag) :
      Revises (.variable name false old) (.variable name false new)

namespace Revises

theorem trans {first second third : Entity} (here : Revises first second)
    (there : Revises second third) : Revises first third := by
  cases here with
  | same => exact there
  | retagged name old middle =>
      cases there with
      | same => exact .retagged name old middle
      | retagged _ _ new => exact .retagged name old new

theorem retype {entity : Entity} (changes : entity.isConstant = false) (tag : Tag) :
    Revises entity (entity.retype tag) := by
  cases entity with
  | «function» name => exact .same _
  | «variable» name constant old =>
      cases changes
      exact .retagged name old tag

theorem retains {old new : Entity} (revises : Revises old new) : Retains old new := by
  cases revises with
  | same => exact ⟨rfl, rfl, fun _ => rfl⟩
  | retagged name old new => exact ⟨rfl, rfl, nofun⟩

end Revises

/-- Every entity of a table is, perhaps revised, under the same number in another table. -/
def Revised (old new : Entities) : Prop :=
  ∀ id entity, old.get? id = some entity → ∃ later, new.get? id = some later ∧
    Revises entity later

namespace Revised

theorem refl (entities : Entities) : Revised entities entities :=
  fun _ entity known => ⟨entity, known, .same entity⟩

theorem trans {first second third : Entities} (here : Revised first second)
    (there : Revised second third) : Revised first third := by
  intro id entity known
  obtain ⟨middle, found, revises⟩ := here id entity known
  obtain ⟨last, found', revises'⟩ := there id middle found
  exact ⟨last, found', revises.trans revises'⟩

theorem alloc (entities : Entities) (entity : Entity) :
    Revised entities (entities.alloc entity).2 := by
  intro id other known
  refine ⟨other, ?_, .same other⟩
  obtain ⟨inside, -⟩ := Array.getElem?_eq_some_iff.mp known
  rw [Entities.get?, Entities.alloc, Array.getElem?_push_lt inside]
  exact (Array.getElem?_eq_getElem inside).symm.trans known

theorem retype {entities : Entities} {id : EntityId}
    (changes : ∀ entity, entities.get? id = some entity → entity.isConstant = false) (tag : Tag) :
    Revised entities (entities.retype id tag) := by
  intro other entity known
  rw [Entities.get?, Entities.retype, Array.getElem?_modify]
  split
  · rename_i same
    have here : entities.get? id = some entity := by
      rw [Entities.get?, same]
      exact known
    refine ⟨entity.retype tag, ?_, .retype (changes entity here) tag⟩
    exact congrArg (Option.map _) known
  · exact ⟨entity, known, .same entity⟩

end Revised

/-- One act revises entities and adds new ones. -/
theorem Does.revised {context final : Context} {raw bound : Act}
    (does : Does context raw bound final) : Revised context.entities final.entities := by
  cases does with
  | opens | closes | evaluates | leaves | returns => exact .refl _
  | declares => exact .alloc _ _
  | @assigns target value boundTarget boundValue first second changes _ retypes =>
      unfold Analysis.retype at retypes
      -- Only a name is given another tag, and it has been checked not to be a constant.
      split at retypes
      · rename_i note name id
        cases retypes
        exact .retype (fun entity known => changes note name id entity rfl known) _
      · cases retypes
        exact .refl _

theorem Runs.revised {raws bounds : List Visit} {context final : Context}
    (runs : Runs raws bounds context final) : Revised context.entities final.entities := by
  induction runs with
  | nil => exact .refl _
  | cons _ does _ ih => exact does.revised.trans ih

/-- Every entity of a table is retained by another table. -/
def Extends (old new : Entities) : Prop :=
  ∀ id entity, old.get? id = some entity → ∃ later, new.get? id = some later ∧
    Retains entity later

theorem Revised.extends {old new : Entities} (revised : Revised old new) : Extends old new := by
  intro id entity known
  obtain ⟨later, found, revises⟩ := revised id entity known
  exact ⟨later, found, revises.retains⟩

theorem Runs.extends {raws bounds : List Visit} {context final : Context}
    (runs : Runs raws bounds context final) : Extends context.entities final.entities :=
  runs.revised.extends

/-! ## What a run declares -/

/-- What a visit means for names. -/
def Visit.event? (visit : Visit) : Option (Event Declaration) :=
  match visit.act with
  | .opens => some .opens
  | .closes => some .closes
  | .declares declaration => some (.declares declaration.name declaration)
  | _ => none

/-- The declaration that a visit makes. -/
def Visit.declaration? (visit : Visit) : Option Declaration :=
  match visit.act with
  | .declares declaration => some declaration
  | _ => none

/-- The place and the entity of a declaration. -/
def Declaration.mark (declaration : Declaration) : Mark := ⟨declaration.pos, declaration.entity⟩

namespace Visits

/-- What some visits mean for names. -/
def events (visits : List Visit) : List (Event Declaration) := visits.filterMap Visit.event?

/-- The declarations that some visits make. -/
def declarations (visits : List Visit) : List Declaration := visits.filterMap Visit.declaration?

/-- The events of some visits with no more than places and entities. -/
def marks (visits : List Visit) : List (Event Mark) :=
  (events visits).map (Event.map Declaration.mark)

theorem marks_cons (visit : Visit) (others : List Visit) :
    marks (visit :: others) = marks [visit] ++ marks others := by
  cases event : visit.event? <;> simp [marks, events, event]

theorem declaredEntities_marks (visits : List Visit) :
    declaredEntities (marks visits) = (declarations visits).map Declaration.entity := by
  induction visits with
  | nil => rfl
  | cons visit others ih =>
      rw [marks_cons, Scoping.declaredEntities_append, ih]
      obtain ⟨around, act⟩ := visit
      cases act <;> rfl

theorem mem_declarations {visits : List Visit} {declaration : Declaration} :
    declaration ∈ declarations visits ↔ ∃ around, ⟨around, .declares declaration⟩ ∈ visits := by
  rw [declarations, List.mem_filterMap]
  constructor
  · rintro ⟨⟨around, act⟩, listed, here⟩
    cases act with
    | declares declared =>
        cases here
        exact ⟨around, listed⟩
    | _ => cases here
  · rintro ⟨around, listed⟩
    exact ⟨_, listed, rfl⟩

/-- An event that declares a name comes from a declaration of that name. -/
theorem name_of_mem_events {visits : List Visit} {name : String} {site : Declaration}
    (mem : .declares name site ∈ events visits) :
    site.name = name ∧ site ∈ declarations visits := by
  obtain ⟨⟨around, act⟩, listed, here⟩ := List.mem_filterMap.mp mem
  cases act with
  | declares declaration =>
      cases here
      exact ⟨rfl, mem_declarations.mpr ⟨around, listed⟩⟩
  | _ => cases here

end Visits

open Visits (declarations events marks)

/-- One act reads what it means for names through the ledger of its context. -/
theorem Does.reads {context final : Context} {raw bound : Act} (around : List Construct)
    (does : Does context raw bound final) :
    (ledgerOf context).readAll (marks [⟨around, raw⟩]) =
      some (marks [⟨around, bound⟩], ledgerOf final) := by
  cases does with
  | opens adjust => rfl
  | closes =>
      change (ledgerOf context).readAll [.closes] = some ([.closes], _)
      rw [← Scoping.leave_ledgerOf]
      rfl
  | @declares name pos entity origin filled scope fills free =>
      have traced := Traces.declare pos (filled.entity name) entity context
      rw [Scoping.run_declare, Origin.name_entity, free] at traced
      obtain ⟨_, read, rfl⟩ := traced
      exact read
  | evaluates | leaves | returns => rfl
  | @assigns target value boundTarget boundValue first second changes _ retypes =>
      have inert := Scoping.Inert.retype boundValue.tag boundTarget context
      rw [retypes] at inert
      obtain ⟨_, read, rfl⟩ := inert
      exact read

namespace Runs

variable {raws bounds : List Visit} {context final : Context}

theorem reads (runs : Runs raws bounds context final) :
    (ledgerOf context).readAll (marks raws) = some (marks bounds, ledgerOf final) := by
  induction runs with
  | nil => rfl
  | @cons around raw bound raws bounds _ _ _ _ does _ ih =>
      rw [Visits.marks_cons ⟨around, raw⟩ raws, Visits.marks_cons ⟨around, bound⟩ bounds]
      exact Ledger.readAll_append (does.reads around) ih

/-- A ledger of a run from the beginning tracks its declarations. -/
theorem tracks (runs : Runs raws bounds .initial final) : Tracks (marks bounds) (ledgerOf final) :=
  (Scoping.lexical_of_readAll runs.reads).2

/-- Numbers are given in the order of the declarations. -/
theorem map_entity (runs : Runs raws bounds .initial final) :
    (declarations bounds).map Declaration.entity =
      (List.range final.entities.size).map fun index => some ⟨index⟩ := by
  rw [← Visits.declaredEntities_marks]
  exact runs.tracks.entities

/-- A declaration of a run has its entity in the table. -/
theorem retains (runs : Runs raws bounds context final) {declaration : Declaration}
    (mem : declaration ∈ declarations bounds) :
    ∃ id entity, declaration.entity = some id ∧ final.entities.get? id = some entity ∧
      Retains (declaration.origin.entity declaration.name) entity := by
  obtain ⟨around, listed⟩ := Visits.mem_declarations.mp mem
  obtain ⟨-, -, raw, later, done, reached, next, -, -, -, does, rest⟩ := runs.exists_of_mem listed
  cases does with
  | @declares name pos before origin filled scope fills free =>
      have added := Entities.get?_alloc reached.entities (filled.entity name)
      obtain ⟨entity, known, retained⟩ := rest.extends _ _ added
      exact ⟨_, entity, rfl, known, retained⟩

/-- Every entity of the table comes from a declaration of the run. -/
theorem exists_declaration (runs : Runs raws bounds .initial final) {id : EntityId}
    {entity : Entity} (known : final.entities.get? id = some entity) :
    ∃ declaration ∈ declarations bounds, declaration.entity = some id ∧
      Retains (declaration.origin.entity declaration.name) entity := by
  obtain ⟨inside, -⟩ := Array.getElem?_eq_some_iff.mp known
  have numbered : some id ∈ (declarations bounds).map Declaration.entity := by
    rw [runs.map_entity]
    exact List.mem_map.mpr ⟨id.index, List.mem_range.mpr inside, rfl⟩
  obtain ⟨declaration, mem, same⟩ := List.mem_map.mp numbered
  obtain ⟨id', entity', same', known', retained⟩ := runs.retains mem
  cases same.symm.trans same'
  cases known.symm.trans known'
  exact ⟨declaration, mem, same, retained⟩

/-- A name that is looked up refers to a declaration that the run has met, and its entity is the
one of that declaration. -/
theorem resolves (runs : Runs raws bounds .initial final) {name : String} {id : EntityId}
    (resolved : final.scope.resolve? name = some id) :
    ∃ site entity, RefersTo (events bounds) name site ∧ final.entities.get? id = some entity ∧
      Retains (site.origin.entity name) entity := by
  -- A ledger knows entities only; the declaration behind one is found by its mark.
  rw [← Scoping.find?_ledgerOf] at resolved
  obtain ⟨mark, marked, numbered⟩ := runs.tracks.refersTo resolved
  obtain ⟨site, rfl, refers⟩ := (Scoping.refersTo_map Declaration.mark).mp marked
  obtain ⟨rfl, listed⟩ := Visits.name_of_mem_events refers.mem
  obtain ⟨id', entity, same, known, retained⟩ := runs.retains listed
  cases numbered.symm.trans same
  exact ⟨site, entity, refers, known, retained⟩

/-- A name in the bound tree has an entity of that name, both where it stands and at the end. -/
theorem exists_entity (runs : Runs raws bounds .initial final) {visit : Visit}
    (mem : visit ∈ bounds) {note : Note} {name : String} {entity : Option EntityId}
    (inside : .ident note name entity ∈ visit.act.parts) :
    ∃ raw reached next id found last, Does reached raw visit.act next ∧ entity = some id ∧
      reached.entities.get? id = some found ∧ found.name = name ∧
      final.entities.get? id = some last ∧ Retains found last := by
  obtain ⟨before, done, raw, later, done', reached, next, -, reaches, -, does, rest⟩ :=
    runs.exists_of_mem mem
  obtain ⟨id, same, resolved⟩ := does.named inside
  obtain ⟨site, found, -, known, retained⟩ := reaches.resolves resolved
  obtain ⟨last, known', retained'⟩ := (does.revised.trans rest.revised).extends id found known
  exact ⟨raw, reached, next, id, found, last, does, same, known,
    retained.name.trans (site.origin.name_entity name), known', retained'⟩

end Runs

end Qalam.Checking

namespace Qalam

/-- The declarations of a program, in order. -/
def Program.declarations (program : Program) : List Checking.Declaration :=
  Checking.Visits.declarations program.visits

end Qalam
