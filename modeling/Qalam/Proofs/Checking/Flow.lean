/-
# The flow of tags through a program

The tag of a variable changes while a program is analysed, but only by assignments to its name. So
at every point of the walk a variable has the tag of the value that was assigned to its name last,
or that of its declaration if there was none; a function has the same tag throughout. The names of a
bound program carry the tags of the points where they stand, and the table of entities those of the
end. Which assignment came last is read off the visits of the bound program alone, without any
table.
-/

import Qalam.Proofs.Checking.Statement
import Qalam.Proofs.Checking.Table

namespace Qalam.Checking

open Analysis (Context)

/-- The tag that a declaration gives to what it declares. -/
def Origin.tag : Origin → Tag
  | .variable _ (some init) => init.tag
  | .variable _ none => .none
  | .parameter _ | .item => .any
  | .function => .function
  | .classDef => .classRef

/-- The tag of what was declared, if the value that was assigned to its name last has the given one.
Assignments do not concern functions. -/
def Origin.tagAfter : Origin → Option Tag → Tag
  | .function, _ => .function
  | origin, last => last.getD origin.tag

/-- The entity of a declaration after assignments to its name. -/
def Declaration.entityAfter (declaration : Declaration) : Option Tag → Entity
  | none => declaration.origin.entity declaration.name
  | some tag => (declaration.origin.entity declaration.name).retype tag

/-- The tag of the value that an act assigns to the name of an entity. -/
def Act.assigned? (id : EntityId) : Act → Option Tag
  | assigns (.ident _ _ entity) value => if entity = some id then some value.tag else none
  | _ => none

namespace Visits

/-- The tag of the value that some visits assign last to the name of an entity. -/
def lastAssigned? (visits : List Visit) (id : EntityId) : Option Tag :=
  (visits.filterMap fun visit => visit.act.assigned? id).getLast?

/-- The declaration of an entity among some visits. -/
def declaration? (visits : List Visit) (id : EntityId) : Option Declaration :=
  (declarations visits).find? (·.entity = some id)

/-- The tag of an entity after some visits. -/
def tagAfter? (visits : List Visit) (id : EntityId) : Option Tag :=
  (declaration? visits id).map fun declaration =>
    declaration.origin.tagAfter (lastAssigned? visits id)

theorem lastAssigned?_concat (done : List Visit) (visit : Visit) (id : EntityId) :
    lastAssigned? (done ++ [visit]) id = (visit.act.assigned? id).or (lastAssigned? done id) := by
  rw [lastAssigned?, List.filterMap_append, List.getLast?_append]
  cases assigned : visit.act.assigned? id <;> simp [assigned, lastAssigned?]

theorem declaration?_concat (done : List Visit) (visit : Visit) (id : EntityId) :
    declaration? (done ++ [visit]) id = (declaration? done id).or
      (visit.declaration?.filter (·.entity = some id)) := by
  rw [declaration?, declarations, List.filterMap_append, List.find?_append]
  cases declared : visit.declaration? <;>
    simp [declared, declaration?, declarations, Option.filter, List.find?_singleton]

end Visits

open Visits (declaration? lastAssigned? tagAfter?)

theorem Declaration.tag_entityAfter (declaration : Declaration) (last : Option Tag) :
    (declaration.entityAfter last).tag = declaration.origin.tagAfter last := by
  obtain ⟨name, pos, entity, origin⟩ := declaration
  cases last <;> match origin with
    | .variable _ (some _) | .variable _ none | .parameter _ | .item | .function | .classDef => rfl

/-- Of two assignments only the later one is remembered. -/
theorem Declaration.retype_entityAfter (declaration : Declaration) (last : Option Tag) (tag : Tag) :
    (declaration.entityAfter last).retype tag = declaration.entityAfter (some tag) := by
  cases last with
  | none => rfl
  | some before =>
      rw [entityAfter, entityAfter]
      cases declaration.origin.entity declaration.name <;> rfl

/-! ## What a run leaves in the table -/

/-- The entities of a table are those that some visits declare, after the assignments of these
visits, and nothing else has been assigned to. -/
structure Flows (done : List Visit) (entities : Entities) : Prop where
  known : ∀ id, entities.get? id =
    (declaration? done id).map (·.entityAfter (lastAssigned? done id))
  assigned : ∀ id, (lastAssigned? done id).isSome = true → (entities.get? id).isSome = true

namespace Flows

variable {done : List Visit} {entities : Entities}

theorem nil : Flows [] Entities.empty := ⟨fun _ => rfl, fun _ some => nomatch some⟩

theorem tag_eq (flows : Flows done entities) (id : EntityId) :
    (entities.get? id).map Entity.tag = tagAfter? done id := by
  rw [flows.known, tagAfter?, Option.map_map]
  exact congrArg (Option.map · _) (funext fun declaration => declaration.tag_entityAfter _)

/-- A visit that neither declares nor assigns to a name leaves the table as it is. -/
theorem inert (flows : Flows done entities) {visit : Visit} (free : visit.declaration? = none)
    (idle : ∀ id, visit.act.assigned? id = none) : Flows (done ++ [visit]) entities := by
  have last : ∀ id, lastAssigned? (done ++ [visit]) id = lastAssigned? done id := by
    intro id
    rw [Visits.lastAssigned?_concat, idle, Option.none_or]
  constructor
  · intro id
    rw [Visits.declaration?_concat, free, last, Option.filter_none, Option.or_none]
    exact flows.known id
  · intro id
    rw [last]
    exact flows.assigned id

/-- A declaration adds its entity, to which nothing has been assigned before. -/
theorem declares (flows : Flows done entities) (around : List Construct) (name : String)
    (pos : Position) (origin : Origin) :
    Flows (done ++ [⟨around, .declares ⟨name, pos, some ⟨entities.size⟩, origin⟩⟩])
      (entities.alloc (origin.entity name)).2 := by
  have fresh : entities.get? ⟨entities.size⟩ = none := by simp [Entities.get?, Entities.size]
  have undeclared := flows.known ⟨entities.size⟩
  rw [fresh, eq_comm, Option.map_eq_none_iff] at undeclared
  have unassigned : lastAssigned? done ⟨entities.size⟩ = none := by
    by_contra assigned
    have known := flows.assigned _ (Option.isSome_iff_ne_none.mpr assigned)
    rw [fresh] at known
    cases known
  have last : ∀ id, lastAssigned? (done ++
      [⟨around, .declares ⟨name, pos, some ⟨entities.size⟩, origin⟩⟩]) id =
        lastAssigned? done id := by
    intro id
    rw [Visits.lastAssigned?_concat]
    rfl
  have added : ∀ id, (entities.alloc (origin.entity name)).2.get? id =
      if id = ⟨entities.size⟩ then some (origin.entity name) else entities.get? id := by
    rintro ⟨index⟩
    simp [Entities.alloc, Entities.get?, Entities.size, Array.getElem?_push]
  constructor
  · intro id
    rw [added, last, Visits.declaration?_concat]
    split
    · rename_i same
      rw [same, undeclared, unassigned]
      simp [Visit.declaration?, Declaration.entityAfter, Option.filter]
    · rename_i other
      rw [flows.known]
      simp [Visit.declaration?, Option.filter, Ne.symm other]
  · intro id
    rw [added, last]
    split
    · exact fun _ => rfl
    · exact flows.assigned id

/-- An assignment to the name of a known entity changes its tag, unless it is a function. -/
theorem retypes (flows : Flows done entities) {id : EntityId}
    (known : (entities.get? id).isSome = true) (around : List Construct) (note : Note)
    (name : String) (value : Expr) :
    Flows (done ++ [⟨around, .assigns (.ident note name (some id)) value⟩])
      (entities.retype id value.tag) := by
  have changed : ∀ other, (entities.retype id value.tag).get? other =
      if other = id then (entities.get? other).map (Entity.retype value.tag)
      else entities.get? other := by
    rintro ⟨index⟩
    obtain ⟨place⟩ := id
    simp [Entities.retype, Entities.get?, Array.getElem?_modify, eq_comm]
  have last : ∀ other, lastAssigned?
      (done ++ [⟨around, .assigns (.ident note name (some id)) value⟩]) other =
        if other = id then some value.tag else lastAssigned? done other := by
    intro other
    rw [Visits.lastAssigned?_concat, Act.assigned?]
    by_cases same : other = id
    · rw [if_pos same, if_pos (congrArg some same.symm), Option.some_or]
    · rw [if_neg same, if_neg (by simpa using Ne.symm same), Option.none_or]
  constructor
  · intro other
    rw [changed, last, Visits.declaration?_concat, flows.known]
    simp only [Visit.declaration?, Option.filter_none, Option.or_none]
    split
    · rw [Option.map_map]
      exact congrArg (Option.map · _)
        (funext fun declaration => declaration.retype_entityAfter _ _)
    · rfl
  · intro other
    rw [changed, last]
    split
    · rename_i same
      rw [same, Option.isSome_map]
      exact fun _ => known
    · exact flows.assigned other

end Flows

/-- One act of a run changes the table as its visit says. -/
theorem Does.flows {raws done : List Visit} {context final : Context} {raw bound : Act}
    (runs : Runs raws done .initial context) (flows : Flows done context.entities)
    (around : List Construct) (does : Does context raw bound final) :
    Flows (done ++ [⟨around, bound⟩]) final.entities := by
  have named := @does.named
  cases does with
  | opens | closes | evaluates | leaves | returns => exact flows.inert rfl fun _ => rfl
  | declares => exact flows.declares around _ _ _
  | @assigns target value boundTarget boundValue first second changes _ retypes =>
      unfold Analysis.retype at retypes
      split at retypes
      · rename_i note name id
        cases retypes
        obtain ⟨_, ⟨rfl⟩, resolved⟩ := named (List.mem_append_left _ (Parts.mem_self _))
        obtain ⟨-, entity, -, known, -⟩ := runs.resolves resolved
        exact flows.retypes (by rw [known]; rfl) around _ name boundValue
      · rename_i other
        cases retypes
        refine flows.inert rfl fun id => ?_
        cases boundTarget with
        | ident note name entity =>
            -- a name that was bound has an entity
            obtain ⟨id, rfl, -⟩ := named (List.mem_append_left _ (Parts.mem_self _))
            exact absurd rfl (other note name id)
        | _ => rfl

theorem Runs.flows {before done raws bounds : List Visit} {context final : Context}
    (reaches : Runs before done .initial context) (flows : Flows done context.entities)
    (runs : Runs raws bounds context final) : Flows (done ++ bounds) final.entities := by
  induction runs generalizing before done with
  | nil =>
      rw [List.append_nil]
      exact flows
  | cons agrees does _ ih =>
      have further := ih (reaches.append (.cons agrees does .nil))
        (does.flows reaches flows _)
      rwa [List.append_assoc, List.singleton_append] at further

theorem Runs.flows_initial {raws bounds : List Visit} {final : Context}
    (runs : Runs raws bounds .initial final) : Flows bounds final.entities := by
  have whole := Runs.flows .nil Flows.nil runs
  rwa [List.nil_append] at whole

/-! ## What changes no table -/

/-- Analysis of an expression leaves its context as it is. -/
theorem context_of_expr {context final : Context} {e bound : Expr}
    (found : Analysis.expr e context = .ok (bound, final)) : final = context := by
  have reports := reports_expr context e
  rw [Reports, found] at reports
  exact reports.1

/-- An assignment to what is not a name leaves its context as it is. -/
theorem context_of_assign {context final : Context} {pos : Position} {target value : Expr}
    {bound : Statement} (other : Parts.isName target = false)
    (found : Analysis.statement (.assign pos target value) context = .ok (bound, final)) :
    final = context := by
  have reports : Reports context (Parts.expr target ++ Parts.expr value)
      (Analysis.statement (.assign pos target value)) fun _ => True := by
    rw [Analysis.statement]
    refine (reports_expr context target).bind (by simp) fun left _ judged => ?_
    refine (reports_expr context value).bind (by simp) fun right _ _ => ?_
    have plain : Parts.isName left = false := judged.name.trans other
    have free : Analysis.requireMutable left = Pure.pure () ∧
        Analysis.retype right.tag left = Pure.pure () := by
      cases left with
      | ident => cases plain
      | _ => exact ⟨rfl, rfl⟩
    rw [free.1, free.2]
    exact Reports.pure trivial
  rw [Reports, found] at reports
  exact reports.1

end Qalam.Checking

namespace Qalam

open Checking

/-- Tags flow from declarations and assignments. In an accepted program a name that is not the
target of an assignment has the tag that the visits before it leave to its entity: `function` for a
function or method, otherwise the tag of the value that was last assigned to the name of the entity,
or that of the declaration if there was none. So the sides of an assignment have the tags from
before it. A parameter has the tag `any` where it is declared, and the table has the tags that all
visits leave. Nothing else than an assignment to a name changes the table: neither an expression,
such as a compound assignment or an increment, nor an assignment to anything but a name. -/
theorem Program.bind_flow {program : Program} {bound : BoundProgram}
    (binds : program.bind = .ok bound) :
    (∀ before visit later, bound.program.visits = before ++ visit :: later →
      (∀ note name id, .ident note name (some id) ∈ visit.act.values →
        ∃ tag, note.tag = some tag ∧ Visits.tagAfter? before id = some tag) ∧
      ∀ name pos entity tag, visit.act = .declares ⟨name, pos, entity, .parameter tag⟩ →
        tag = some .any) ∧
    (∀ id, (bound.entities.get? id).map Entity.tag = Visits.tagAfter? bound.program.visits id) ∧
    (∀ context e value after, Analysis.expr e context = .ok (value, after) → after = context) ∧
    ∀ context pos target value s after, Parts.isName target = false →
      Analysis.statement (.assign pos target value) context = .ok (s, after) →
        after = context := by
  obtain ⟨scope, runs⟩ := Program.runs_of_bind binds
  refine ⟨?_, runs.flows_initial.tag_eq, fun _ _ _ _ => context_of_expr,
    fun _ _ _ _ _ _ => context_of_assign⟩
  intro before visit later split
  rw [split] at runs
  obtain ⟨raws, raw, -, reached, next, -, reaches, -, does, -⟩ := runs.exists_of_split
  have flows := reaches.flows_initial
  constructor
  · intro note name id mem
    obtain ⟨_, ⟨rfl⟩, resolved, tagged⟩ := (does.accepted _ mem).named _ _ _ rfl
    obtain ⟨-, entity, -, known, -⟩ := reaches.resolves resolved
    have tag := flows.tag_eq id
    rw [known, Option.map_some] at tagged tag
    exact ⟨entity.tag, tagged, tag.symm⟩
  · rintro name pos entity tag declares
    rw [declares] at does
    cases does with
    | declares fills =>
        cases fills
        rfl

/-- A number that a function changes to a text, and the function, to whose name that text is
assigned. -/
theorem Program.bind_flow_function :
    let name (spelling : String) (line column : Nat) : Expr :=
      .ident (.at ⟨line, column⟩) spelling none
    let text (line column : Nat) : Expr := .literal (.at ⟨line, column⟩) (.str "text")
    let declared : Statement :=
      .declare ⟨1, 1⟩ false ⟨"n", ⟨1, 5⟩, none⟩ (some (.literal (.at ⟨1, 9⟩) (.int 1)))
    let changing : Statement := .assign ⟨2, 8⟩ (name "n" 2 8) (text 2 12)
    let declaredFunction : Statement := .function (.mk ⟨2, 1⟩ ⟨"f", ⟨2, 3⟩, none⟩
      [⟨"p", .at ⟨2, 5⟩, none⟩] (.mk ⟨2, 7⟩ [changing]))
    let longer : Statement :=
      .expr ⟨3, 1⟩ (.binary (.at ⟨3, 1⟩) .addAssign (name "n" 3 1) (text 3 6))
    let program : Program := ⟨[declared, declaredFunction, longer,
      .assign ⟨4, 1⟩ (name "f" 4 1) (name "n" 4 5),
      .print ⟨5, 1⟩ (.array (.at ⟨5, 5⟩) [name "f" 5 6, name "n" 5 9])]⟩
    ∃ bound, program.bind = .ok bound ∧
      bound.entities =
        ⟨#[.variable "n" false .string, .function "f", .variable "p" false .any]⟩ ∧
      (∀ before visit later, bound.program.visits = before ++ visit :: later →
        (∀ note name id, .ident note name (some id) ∈ visit.act.values →
          ∃ tag, note.tag = some tag ∧ Visits.tagAfter? before id = some tag) ∧
        ∀ name pos entity tag, visit.act = .declares ⟨name, pos, entity, .parameter tag⟩ →
          tag = some .any) ∧
      (∀ id, (bound.entities.get? id).map Entity.tag =
        Visits.tagAfter? bound.program.visits id) ∧
      (∀ context e value after, Analysis.expr e context = .ok (value, after) → after = context) ∧
      ∀ context pos target value s after, Parts.isName target = false →
        Analysis.statement (.assign pos target value) context = .ok (s, after) →
          after = context := by
  intro name text declared changing declaredFunction longer program
  have accepted : ∃ bound, program.bind = .ok bound ∧ bound.entities =
      ⟨#[.variable "n" false .string, .function "f", .variable "p" false .any]⟩ := ⟨_, rfl, rfl⟩
  obtain ⟨bound, binds, table⟩ := accepted
  exact ⟨bound, binds, table, bind_flow binds⟩

end Qalam
