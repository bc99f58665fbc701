/-
# Constants are never changed

What a program stores a value in is the target of an assignment, the left side of a compound
assignment or the operand of an increment or decrement, at any depth. In an accepted program none
of these is the name of a constant, so a constant keeps the tag of the value that it was declared
with; and a refusal because of a constant is due to such a place, where the name refers to the
declaration of a constant.
-/

import Qalam.Proofs.Checking.Statement
import Qalam.Proofs.Checking.Table

namespace Qalam.Checking

open Analysis (Context)
open Scoping (Event RefersTo)
open Visits (events)

/-- Whether a declaration is one of a constant. -/
def Origin.isConstant : Origin → Bool
  | .variable constant _ => constant
  | _ => false

theorem Origin.isConstant_entity (name : String) : ∀ origin : Origin,
    (origin.entity name).isConstant = origin.isConstant
  | .variable _ (some _) | .variable _ none | .parameter _ | .item | .function | .classDef => rfl

/-- The entity of a declared constant has the tag of its value. -/
theorem Origin.entity_eq_constant {origin : Origin} {spelling name : String} {tag : Tag} :
    origin.entity spelling = .variable name true tag ↔ spelling = name ∧
      ∃ init, origin = .variable true init ∧ tag = (init.map Expr.tag).getD .none := by
  match origin with
  | .variable constant (some init) | .variable constant none =>
      simp [Origin.entity, and_left_comm, eq_comm]
  | .parameter _ | .item | .function | .classDef => simp [Origin.entity, Entity.ofClass]

/-- The target of an assignment. -/
def Act.target? : Act → Option Expr
  | assigns target _ => some target
  | _ => none

/-- The expressions that an act stores values in. -/
def Act.stored (act : Act) : List Expr :=
  act.target?.toList ++ act.parts.filterMap Expr.stored?

/-! ## What is stored in -/

theorem Act.closed_parts : ∀ act : Act, Parts.Closed act.parts
  | .declares ⟨_, _, _, .variable _ init⟩ => Parts.closed_optional init
  | .declares ⟨_, _, _, .parameter _⟩ | .declares ⟨_, _, _, .item⟩
  | .declares ⟨_, _, _, .function⟩ | .declares ⟨_, _, _, .classDef⟩ => Parts.closed_nil
  | .evaluates _ e => Parts.closed_expr e
  | .assigns target value => (Parts.closed_expr target).append (Parts.closed_expr value)
  | .opens | .closes | .leaves _ _ | .returns _ => Parts.closed_nil

/-- What an expression stores a value in is inside it. -/
theorem mem_parts_of_stored? {x y : Expr} (stores : x.stored? = some y) : y ∈ Parts.expr x := by
  cases x with
  | binary note op left right =>
      rw [Expr.stored?, Option.ite_none_right_eq_some, Option.some.injEq] at stores
      rw [← stores.2]
      exact List.mem_cons_of_mem _ (List.mem_append_left _ (Parts.mem_self _))
  | unary note op side operand =>
      rw [Expr.stored?, Option.ite_none_right_eq_some, Option.some.injEq] at stores
      rw [← stores.2]
      exact List.mem_cons_of_mem _ (Parts.mem_self _)
  | _ => cases stores

theorem Act.stored_subset (act : Act) : act.stored ⊆ act.parts := by
  intro y mem
  rcases List.mem_append.mp mem with target | inside
  · cases act with
    | assigns target value =>
        cases List.mem_singleton.mp target
        exact List.mem_append_left _ (Parts.mem_self _)
    | _ => cases target
  · obtain ⟨x, listed, stores⟩ := List.mem_filterMap.mp inside
    exact act.closed_parts x listed (mem_parts_of_stored? stores)

theorem mutable_withTag {context : Context} {e : Expr} (changes : Mutable context e) (tag : Tag) :
    Mutable context (e.withTag tag) := by
  cases e with
  | ident note name entity =>
      rintro _ _ id found ⟨⟩ known
      exact changes note name id found rfl known
  | _ => rintro _ _ _ _ ⟨⟩

/-- A bound act stores values only in what is not the name of a constant. -/
theorem Does.mutable {context final : Context} {raw bound : Act}
    (does : Does context raw bound final) : ∀ y ∈ bound.stored, Mutable context y := by
  intro y mem
  rcases List.mem_append.mp mem with target | inside
  · cases does with
    | assigns _ _ changes =>
        cases List.mem_singleton.mp target
        exact mutable_withTag changes _
    | _ => cases target
  · obtain ⟨x, listed, stores⟩ := List.mem_filterMap.mp inside
    obtain ⟨z, accepted, rfl | ⟨tag, rfl⟩⟩ := does.exists_accepted listed
    · exact accepted.stored y stores
    · rw [stored?_withTag] at stores
      exact accepted.stored y stores

/-! ## Refusals -/

/-- Only a name is bound to a name. -/
theorem Evaluates.name {context : Context} {e : Expr} {note : Note} {name : String}
    {entity : Option EntityId} (evaluates : Evaluates context e (.ident note name entity)) :
    ∃ note' entity', e = .ident note' name entity' := by
  have judged := evaluates.judged
  cases e with
  | ident note' name' entity' =>
      cases judged.key
      exact ⟨note', entity', rfl⟩
  | _ => cases judged.name

theorem Evaluates.resolves {context : Context} {e : Expr} {note : Note} {name : String}
    {id : EntityId} (evaluates : Evaluates context e (.ident note name (some id))) :
    context.scope.resolve? name = some id := by
  obtain ⟨id', same, resolved, -⟩ :=
    (evaluates.judged.accepted _ (Parts.mem_self _)).named _ _ _ rfl
  cases same
  exact resolved

theorem Fails.ofConstant {context : Context} {act : Act} {error : SemanticError} {spelling : String}
    (fails : Fails context act error) (fault : error.fault = .assignToConstant spelling) :
    ∃ note name entity id constant, .ident note name entity ∈ act.stored ∧ note.pos = error.pos ∧
      context.scope.resolve? name = some id ∧ context.entities.get? id = some constant ∧
      constant.name = spelling ∧ constant.isConstant = true := by
  cases fails with
  | inside mem refuses =>
      cases refuses with
      | constant stores evaluates known constant =>
          cases fault
          obtain ⟨note', entity', rfl⟩ := evaluates.name
          refine ⟨note', _, entity', _, _, ?_, rfl, evaluates.resolves, known, rfl, constant⟩
          exact List.mem_append_right _ (List.mem_filterMap.mpr ⟨_, mem, stores⟩)
      | @contract _ _ _ contract => cases contract <;> cases fault
      | _ => cases fault
  | constant evaluates known constant =>
      cases fault
      obtain ⟨note', entity', rfl⟩ := evaluates.name
      exact ⟨note', _, entity', _, _, List.mem_cons_self, rfl, evaluates.resolves, known, rfl,
        constant⟩
  | _ => cases fault

theorem Fills.isConstant {context : Context} {origin filled : Origin}
    (fills : Fills context origin filled) : filled.isConstant = origin.isConstant := by
  cases fills <;> rfl

/-- Whether an event declares a constant. -/
def constancy : Event Declaration → Event Bool :=
  Event.map fun declaration => declaration.origin.isConstant

theorem Does.constancy_eq {context final : Context} {raw bound : Act} (around : List Construct)
    (does : Does context raw bound final) :
    (Visit.mk around bound).event?.map constancy = (Visit.mk around raw).event?.map constancy := by
  cases does with
  | @declares name pos entity origin filled scope fills free =>
      exact congrArg (fun constant => some (Event.declares name constant)) fills.isConstant
  | _ => rfl

/-- The declarations of constants in the bound tree are those in the raw tree. -/
theorem Runs.constancy_eq {raws bounds : List Visit} {context final : Context}
    (runs : Runs raws bounds context final) :
    (events bounds).map constancy = (events raws).map constancy := by
  rw [events, events, List.map_filterMap, List.map_filterMap]
  induction runs with
  | nil => rfl
  | @cons around raw bound _ _ _ _ _ _ does _ ih =>
      rw [List.filterMap_cons, List.filterMap_cons, does.constancy_eq around, ih]

/-- A name that has the entity of a constant refers to the declaration of a constant. -/
theorem Runs.refersTo_constant {raws bounds : List Visit} {final : Context}
    (runs : Runs raws bounds .initial final) {name : String} {id : EntityId} {entity : Entity}
    (resolved : final.scope.resolve? name = some id)
    (known : final.entities.get? id = some entity) (constant : entity.isConstant = true) :
    entity.name = name ∧
      ∃ site, RefersTo (events raws) name site ∧ site.origin.isConstant = true := by
  obtain ⟨site, other, refers, found, retained⟩ := runs.resolves resolved
  cases known.symm.trans found
  refine ⟨retained.name.trans (site.origin.name_entity name), ?_⟩
  have declared : site.origin.isConstant = true := by
    rw [← Origin.isConstant_entity name, ← retained.constant]
    exact constant
  -- The raw tree has no entities yet, but its declarations are the same, constants or not.
  have mapped : RefersTo ((events bounds).map constancy) name site.origin.isConstant :=
    (Scoping.refersTo_map _).mpr ⟨site, rfl, refers⟩
  rw [runs.constancy_eq, declared] at mapped
  obtain ⟨written, same, refers⟩ := (Scoping.refersTo_map _).mp mapped
  exact ⟨written, refers, same⟩

end Qalam.Checking

namespace Qalam

open Checking Scoping

/-- Constants are never changed. In an accepted program every name that a value is stored in has
an entity that is not constant, and the constants of the table are the declared ones with the tags
of their values. In a program that is refused because of a constant, a value is stored in that
name at the reported position, where the name refers to the declaration of a constant. -/
theorem Program.bind_constant (program : Program) :
    (∀ bound, program.bind = .ok bound →
      (∀ visit ∈ bound.program.visits, ∀ note name entity,
        .ident note name entity ∈ visit.act.stored →
        ∃ id found, entity = some id ∧ bound.entities.get? id = some found ∧
          found.isConstant = false) ∧
      (∀ id name tag, bound.entities.get? id = some (.variable name true tag) ↔
        ∃ pos init, ⟨name, pos, some id, .variable true init⟩ ∈ bound.program.declarations ∧
          tag = (init.map Expr.tag).getD .none)) ∧
    (∀ name pos, program.bind = .error ⟨.assignToConstant name, pos⟩ →
      ∃ before visit later note entity site, program.visits = before ++ visit :: later ∧
        .ident note name entity ∈ visit.act.stored ∧ note.pos = pos ∧
        RefersTo (Visits.events before) name site ∧ site.origin.isConstant = true) := by
  refine ⟨?_, ?_⟩
  · intro bound binds
    obtain ⟨scope, runs⟩ := Program.runs_of_bind binds
    refine ⟨?_, ?_⟩
    · intro visit mem note name entity stored
      obtain ⟨raw, reached, next, id, found, last, does, rfl, known, -, known', retained⟩ :=
        runs.exists_entity mem (Act.stored_subset _ stored)
      refine ⟨id, last, rfl, known', ?_⟩
      rw [retained.constant]
      exact does.mutable _ stored note name id found rfl known
    · intro id name tag
      constructor
      · intro known
        obtain ⟨⟨spelling, pos, _, origin⟩, mem, rfl, retained⟩ := runs.exists_declaration known
        have same := (retained.fixed retained.constant.symm).symm
        obtain ⟨rfl, init, rfl, tagged⟩ := Origin.entity_eq_constant.mp same
        exact ⟨pos, init, mem, tagged⟩
      · rintro ⟨pos, init, mem, tagged⟩
        have same : (Origin.variable true init).entity name = .variable name true tag :=
          Origin.entity_eq_constant.mpr ⟨rfl, init, rfl, tagged⟩
        obtain ⟨_, entity, ⟨rfl⟩, known, retained⟩ := runs.retains mem
        rw [same] at retained
        rw [known, retained.fixed rfl]
  · intro name pos refused
    obtain ⟨before, visit, later, done, reached, split, runs, -, fails⟩ :=
      Program.stops_of_bind refused
    obtain ⟨note, spelling, entity, id, found, stored, same, resolved, known, rfl, constant⟩ :=
      fails.ofConstant rfl
    obtain ⟨rfl, site, refers, declared⟩ := runs.refersTo_constant resolved known constant
    exact ⟨before, visit, later, note, entity, site, split, stored, same, refers, declared⟩

/-- A constant and, in a block, a variable of the same name that is counted up and takes another
value; and the same with the constant inside, where counting up is refused within an array. -/
theorem Program.bind_constant_shadowed :
    let one : Expr := .literal (.at ⟨1, 15⟩) (.int 1)
    let name (line column : Nat) : Expr := .ident (.at ⟨line, column⟩) "limit" none
    let counted : Expr := .unary (.at ⟨3, 6⟩) .increment .behind (name 3 6)
    let declared (line : Nat) (constant : Bool) : Statement :=
      .declare ⟨line, 1⟩ constant ⟨"limit", ⟨line, 7⟩, none⟩ (some one)
    let inside (body : List Statement) : Statement :=
      .ifElse ⟨2, 1⟩ [.mk ⟨2, 1⟩ (.literal (.at ⟨2, 4⟩) (.bool true)) (.mk ⟨2, 8⟩ body)] none
    let counting : Program := ⟨[declared 1 true, inside [declared 2 false, .expr ⟨3, 6⟩ counted,
      .assign ⟨4, 1⟩ (name 4 1) (.literal (.at ⟨4, 9⟩) (.str "none"))]]⟩
    let changing : Program := ⟨[declared 1 false, inside [declared 2 true,
      .print ⟨3, 1⟩ (.array (.at ⟨3, 5⟩) [counted])]]⟩
    (∃ bound, counting.bind = .ok bound ∧
      (∀ visit ∈ bound.program.visits, ∀ note name entity,
        .ident note name entity ∈ visit.act.stored →
        ∃ id found, entity = some id ∧ bound.entities.get? id = some found ∧
          found.isConstant = false) ∧
      (∀ id name tag, bound.entities.get? id = some (.variable name true tag) ↔
        ∃ pos init, ⟨name, pos, some id, .variable true init⟩ ∈ bound.program.declarations ∧
          tag = (init.map Expr.tag).getD .none)) ∧
    (changing.bind = .error ⟨.assignToConstant "limit", ⟨3, 6⟩⟩ ∧
      ∃ before visit later note entity site, changing.visits = before ++ visit :: later ∧
        .ident note "limit" entity ∈ visit.act.stored ∧ note.pos = ⟨3, 6⟩ ∧
        RefersTo (Visits.events before) "limit" site ∧ site.origin.isConstant = true) := by
  intro one name counted declared inside counting changing
  have accepted : ∃ bound, counting.bind = .ok bound := ⟨_, rfl⟩
  have refused : changing.bind = .error ⟨.assignToConstant "limit", ⟨3, 6⟩⟩ := rfl
  obtain ⟨bound, binds⟩ := accepted
  exact ⟨⟨bound, binds, (bind_constant counting).1 bound binds⟩,
    ⟨refused, (bind_constant changing).2 _ _ refused⟩⟩

end Qalam
