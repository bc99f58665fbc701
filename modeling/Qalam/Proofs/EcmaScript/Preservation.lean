/-
# Generated programs bind their names as their sources do

A name in the text of a program stands for the declaration of the entity that analysis gave it.
The declaration is in a frame around the name because names stay within reach, and no frame
further inside can capture the name because different entities have different names.
-/

import Qalam.Compiler
import Qalam.Proofs.EcmaScript.Lines
import Qalam.Proofs.EcmaScript.Reach
import Qalam.Proofs.Scoping.Lexical

namespace Qalam.EcmaScript

open Scoping (Event Mark Nesting framesAfter DeclaredIn)
open Scoping.Walk (framed binding parameters)

/-! ## Layouts under their names -/

/-- An event under the name of its entity. Words without one stay as they are. -/
def spelled (names : Naming.Names) : Event Mark → Event Mark
  | .declares name mark => .declares (names.identifier mark.entity name) mark
  | .mentions name mark => .mentions (mark.entity.elim name names.entity) mark
  | event => event

section

variable (names : Naming.Names)

theorem map_spelled_framed (events : List (Event Mark)) :
    (framed events).map (spelled names) = framed (events.map (spelled names)) := by
  simp [framed, spelled]

theorem map_spelled_constant (pos : Position) (value : Literal) :
    (Layout.constant pos value).map (spelled names) = Layout.constant pos value := by
  unfold Layout.constant
  split <;> rfl

mutual

theorem layout_expr : ∀ {e : Expr}, (∀ x ∈ Parts.expr e, x.Checked) →
    Layout.expr (names.expr e) = (Layout.expr e).map (spelled names)
  | .literal note value, _ => (map_spelled_constant names note.pos value).symm
  | .ident note name (some id), _ => rfl
  | .ident note name none, checked => by cases (checked _ (Parts.mem_self _)).2
  | .call note callee args, checked | .new note callee args, checked => by
      simp only [Parts.expr, List.forall_mem_cons, List.forall_mem_append] at checked
      rw [Naming.Names.expr, Layout.expr, Layout.expr, List.map_append, layout_expr checked.2.1,
        layout_exprs checked.2.2]
  | .this note field, _ => rfl
  | .typeOf note operand, checked | .unary note _ _ operand, checked
  | .property note operand _, checked => by
      simp only [Parts.expr, List.forall_mem_cons] at checked
      rw [Naming.Names.expr, Layout.expr, Layout.expr, layout_expr checked.2]
  | .ternary note condition yes no, checked => by
      simp only [Parts.expr, List.forall_mem_cons, List.forall_mem_append] at checked
      rw [Naming.Names.expr, Layout.expr, Layout.expr, List.map_append, List.map_append,
        layout_expr checked.2.1, layout_expr checked.2.2.1, layout_expr checked.2.2.2]
  | .binary note _ left right, checked | .member note left right, checked => by
      simp only [Parts.expr, List.forall_mem_cons, List.forall_mem_append] at checked
      rw [Naming.Names.expr, Layout.expr, Layout.expr, List.map_append, layout_expr checked.2.1,
        layout_expr checked.2.2]
  | .array note elements, checked => by
      simp only [Parts.expr, List.forall_mem_cons] at checked
      rw [Naming.Names.expr, Layout.expr, Layout.expr, layout_exprs checked.2]
  | .object note entries, checked => by
      simp only [Parts.expr, List.forall_mem_cons] at checked
      rw [Naming.Names.expr, Layout.expr, Layout.expr, map_spelled_framed,
        layout_pairs checked.2]

theorem layout_exprs : ∀ {es : List Expr}, (∀ x ∈ Parts.exprs es, x.Checked) →
    Layout.exprs (names.exprs es) = (Layout.exprs es).map (spelled names)
  | [], _ => rfl
  | e :: others, checked => by
      rw [Parts.exprs, List.forall_mem_append] at checked
      rw [Naming.Names.exprs, Layout.exprs, Layout.exprs, List.map_append,
        layout_expr checked.1, layout_exprs checked.2]

theorem layout_pair : ∀ {entry : Pair}, (∀ x ∈ Parts.pair entry, x.Checked) →
    Layout.pair (names.pair entry) = (Layout.pair entry).map (spelled names)
  | .mk pos key value canonical, checked => by
      have ofValue := layout_expr (forall_mem_value checked)
      by_cases plain : Parts.isName key = true
      · cases key with
        | ident =>
            rw [Naming.Names.pair, Layout.pair, Layout.pair]
            exact ofValue
        | _ => cases plain
      · have unnamed : Parts.isName key = false := by simpa using plain
        have ofKey := layout_expr (Layout.forall_mem_key unnamed checked)
        have same : isPlainKey (names.expr key) = isPlainKey key := by
          cases key <;> simp [Naming.Names.expr, isPlainKey]
        rw [Naming.Names.pair_of_not_isName names unnamed, Layout.pair_eq, Layout.pair_eq, same,
          List.map_append, ofValue]
        split
        · rfl
        · rw [ofKey]

theorem layout_pairs : ∀ {entries : List Pair}, (∀ x ∈ Parts.pairs entries, x.Checked) →
    Layout.pairs (names.pairs entries) = (Layout.pairs entries).map (spelled names)
  | [], _ => rfl
  | entry :: others, checked => by
      rw [Parts.pairs, List.forall_mem_append] at checked
      rw [Naming.Names.pairs, Layout.pairs, Layout.pairs, List.map_append,
        layout_pair checked.1, layout_pairs checked.2]

end

theorem layout_parameters (params : List Parameter) :
    parameters (params.map names.ofParameter) = (parameters params).map (spelled names) := by
  rw [parameters, parameters, List.map_map, List.map_map]
  rfl

theorem layout_declarator {entry : Binding × Option Expr}
    (checked : ∀ x ∈ Parts.optional entry.2, x.Checked) :
    Layout.declarator (names.declarator entry) = (Layout.declarator entry).map (spelled names) := by
  obtain ⟨name, value⟩ := entry
  cases value with
  | none => rfl
  | some value =>
      rw [Layout.declarator, List.map_cons, ← layout_expr names checked]
      rfl

theorem layout_declarators : ∀ {entries : List (Binding × Option Expr)},
    (∀ x ∈ entries.flatMap fun entry => Parts.optional entry.2, x.Checked) →
    (entries.map names.declarator).flatMap Layout.declarator =
      (entries.flatMap Layout.declarator).map (spelled names)
  | [], _ => rfl
  | entry :: others, checked => by
      rw [List.flatMap_cons, List.forall_mem_append] at checked
      rw [List.map_cons, List.flatMap_cons, List.flatMap_cons, List.map_append,
        layout_declarator names checked.1, layout_declarators checked.2]

mutual

theorem layout_statement : ∀ {s : Statement}, (∀ x ∈ Parts.statement s, x.Checked) →
    Layout.statement (names.statement s) = (Layout.statement s).map (spelled names)
  | .declare _ constant name init, checked => by
      have same := @layout_declarator names (name, init) checked
      rw [Naming.Names.statement, Layout.statement, Layout.statement, Layout.declaration,
        Layout.declaration, Naming.Names.optional, Option.isNone_map]
      split
      · rfl
      · exact same
  | .declareAll _ constant entries, checked => by
      rw [Naming.Names.statement, Layout.statement, Layout.statement]
      exact layout_declarators names checked
  | .assign _ target value, checked => by
      rw [Parts.statement, List.forall_mem_append] at checked
      rw [Naming.Names.statement, Layout.statement, Layout.statement, List.map_append,
        layout_expr names checked.1, layout_expr names checked.2]
  | .tryCatch _ body name handler, checked => by
      rw [Parts.statement, List.forall_mem_append] at checked
      rw [Naming.Names.statement, Layout.statement, Layout.statement, List.map_append,
        map_spelled_framed, map_spelled_framed, List.map_cons, map_spelled_framed,
        layout_block checked.1, layout_block checked.2]
      rfl
  | .classDef _ name (some initialiser) _ members, checked => by
      rw [Parts.statement, List.forall_mem_append] at checked
      rw [Naming.Names.statement, Layout.statement, Layout.statement, List.map_cons,
        map_spelled_framed, List.map_append, layout_constructor checked.1,
        layout_methods checked.2]
      rfl
  | .classDef _ name none _ members, checked => by
      rw [Naming.Names.statement, Layout.statement, Layout.statement, List.map_cons,
        map_spelled_framed, layout_methods checked]
      rfl
  | .function (.mk _ name params body), checked => by
      rw [Naming.Names.statement, Layout.statement, Layout.statement, List.map_cons,
        map_spelled_framed, List.map_append, map_spelled_framed, layout_parameters,
        layout_block checked]
      rfl
  | .ifElse _ alternatives (some otherwise), checked => by
      rw [Parts.statement, List.forall_mem_append] at checked
      rw [Naming.Names.statement, Layout.statement, Layout.statement, List.map_append,
        map_spelled_framed, layout_arms checked.1, layout_block checked.2]
  | .ifElse _ alternatives none, checked => by
      rw [Naming.Names.statement, Layout.statement, Layout.statement, layout_arms checked]
  | .whileLoop _ condition body, checked => by
      rw [Parts.statement, List.forall_mem_append] at checked
      rw [Naming.Names.statement, Layout.statement, Layout.statement, List.map_append,
        map_spelled_framed, layout_expr names checked.1, layout_block checked.2]
  | .forLoop _ name init condition step body, checked => by
      simp only [Parts.statement, List.forall_mem_append] at checked
      obtain ⟨first, second, third, inside⟩ := checked
      rw [Naming.Names.statement, Layout.statement, Layout.statement, map_spelled_framed,
        List.map_cons, List.map_append, List.map_append, List.map_append, map_spelled_framed,
        layout_expr names first, layout_expr names second, layout_expr names third,
        layout_block inside]
      rfl
  | .forOf _ name iterable body, checked => by
      rw [Parts.statement, List.forall_mem_append] at checked
      rw [Naming.Names.statement, Layout.statement, Layout.statement, map_spelled_framed,
        List.map_cons, List.map_append, map_spelled_framed, layout_expr names checked.1,
        layout_block checked.2]
      rfl
  | .switch _ selector alternatives (some otherwise), checked => by
      simp only [Parts.statement, List.forall_mem_append] at checked
      rw [Naming.Names.statement, Layout.statement, Layout.statement, List.map_append,
        map_spelled_framed, List.map_append, layout_expr names checked.1,
        layout_cases checked.2.1, layout_block checked.2.2]
  | .switch _ selector alternatives none, checked => by
      rw [Parts.statement, List.forall_mem_append] at checked
      rw [Naming.Names.statement, Layout.statement, Layout.statement, List.map_append,
        map_spelled_framed, layout_expr names checked.1, layout_cases checked.2]
  | .returns _ (some value), checked => layout_expr names checked
  | .returns _ none, _ => rfl
  | .print pos argument, checked => by
      rw [Naming.Names.statement, Layout.statement, Layout.statement, List.map_cons,
        layout_expr names checked]
      rfl
  | .breakLoop _, _ => rfl
  | .continueLoop _, _ => rfl
  | .expr _ e, checked => layout_expr names checked

theorem layout_statements : ∀ {body : List Statement}, (∀ x ∈ Parts.statements body, x.Checked) →
    Layout.statements (names.statements body) = (Layout.statements body).map (spelled names)
  | [], _ => rfl
  | first :: others, checked => by
      rw [Parts.statements, List.forall_mem_append] at checked
      rw [Naming.Names.statements, Layout.statements, Layout.statements, List.map_append,
        layout_statement checked.1, layout_statements checked.2]

theorem layout_block : ∀ {body : Block}, (∀ x ∈ Parts.block body, x.Checked) →
    Layout.block (names.block body) = (Layout.block body).map (spelled names)
  | .mk _ body, checked => by
      rw [Naming.Names.block, Layout.block, Layout.block]
      exact layout_statements checked

theorem layout_methods : ∀ {members : List Function},
    (∀ x ∈ Parts.functions members, x.Checked) →
    Layout.methods (names.methods members) = (Layout.methods members).map (spelled names)
  | [], _ => rfl
  | .mk _ name params body :: others, checked => by
      rw [Parts.functions, List.forall_mem_append] at checked
      rw [Naming.Names.methods, Layout.methods, Layout.methods, List.map_append,
        map_spelled_framed, List.map_append, map_spelled_framed, layout_parameters,
        layout_block checked.1, layout_methods checked.2]

theorem layout_constructor : ∀ {initialiser : Constructor},
    (∀ x ∈ Parts.constructor initialiser, x.Checked) →
    Layout.constructor (names.constructor initialiser) =
      (Layout.constructor initialiser).map (spelled names)
  | .mk _ params body, checked => by
      rw [Naming.Names.constructor, Layout.constructor, Layout.constructor, map_spelled_framed,
        List.map_append, map_spelled_framed, layout_parameters, layout_block checked]

theorem layout_arms : ∀ {alternatives : List Arm}, (∀ x ∈ Parts.arms alternatives, x.Checked) →
    Layout.arms (names.arms alternatives) = (Layout.arms alternatives).map (spelled names)
  | [], _ => rfl
  | .mk _ test body :: others, checked => by
      simp only [Parts.arms, Parts.arm, List.forall_mem_append] at checked
      rw [Naming.Names.arms, Layout.arms, Layout.arms, List.map_append, List.map_append,
        map_spelled_framed, layout_expr names checked.1.1, layout_block checked.1.2,
        layout_arms checked.2]

theorem layout_cases : ∀ {alternatives : List Arm}, (∀ x ∈ Parts.arms alternatives, x.Checked) →
    Layout.cases (names.arms alternatives) = (Layout.cases alternatives).map (spelled names)
  | [], _ => rfl
  | .mk _ test body :: others, checked => by
      simp only [Parts.arms, Parts.arm, List.forall_mem_append] at checked
      rw [Naming.Names.arms, Layout.cases, Layout.cases, List.map_append, List.map_append,
        layout_expr names checked.1.1, layout_block checked.1.2, layout_cases checked.2]

end

end

/-! ## From reach to resolution -/

/-- The entity of a name. -/
def entity? : Event Mark → Option EntityId
  | .declares _ mark | .mentions _ mark => mark.entity
  | _ => none

/-- A frame among some frames declares an entity. -/
def Visible (events : List (Event Mark)) (frames : List Nat) (id : EntityId) : Prop :=
  ∃ frame ∈ frames, ∃ name mark, DeclaredIn events frame name mark ∧ mark.entity = some id

theorem framesAfter_opens (before : List (Event Mark)) :
    ∃ frame, framesAfter (before ++ [Event.opens]) = frame :: framesAfter before :=
  ⟨_, by rw [framesAfter, Nesting.after_concat]; rfl⟩

theorem framesAfter_closes {events before : List (Event Mark)} {frame : Nat}
    (same : framesAfter events = frame :: framesAfter before) :
    framesAfter (events ++ [Event.closes]) = framesAfter before := by
  obtain ⟨next, others, frames⟩ :=
    List.exists_cons_of_ne_nil (Nesting.ordered_after before).nonempty
  rw [framesAfter, framesAfter, frames] at same
  rw [framesAfter, Nesting.after_concat, Nesting.step, same, framesAfter, frames]

theorem framesAfter_name {event : Event Mark} (name : event ≠ .opens ∧ event ≠ .closes)
    (before : List (Event Mark)) : framesAfter (before ++ [event]) = framesAfter before := by
  rw [framesAfter, Nesting.after_concat]
  cases event with
  | opens => exact absurd rfl name.1
  | closes => exact absurd rfl name.2
  | _ => rfl

/-- A place in two lists one after the other is a place in one of them. -/
theorem split_append {α : Type} {first second before after : List α} {x : α}
    (same : first ++ second = before ++ x :: after) :
    (∃ rest, first = before ++ x :: rest) ∨
      ∃ more, before = first ++ more ∧ second = more ++ x :: after := by
  rcases List.append_eq_append_iff.mp same with ⟨more, rfl, rfl⟩ | ⟨more, rfl, behind⟩
  · exact .inr ⟨more, rfl, rfl⟩
  · cases more with
    | nil => exact .inr ⟨[], by simp, by simpa using behind.symm⟩
    | cons y more =>
        cases behind
        exact .inl ⟨more, rfl⟩

namespace Scoped

variable {methods known declared : List EntityId} {target : List (Event Mark)}

/-- All frames that are opened are closed again. -/
theorem framesAfter_append (here : Scoped methods known target declared) :
    ∀ before : List (Event Mark), framesAfter (before ++ target) = framesAfter before := by
  induction here with
  | nil => simp
  | word _ ih | mention _ _ ih | declare _ ih =>
      intro before
      rw [List.append_cons, ih, framesAfter_name (by simp)]
  | @frame _ _ _ inner rest _ _ ih ih' =>
      intro before
      obtain ⟨frame, opens⟩ := framesAfter_opens before
      have closes := framesAfter_closes ((ih (before ++ [Event.opens])).trans opens)
      rw [List.append_cons, ← List.append_assoc, List.append_cons, ih', closes]

/-- Wherever a name has an entity that is no method, the entity is visible. -/
theorem visible (here : Scoped methods known target declared) {events : List (Event Mark)} :
    ∀ {before after : List (Event Mark)}, events = before ++ (target ++ after) →
      (∀ id ∈ known, Visible events (framesAfter before) id) →
      ∀ earlier event later, target = earlier ++ event :: later →
        ∀ id, entity? event = some id → id ∉ methods →
          Visible events (framesAfter (before ++ earlier)) id := by
  induction here with
  | nil =>
      intro before after _ _ earlier event later split
      simp at split
  | @word _ _ name pos rest _ ih =>
      intro before after whole reach earlier event later split id entity free
      cases earlier with
      | nil =>
          cases split
          cases entity
      | cons first earlier =>
          cases split
          rw [List.append_cons]
          refine ih (by simpa using whole) ?_ earlier event later rfl id entity free
          rwa [framesAfter_name (by simp)]
  | @mention _ _ name pos other rest inReach _ ih =>
      intro before after whole reach earlier event later split id entity free
      cases earlier with
      | nil =>
          cases split
          cases entity
          rw [List.append_nil]
          exact reach _ (inReach.resolve_left free)
      | cons first earlier =>
          cases split
          rw [List.append_cons]
          refine ih (by simpa using whole) ?_ earlier event later rfl id entity free
          rwa [framesAfter_name (by simp)]
  | @declare _ _ name pos other rest _ ih =>
      intro before after whole reach earlier event later split id entity free
      have here : Visible events (framesAfter before) other := by
        obtain ⟨frame, others, frames⟩ :=
          List.exists_cons_of_ne_nil (Nesting.ordered_after before).nonempty
        have listed : frame ∈ framesAfter before := by
          rw [framesAfter, frames]
          exact List.mem_cons_self
        refine ⟨frame, listed, name, ⟨pos, some other⟩, ?_, rfl⟩
        exact ⟨before, rest ++ after, whole, by rw [framesAfter, frames]; rfl⟩
      cases earlier with
      | nil =>
          cases split
          cases entity
          rwa [List.append_nil]
      | cons first earlier =>
          cases split
          rw [List.append_cons]
          refine ih (by simpa using whole) ?_ earlier event later rfl id entity free
          rw [framesAfter_name (by simp), List.forall_mem_append, List.forall_mem_singleton]
          exact ⟨reach, here⟩
  | @frame _ _ _ inner rest inside _ ih ih' =>
      intro before after whole reach earlier event later split id entity free
      cases earlier with
      | nil =>
          cases split
          cases entity
      | cons first earlier =>
          obtain ⟨frame, opens⟩ := framesAfter_opens before
          rw [List.cons_append, List.cons.injEq] at split
          obtain ⟨rfl, split⟩ := split
          rcases split_append split with ⟨behind, rfl⟩ | ⟨more, rfl, behind⟩
          · -- The place is inside the frame, where everything around it is visible as well.
            rw [List.append_cons]
            refine ih (by simpa using whole) ?_ earlier event behind rfl id entity free
            intro other mem
            obtain ⟨outer, listed, found⟩ := reach other mem
            rw [opens]
            exact ⟨outer, List.mem_cons_of_mem _ listed, found⟩
          · cases more with
            | nil =>
                cases behind
                cases entity
            | cons last more =>
                cases behind
                have closed := framesAfter_closes
                  ((inside.framesAfter_append (before ++ [Event.opens])).trans opens)
                rw [List.append_cons, ← List.append_assoc, List.append_cons]
                refine ih' (by simpa using whole) ?_ more event later rfl id entity free
                rwa [closed]

/-- Every declaration has an entity. -/
theorem exists_entity (here : Scoped methods known target declared) {name : String} {mark : Mark}
    (listed : .declares name mark ∈ target) : ∃ id, mark.entity = some id := by
  induction here with
  | nil => cases listed
  | word _ ih | mention _ _ ih => exact ih (by simpa using listed)
  | @declare _ _ _ _ id _ _ ih =>
      rcases List.mem_cons.mp listed with same | further
      · cases same
        exact ⟨id, rfl⟩
      · exact ih further
  | frame _ _ ih ih' =>
      simp only [List.mem_cons, List.mem_append, reduceCtorEq, false_or] at listed
      exact listed.elim ih ih'

/-- Names are of no importance. -/
theorem map_spelled (here : Scoped methods known target declared) (names : Naming.Names) :
    Scoped methods known (target.map (spelled names)) declared := by
  induction here with
  | nil => exact .nil
  | word _ ih => exact .word ih
  | mention inReach _ ih => exact .mention inReach ih
  | declare _ ih => exact .declare ih
  | frame _ _ ih ih' =>
      rw [List.map_cons, List.map_append, List.map_cons]
      exact .frame ih ih'

end Scoped

/-- The marks of the declarations among some events. -/
def declaredMarks (events : List (Event Mark)) : List Mark :=
  events.filterMap fun
    | .declares _ mark => some mark
    | _ => none

theorem declaredEntities_eq_map (events : List (Event Mark)) :
    Scoping.declaredEntities events = (declaredMarks events).map Mark.entity := by
  induction events with
  | nil => rfl
  | cons event others ih => cases event <;> simp [declaredMarks, Scoping.declaredEntities, ih]

theorem mem_declaredMarks {events : List (Event Mark)} {name : String} {mark : Mark}
    (listed : .declares name mark ∈ events) : mark ∈ declaredMarks events :=
  List.mem_filterMap.mpr ⟨_, listed, rfl⟩

theorem DeclaredIn.mem {events : List (Event Mark)} {frame : Nat} {name : String} {mark : Mark}
    (declared : DeclaredIn events frame name mark) : .declares name mark ∈ events := by
  obtain ⟨earlier, later, rfl, -⟩ := declared
  simp

/-- An event is a name with a mark. -/
def IsName (event : Event Mark) (name : String) (mark : Mark) : Prop :=
  event = .declares name mark ∨ event = .mentions name mark

/-- A name with its mark stands behind some of the events. -/
def Occurs (events before : List (Event Mark)) (name : String) (mark : Mark) : Prop :=
  ∃ event later, IsName event name mark ∧ events = before ++ event :: later

/-- Events under the names of their entities. -/
def respelled (names : EntityId → String) : Event Mark → Event Mark
  | .declares name mark => .declares (mark.entity.elim name names) mark
  | .mentions name mark => .mentions (mark.entity.elim name names) mark
  | event => event

/-- A text binds its names as its source does, apart from the methods of classes: every name of the
source with an entity is a name of the text, and the other way round; it stands for the one
declaration of its entity; and two names have the same text just if they have the same entity. -/
structure BindsAs (source text : List (Event Mark)) (methods : List EntityId) : Prop where
  emitted : ∃ names : EntityId → String, (text.filter (carries methods)).Perm
    ((source.filter (carries methods)).map (respelled names))
  resolved : ∀ {before name mark id}, Occurs text before name mark → mark.entity = some id →
    id ∉ methods → ∃ site, site.entity = some id ∧
      ∀ other, ResolvesTo text before name other ↔ other = site
  told : ∀ {before before' name name' mark mark' id id'}, Occurs text before name mark →
    Occurs text before' name' mark' → mark.entity = some id → mark'.entity = some id' →
    id ∉ methods → id' ∉ methods → (name = name' ↔ id = id')

section

variable {methods : List EntityId} {layout : List (Event Mark)} {names : Naming.Names}

theorem name_of_mem {event : Event Mark} (listed : event ∈ layout.map (spelled names))
    {name : String} {mark : Mark} (named : IsName event name mark) {id : EntityId}
    (entity : mark.entity = some id) : name = names.entity id := by
  obtain ⟨original, -, rfl⟩ := List.mem_map.mp listed
  cases original with
  | opens | closes => simp [IsName, spelled] at named
  | declares spelling mark' =>
      have same : names.identifier mark'.entity spelling = name ∧ mark' = mark := by
        simpa [IsName, spelled] using named
      rw [← same.1, same.2, entity]
      rfl
  | mentions spelling mark' =>
      have same : mark'.entity.elim spelling names.entity = name ∧ mark' = mark := by
        simpa [IsName, spelled] using named
      rw [← same.1, same.2, entity]
      rfl

theorem exists_of_mem_spelled {name : String} {mark : Mark}
    (listed : .declares name mark ∈ layout.map (spelled names)) :
    ∃ spelling, .declares spelling mark ∈ layout := by
  obtain ⟨original, mem, same⟩ := List.mem_map.mp listed
  cases original with
  | declares spelling mark' =>
      cases same
      exact ⟨spelling, mem⟩
  | _ => cases same

theorem carries_spelled (event : Event Mark) :
    carries methods (spelled names event) = carries methods event := by
  match event with
  | .opens | .closes => rfl
  | .declares _ ⟨_, some _⟩ | .mentions _ ⟨_, some _⟩ => rfl
  | .declares _ ⟨_, none⟩ | .mentions _ ⟨_, none⟩ => rfl

/-- Names with entities do not depend on the names of fields. -/
theorem spelled_eq_respelled {event : Event Mark} (carried : carries methods event = true) :
    spelled names event = respelled names.entity event := by
  match event with
  | .opens | .closes => rfl
  | .declares _ ⟨_, some _⟩ | .mentions _ ⟨_, some _⟩ => rfl
  | .declares _ ⟨_, none⟩ | .mentions _ ⟨_, none⟩ => cases carried

theorem filter_spelled :
    (layout.map (spelled names)).filter (carries methods) =
      (layout.filter (carries methods)).map (respelled names.entity) := by
  rw [List.filter_map]
  have same : carries methods ∘ spelled names = carries methods := by
    funext event
    exact carries_spelled event
  rw [same]
  refine List.map_congr_left fun event mem => ?_
  exact spelled_eq_respelled (List.mem_filter.mp mem).2

/-- No two declarations have the same entity, methods aside. -/
theorem declared_unique {source : List (Event Mark)}
    (carried : (layout.filter (carries methods)).Perm (source.filter (carries methods)))
    (distinct : (Scoping.declaredEntities source).Nodup) {name name' : String} {mark mark' : Mark}
    (listed : .declares name mark ∈ layout) (listed' : .declares name' mark' ∈ layout)
    {id : EntityId} (entity : mark.entity = some id) (entity' : mark'.entity = some id)
    (free : id ∉ methods) : mark = mark' := by
  have nodup : ((declaredMarks (layout.filter (carries methods))).map Mark.entity).Nodup := by
    refine ((carried.filterMap _).map _).nodup_iff.mpr ?_
    rw [declaredEntities_eq_map] at distinct
    exact distinct.sublist ((List.filter_sublist.filterMap _).map _)
  have kept {name : String} {mark : Mark} (listed : .declares name mark ∈ layout)
      (entity : mark.entity = some id) :
      mark ∈ declaredMarks (layout.filter (carries methods)) := by
    refine mem_declaredMarks (List.mem_filter.mpr ⟨listed, ?_⟩)
    obtain ⟨pos, owner⟩ := mark
    cases entity
    exact decide_eq_true free
  exact List.inj_on_of_nodup_map nodup (kept listed entity) (kept listed' entity')
    (entity.trans entity'.symm)

/-- The innermost of some frames with a property. -/
theorem exists_first {α : Type} {holds : α → Prop} {items : List α}
    (found : ∃ x ∈ items, holds x) :
    ∃ before x after, items = before ++ x :: after ∧ holds x ∧ ∀ y ∈ before, ¬ holds y := by
  induction items with
  | nil => simp at found
  | cons first others ih =>
      by_cases here : holds first
      · exact ⟨[], first, others, rfl, here, by simp⟩
      · have further : ∃ x ∈ others, holds x := by simpa [here] using found
        obtain ⟨before, x, after, rfl, holds, earlier⟩ := ih further
        exact ⟨first :: before, x, after, rfl, holds, List.forall_mem_cons.mpr ⟨here, earlier⟩⟩

/-- Whatever is declared under the name of an entity is that entity. -/
theorem entity_of_declares {declared : List EntityId} (proper : names.Proper)
    (inReach : Scoped methods [] layout declared) {name : String} {site : Mark} {id : EntityId}
    (same : name = names.entity id)
    (listed : .declares name site ∈ layout.map (spelled names)) : site.entity = some id := by
  obtain ⟨other, entity⟩ := (inReach.map_spelled names).exists_entity listed
  have spelling := name_of_mem listed (.inl rfl) entity
  rw [entity, proper.injective (spelling.symm.trans same)]

theorem bindsAs {source : List (Event Mark)} {declared : List EntityId} (proper : names.Proper)
    (inReach : Scoped methods [] layout declared)
    (carried : (layout.filter (carries methods)).Perm (source.filter (carries methods)))
    (distinct : (Scoping.declaredEntities source).Nodup) :
    BindsAs source (layout.map (spelled names)) methods := by
  have named {before : List (Event Mark)} {name : String} {mark : Mark} {id : EntityId}
      (occurs : Occurs (layout.map (spelled names)) before name mark)
      (entity : mark.entity = some id) : name = names.entity id := by
    obtain ⟨event, later, isName, split⟩ := occurs
    have listed : event ∈ layout.map (spelled names) := by
      rw [split]
      simp
    exact name_of_mem listed isName entity
  refine ⟨⟨names.entity, ?_⟩, ?_, ?_⟩
  · rw [filter_spelled]
    exact carried.map _
  · intro before name mark id occurs entity free
    have same := named occurs entity
    obtain ⟨event, later, isName, split⟩ := occurs
    have owned : entity? event = some id := by
      rcases isName with rfl | rfl <;> exact entity
    have visible := @Scoped.visible _ _ _ _ (inReach.map_spelled names) _ [] []
      (List.append_nil _).symm (by simp) before event later split id owned free
    have candidates : ∃ frame ∈ framesAfter before, ∃ site,
        DeclaredIn (layout.map (spelled names)) frame name site := by
      obtain ⟨frame, around, spelling, site, declares, entity'⟩ := visible
      have spelledSame := name_of_mem (DeclaredIn.mem declares) (.inl rfl) entity'
      exact ⟨frame, around, site, (spelledSame.trans same.symm) ▸ declares⟩
    obtain ⟨inner, frame, outer, frames, ⟨site, declares⟩, nearer⟩ := exists_first candidates
    have siteEntity := entity_of_declares proper inReach same (DeclaredIn.mem declares)
    refine ⟨site, siteEntity, fun other => ⟨?_, ?_⟩⟩
    · rintro ⟨_, _, _, -, otherDeclares, -⟩
      have otherEntity := entity_of_declares proper inReach same (DeclaredIn.mem otherDeclares)
      obtain ⟨spelling, listed⟩ := exists_of_mem_spelled (DeclaredIn.mem declares)
      obtain ⟨spelling', listed'⟩ := exists_of_mem_spelled (DeclaredIn.mem otherDeclares)
      exact declared_unique carried distinct listed' listed otherEntity siteEntity free
    · rintro rfl
      exact ⟨inner, frame, outer, frames, declares,
        fun near mem other found => nearer near mem ⟨other, found⟩⟩
  · intro before before' name name' mark mark' id id' occurs occurs' entity entity' _ _
    rw [named occurs entity, named occurs' entity']
    exact proper.injective.eq_iff

end

end Qalam.EcmaScript

namespace Qalam

open EcmaScript

/-- The names of a program in the order of its text. -/
def Program.layout (program : Program) : List (Scoping.Event Scoping.Mark) :=
  Layout.statements program.statements

/-- The entities of the methods of all classes of a program. -/
def Program.methods (program : Program) : List EntityId := Methods.statements program.statements

/-- What analysis has bound a ledger can read. -/
theorem Program.exists_readAll {program : Program} {bound : BoundProgram}
    (binds : program.bind = .ok bound) :
    ∃ ledger, Scoping.Ledger.initial.readAll program.events =
      some (bound.program.events, ledger) := by
  obtain ⟨context, runs⟩ := Program.run_of_bind binds
  have traced := Scoping.Traces.statements program.statements .initial
  rw [runs] at traced
  obtain ⟨events, read, rfl⟩ := traced
  exact ⟨_, read⟩

/-- The text of an accepted program can be read, and its names and frames are those of the layout
of the program, each name under the name of its entity. -/
theorem Program.exists_layout {source : List Token} {program : Program} {bound : BoundProgram}
    (parsed : Program.ofTokens source = .ok program) (binds : program.bind = .ok bound)
    (oracle : Naming.Oracle) (indent : Nat) :
    ∃ names : Naming.Names, names.Proper ∧
      (bound.program.rename oracle).layout = bound.program.layout.map (spelled names) ∧
      ∃ ts, lex (bound.program.generate oracle indent) = some ts ∧
        scopes ts = some (Layout.bare (bound.program.rename oracle).layout) := by
  have checked := Program.checked_of_bind parsed binds
  have counted := Program.branches_of_bind parsed binds
  obtain ⟨names, proper, renamed⟩ := Program.rename_eq_substitution bound.program oracle
  have leads := Leads.statements proper ⟨indent, 0⟩ [] checked counted
  obtain ⟨ts, lexed, scanned⟩ := leads.scopes
  refine ⟨names, proper, ?_, ts, ?_, ?_⟩
  · rw [renamed]
    exact layout_statements names checked
  · rw [Program.generate, renamed]
    exact lexed
  · rw [renamed]
    exact scanned

/-- In the order of the text every entity of an accepted program is within reach of its names, the
methods of classes excepted. -/
theorem Program.layout_scoped {program : Program} {bound : BoundProgram}
    (binds : program.bind = .ok bound) :
    ∃ declared, Scoped bound.program.methods [] bound.program.layout declared := by
  obtain ⟨ledger, read⟩ := Program.exists_readAll binds
  have simulates := @Simulates.statements bound.program.methods _ (List.Subset.refl _)
  obtain ⟨added, -, reach⟩ := simulates.reach (followAll_of_readAll read)
  obtain ⟨declared, inReach, -⟩ := reach [] (by simp [Covered])
  exact ⟨declared, inReach⟩

/-- No two declarations of an accepted program have the same entity. -/
theorem Program.events_distinct {program : Program} {bound : BoundProgram}
    (binds : program.bind = .ok bound) :
    (Scoping.declaredEntities bound.program.events).Nodup := by
  obtain ⟨ledger, read⟩ := Program.exists_readAll binds
  exact (Scoping.lexical_of_readAll read).1.distinct

/-- The names of an accepted program bind in the order of its text, whatever proper names its
entities have. -/
theorem Program.layout_bindsAs {program : Program} {bound : BoundProgram}
    (binds : program.bind = .ok bound) {names : Naming.Names} (proper : names.Proper) :
    BindsAs bound.program.events (bound.program.layout.map (spelled names))
      bound.program.methods := by
  obtain ⟨declared, inReach⟩ := Program.layout_scoped binds
  have simulates := @Simulates.statements bound.program.methods _ (List.Subset.refl _)
  exact bindsAs proper inReach simulates.carried (Program.events_distinct binds)

/-- Compilation preserves binding. The text of an accepted program can be read, its names and frames
are those of the layout of the program, and each name with an entity, unless that is a method,
stands for the declaration of the same entity. -/
theorem Program.generate_binds {source : List Token} {program : Program} {bound : BoundProgram}
    (parsed : Program.ofTokens source = .ok program) (binds : program.bind = .ok bound)
    (oracle : Naming.Oracle) (indent : Nat) :
    ∃ ts, lex (bound.program.generate oracle indent) = some ts ∧
      scopes ts = some (Layout.bare (bound.program.rename oracle).layout) ∧
      BindsAs bound.program.events (bound.program.rename oracle).layout
        bound.program.methods := by
  obtain ⟨names, proper, same, ts, lexed, scanned⟩ :=
    Program.exists_layout parsed binds oracle indent
  refine ⟨ts, lexed, scanned, ?_⟩
  rw [same]
  exact Program.layout_bindsAs binds proper

/-- The tokens of `let x = 1; switch (x) \x7b case 1: let x = x + 1; case 2: let x = 2; \x7d`. -/
def shadowingTokens : List Token :=
  [⟨.keyword .letKw, ⟨1, 1⟩⟩, ⟨.ident "x", ⟨1, 2⟩⟩, ⟨.symbol .eq, ⟨1, 3⟩⟩, ⟨.int 1, ⟨1, 4⟩⟩,
    ⟨.symbol .semi, ⟨1, 5⟩⟩, ⟨.keyword .switchKw, ⟨2, 1⟩⟩, ⟨.symbol .lparen, ⟨2, 2⟩⟩,
    ⟨.ident "x", ⟨2, 3⟩⟩, ⟨.symbol .rparen, ⟨2, 4⟩⟩, ⟨.symbol .lbrace, ⟨2, 5⟩⟩,
    ⟨.keyword .caseKw, ⟨3, 1⟩⟩, ⟨.int 1, ⟨3, 2⟩⟩, ⟨.symbol .colon, ⟨3, 3⟩⟩,
    ⟨.keyword .letKw, ⟨4, 1⟩⟩, ⟨.ident "x", ⟨4, 2⟩⟩, ⟨.symbol .eq, ⟨4, 3⟩⟩,
    ⟨.ident "x", ⟨4, 4⟩⟩, ⟨.symbol .plus, ⟨4, 5⟩⟩, ⟨.int 1, ⟨4, 6⟩⟩, ⟨.symbol .semi, ⟨4, 7⟩⟩,
    ⟨.keyword .caseKw, ⟨5, 1⟩⟩, ⟨.int 2, ⟨5, 2⟩⟩, ⟨.symbol .colon, ⟨5, 3⟩⟩,
    ⟨.keyword .letKw, ⟨6, 1⟩⟩, ⟨.ident "x", ⟨6, 2⟩⟩, ⟨.symbol .eq, ⟨6, 3⟩⟩, ⟨.int 2, ⟨6, 4⟩⟩,
    ⟨.symbol .semi, ⟨6, 5⟩⟩, ⟨.symbol .rbrace, ⟨7, 1⟩⟩, ⟨.eof, ⟨7, 2⟩⟩]

/-- The program, before and after binding. -/
def shadowingProgram (tag : Tag → Option Tag) (entity : Nat → Option EntityId) : Program :=
  ⟨[.declare ⟨1, 1⟩ false ⟨"x", ⟨1, 2⟩, entity 0⟩
      (some (.literal ⟨⟨1, 4⟩, tag .int⟩ (.int 1))),
    .switch ⟨2, 1⟩ (.ident ⟨⟨2, 3⟩, tag .int⟩ "x" (entity 0))
      [.mk ⟨3, 1⟩ (.literal ⟨⟨3, 2⟩, tag .int⟩ (.int 1)) (.mk ⟨3, 1⟩
          [.declare ⟨4, 1⟩ false ⟨"x", ⟨4, 2⟩, entity 1⟩
            (some (.binary ⟨⟨4, 4⟩, tag .number⟩ .add
              (.ident ⟨⟨4, 4⟩, tag .int⟩ "x" (entity 0))
              (.literal ⟨⟨4, 6⟩, tag .int⟩ (.int 1))))]),
        .mk ⟨5, 1⟩ (.literal ⟨⟨5, 2⟩, tag .int⟩ (.int 2)) (.mk ⟨5, 1⟩
          [.declare ⟨6, 1⟩ false ⟨"x", ⟨6, 2⟩, entity 2⟩
            (some (.literal ⟨⟨6, 4⟩, tag .int⟩ (.int 2)))])]
      none]⟩

theorem Program.generate_binds_shadowing :
    let program := shadowingProgram some fun index => some ⟨index⟩
    ∃ ts, lex (program.generate .silent 2) = some ts ∧
      scopes ts = some (Layout.bare (program.rename .silent).layout) ∧
      BindsAs program.events (program.rename .silent).layout program.methods := by
  have parsed : Program.ofTokens shadowingTokens =
      .ok (shadowingProgram (fun _ => none) fun _ => none) := by
    rfl
  have binds : (shadowingProgram (fun _ => none) fun _ => none).bind =
      .ok ⟨shadowingProgram some fun index => some ⟨index⟩,
        ⟨#[.variable "x" false .int, .variable "x" false .number, .variable "x" false .int]⟩⟩ := by
    rfl
  exact Program.generate_binds parsed binds .silent 2

example : (shadowingProgram some fun index => some ⟨index⟩).generate .silent 2 =
    "let var_1 = 1;\nswitch (var_1) \x7b\n  case 1:\n    let var_1_1 = (var_1 + 1);\n" ++
      "  case 2:\n    let var_1_2 = 2;\n\x7d" := by
  decide +kernel

end Qalam
