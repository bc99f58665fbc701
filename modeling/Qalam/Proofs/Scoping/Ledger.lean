/-
# Resolving names along a sequence of events

A ledger holds one table of names for each open frame and numbers declarations in their order.
Reading an event through the ledger fills in the entity of its name, or stops: at a name that no
open frame knows, and at a declaration of a name that the innermost frame has already. What a
ledger knows after some events is exactly what these events declare, so the names it fills in
obey the law of lexical scoping.
-/

import Mathlib.Data.List.Forall2
import Mathlib.Data.List.Nodup
import Qalam.Proofs.Scoping.Event

namespace Qalam.Scoping

/-- The names of the open frames, the innermost frame first, and the next free number. -/
structure Ledger where
  tables : List (List (String × EntityId))
  next : Nat

namespace Ledger

/-- The ledger before the first event. -/
def initial : Ledger := ⟨[[]], 0⟩

/-- The entity of a name in the innermost frame that has one. -/
def find? (ledger : Ledger) (name : String) : Option EntityId :=
  ledger.tables.findSome? (·.lookup name)

/-- The entity of a name in the innermost frame. -/
def findInner? (ledger : Ledger) (name : String) : Option EntityId :=
  ledger.tables.head?.bind (·.lookup name)

/-- The ledger with one more frame. -/
def enter (ledger : Ledger) : Ledger := ⟨[] :: ledger.tables, ledger.next⟩

/-- The ledger without its innermost frame. The outermost one stays. -/
def leave (ledger : Ledger) : Ledger :=
  match ledger.tables with
  | _ :: next :: others => ⟨next :: others, ledger.next⟩
  | tables => ⟨tables, ledger.next⟩

/-- The ledger with the next number given to a name in the innermost frame. -/
def add (ledger : Ledger) (name : String) : Ledger :=
  match ledger.tables with
  | table :: others => ⟨(table ++ [(name, ⟨ledger.next⟩)]) :: others, ledger.next + 1⟩
  | [] => ⟨[], ledger.next + 1⟩

/-- Fill in the entity of one event. -/
def read (ledger : Ledger) : Event Mark → Option (Event Mark × Ledger)
  | .opens => some (.opens, ledger.enter)
  | .closes => some (.closes, ledger.leave)
  | .declares name mark =>
    if (ledger.findInner? name).isSome then none
    else some (.declares name { mark with entity := some ⟨ledger.next⟩ }, ledger.add name)
  | .mentions name mark =>
    (ledger.find? name).map fun id => (.mentions name { mark with entity := some id }, ledger)

/-- Fill in the entities of a sequence of events. -/
def readAll (ledger : Ledger) : List (Event Mark) → Option (List (Event Mark) × Ledger)
  | [] => some ([], ledger)
  | event :: others => do
    let (event, ledger) ← ledger.read event
    let (others, ledger) ← ledger.readAll others
    return (event :: others, ledger)

@[simp]
theorem readAll_nil (ledger : Ledger) : ledger.readAll [] = some ([], ledger) := rfl

/-- Reading two sequences one after the other is reading their concatenation. -/
theorem readAll_append {ledger middle final : Ledger}
    {first second boundFirst boundSecond : List (Event Mark)}
    (readFirst : ledger.readAll first = some (boundFirst, middle))
    (readSecond : middle.readAll second = some (boundSecond, final)) :
    ledger.readAll (first ++ second) = some (boundFirst ++ boundSecond, final) := by
  induction first generalizing ledger boundFirst with
  | nil =>
      cases readFirst
      exact readSecond
  | cons event others ih =>
      simp only [readAll, Option.bind_eq_bind, Option.bind_eq_some_iff, Option.pure_def,
        Option.some.injEq, Prod.exists, Prod.mk.injEq, List.cons_append] at readFirst ⊢
      obtain ⟨head, reached, readHead, tail, last, readTail, rfl, rfl⟩ := readFirst
      exact ⟨head, reached, readHead, _, _, ih readTail, rfl, rfl⟩

/-- A reading of a concatenation is a reading of its two parts. -/
theorem exists_of_readAll_append {ledger final : Ledger}
    {first second bound : List (Event Mark)}
    (read : ledger.readAll (first ++ second) = some (bound, final)) :
    ∃ boundFirst boundSecond middle, bound = boundFirst ++ boundSecond ∧
      ledger.readAll first = some (boundFirst, middle) ∧
      middle.readAll second = some (boundSecond, final) := by
  induction first generalizing ledger bound with
  | nil => exact ⟨[], bound, ledger, rfl, rfl, read⟩
  | cons event others ih =>
      simp only [readAll, Option.bind_eq_bind, Option.bind_eq_some_iff, Option.pure_def,
        Option.some.injEq, Prod.exists, Prod.mk.injEq, List.cons_append] at read
      obtain ⟨head, reached, readHead, tail, last, readTail, rfl, rfl⟩ := read
      obtain ⟨boundFirst, boundSecond, middle, rfl, readFirst, readSecond⟩ := ih readTail
      refine ⟨head :: boundFirst, boundSecond, middle, rfl, ?_, readSecond⟩
      simp [readAll, readHead, readFirst]

/-- Reading changes nothing but entities. -/
theorem map_of_readAll {ledger final : Ledger} {raw bound : List (Event Mark)}
    (read : ledger.readAll raw = some (bound, final)) :
    bound.map (Event.map Mark.pos) = raw.map (Event.map Mark.pos) := by
  induction raw generalizing ledger bound with
  | nil =>
      cases read
      rfl
  | cons event others ih =>
      simp only [readAll, Option.bind_eq_bind, Option.bind_eq_some_iff, Option.pure_def,
        Option.some.injEq, Prod.exists, Prod.mk.injEq] at read
      obtain ⟨head, reached, readHead, tail, last, readTail, rfl, rfl⟩ := read
      have same : head.map Mark.pos = event.map Mark.pos := by
        cases event with
        | opens => cases readHead; rfl
        | closes => cases readHead; rfl
        | declares name mark =>
            simp only [Ledger.read] at readHead
            split at readHead
            · cases readHead
            · cases readHead
              rfl
        | mentions name mark =>
            simp only [Ledger.read, Option.map_eq_some_iff] at readHead
            obtain ⟨id, -, filled⟩ := readHead
            cases filled
            rfl
      rw [List.map_cons, List.map_cons, same, ih readTail]

end Ledger

/-- One table of a ledger holds exactly what some events declare in one frame. -/
def Records (events : List (Event Mark)) (frame : Nat) (table : List (String × EntityId)) : Prop :=
  ∀ name id, table.lookup name = some id ↔
    ∃ mark, DeclaredIn events frame name mark ∧ mark.entity = some id

/-- A ledger holds exactly what some bound events declare in the frames that are open behind
them, and numbers have been given in the order of the declarations. -/
structure Tracks (events : List (Event Mark)) (ledger : Ledger) : Prop where
  tables : List.Forall₂ (Records events) (framesAfter events) ledger.tables
  entities : declaredEntities events = (List.range ledger.next).map fun index => some ⟨index⟩

theorem declaredEntities_append (first second : List (Event Mark)) :
    declaredEntities (first ++ second) = declaredEntities first ++ declaredEntities second := by
  induction first with
  | nil => rfl
  | cons event others ih => cases event <;> simp [declaredEntities, ih]

namespace Tracks

variable {events : List (Event Mark)} {ledger : Ledger}

/-- Every declaration that is tracked has a number. -/
theorem exists_entity (tracks : Tracks events ledger) {frame : Nat} {name : String} {mark : Mark}
    (declared : DeclaredIn events frame name mark) : ∃ id, mark.entity = some id := by
  obtain ⟨earlier, later, rfl, -⟩ := declared
  have member : mark.entity ∈ declaredEntities (earlier ++ .declares name mark :: later) := by
    simp [declaredEntities_append, declaredEntities]
  rw [tracks.entities, List.mem_map] at member
  obtain ⟨index, -, same⟩ := member
  exact ⟨⟨index⟩, same.symm⟩

/-- A table without a name belongs to a frame that does not declare it. -/
theorem not_declaredIn (tracks : Tracks events ledger) {frame : Nat}
    {table : List (String × EntityId)} {name : String} (records : Records events frame table)
    (missing : table.lookup name = none) (mark : Mark) : ¬ DeclaredIn events frame name mark := by
  intro declared
  obtain ⟨id, entity⟩ := tracks.exists_entity declared
  have found := (records name id).mpr ⟨mark, declared, entity⟩
  rw [missing] at found
  cases found

/-- What a ledger finds is what the name refers to. -/
theorem refersTo (tracks : Tracks events ledger) {name : String} {id : EntityId}
    (found : ledger.find? name = some id) :
    ∃ site, RefersTo events name site ∧ site.entity = some id := by
  have search : ∀ {frames : List Nat} {tables : List (List (String × EntityId))},
      List.Forall₂ (Records events) frames tables →
      tables.findSome? (·.lookup name) = some id →
      ∃ inner frame outer site, frames = inner ++ frame :: outer ∧
        DeclaredIn events frame name site ∧ site.entity = some id ∧
        ∀ nearer ∈ inner, ∀ other, ¬ DeclaredIn events nearer name other := by
    intro frames tables related
    induction related with
    | nil => intro impossible; cases impossible
    | @cons frame table frames tables records _ ih =>
        intro found
        rw [List.findSome?_cons] at found
        split at found
        · rename_i here
          cases found
          obtain ⟨site, declared, entity⟩ := (records name id).mp here
          exact ⟨[], frame, frames, site, rfl, declared, entity, by simp⟩
        · rename_i missing
          obtain ⟨inner, target, outer, site, rfl, declared, entity, clear⟩ := ih found
          refine ⟨frame :: inner, target, outer, site, rfl, declared, entity, ?_⟩
          intro nearer member other
          rcases List.mem_cons.mp member with rfl | further
          · exact tracks.not_declaredIn records missing other
          · exact clear nearer further other
  obtain ⟨inner, frame, outer, site, split, declared, entity, clear⟩ := search tracks.tables found
  exact ⟨site, ⟨inner, frame, outer, split, declared, clear⟩, entity⟩

/-- What a ledger does not find is unknown. -/
theorem unknown (tracks : Tracks events ledger) {name : String}
    (missing : ledger.find? name = none) : Unknown events name := by
  intro frame member site
  obtain ⟨index, bound, rfl⟩ := List.mem_iff_getElem.mp member
  have width := tracks.tables.length_eq
  have records := tracks.tables.get bound (width ▸ bound)
  have absent := List.findSome?_eq_none_iff.mp missing _ (List.getElem_mem (width ▸ bound))
  exact tracks.not_declaredIn records absent site

/-- The innermost table decides whether the innermost frame declares a name. -/
theorem taken_iff (tracks : Tracks events ledger) (name : String) :
    Taken events name ↔ (ledger.findInner? name).isSome = true := by
  obtain ⟨top, others, frames⟩ :=
    List.exists_cons_of_ne_nil (Nesting.ordered_after events).nonempty
  have related := tracks.tables
  rw [framesAfter, frames] at related
  obtain ⟨table, tables, records, -, shape⟩ := List.forall₂_cons_left_iff.mp related
  simp only [Taken, framesAfter, frames, List.head?_cons, Option.some.injEq, Ledger.findInner?,
    shape, Option.bind_some, Option.isSome_iff_exists]
  constructor
  · rintro ⟨frame, site, rfl, declared⟩
    obtain ⟨id, entity⟩ := tracks.exists_entity declared
    exact ⟨id, (records name id).mpr ⟨site, declared, entity⟩⟩
  · rintro ⟨id, found⟩
    obtain ⟨site, declared, -⟩ := (records name id).mp found
    exact ⟨top, site, rfl, declared⟩

end Tracks

/-- An event that declares nothing leaves what is recorded about a frame as it is. -/
theorem records_concat {events : List (Event Mark)} {event : Event Mark} {frame : Nat}
    {table : List (String × EntityId)}
    (silent : ∀ name mark, event ≠ .declares name mark) :
    Records (events ++ [event]) frame table ↔ Records events frame table := by
  simp [Records, declaredIn_concat, silent]

/-- A declaration is recorded in the innermost frame. -/
theorem Records.declare {events : List (Event Mark)} {frame : Nat} {name : String} {mark : Mark}
    {id : EntityId} {table : List (String × EntityId)} (records : Records events frame table)
    (innermost : (framesAfter events).head? = some frame) (free : table.lookup name = none)
    (entity : mark.entity = some id) :
    Records (events ++ [Event.declares name mark]) frame (table ++ [(name, id)]) := by
  intro other found
  rw [List.lookup_append, Option.or_eq_some_iff, records other found]
  constructor
  · rintro (⟨site, declared, same⟩ | ⟨-, last⟩)
    · exact ⟨site, declaredIn_concat.mpr (Or.inl declared), same⟩
    · rw [List.lookup_cons] at last
      split at last
      · rename_i same
        cases last
        cases eq_of_beq same
        exact ⟨mark, declaredIn_concat.mpr (Or.inr ⟨rfl, innermost⟩), entity⟩
      · cases last
  · rintro ⟨site, declared, same⟩
    rcases declaredIn_concat.mp declared with older | ⟨here, -⟩
    · exact Or.inl ⟨site, older, same⟩
    · cases here
      rw [entity, Option.some.injEq] at same
      subst same
      exact Or.inr ⟨free, by simp⟩

/-- A declaration in the innermost frame is not recorded in any other. -/
theorem Records.declare_elsewhere {events : List (Event Mark)} {frame top : Nat} {name : String}
    {mark : Mark} {table : List (String × EntityId)} (records : Records events frame table)
    (innermost : (framesAfter events).head? = some top) (elsewhere : frame ≠ top) :
    Records (events ++ [Event.declares name mark]) frame table := by
  intro other found
  rw [records other found]
  constructor
  · rintro ⟨site, declared, same⟩
    exact ⟨site, declaredIn_concat.mpr (Or.inl declared), same⟩
  · rintro ⟨site, declared, same⟩
    rcases declaredIn_concat.mp declared with older | ⟨-, here⟩
    · exact ⟨site, older, same⟩
    · rw [innermost, Option.some.injEq] at here
      exact absurd here.symm elsewhere

/-- A ledger stays true when it reads one more event. -/
theorem Tracks.read {events : List (Event Mark)} {ledger next : Ledger} {raw bound : Event Mark}
    (tracks : Tracks events ledger) (read : ledger.read raw = some (bound, next)) :
    Tracks (events ++ [bound]) next := by
  obtain ⟨tables, entities⟩ := tracks
  cases raw with
  | opens =>
      cases read
      refine ⟨?_, by simpa [declaredEntities_append, declaredEntities, Ledger.enter] using entities⟩
      rw [framesAfter, Nesting.after_concat]
      refine List.Forall₂.cons ?_ (tables.imp fun _ _ => (records_concat (by simp)).mpr)
      -- No declaration belongs to a frame that has just been opened.
      intro name id
      simp only [List.lookup_nil, reduceCtorEq, false_iff, not_exists, not_and]
      intro mark declared
      have older := (declaredIn_concat.mp declared).resolve_right (by simp)
      exact absurd older.le_opened (Nat.not_succ_le_self _)
  | closes =>
      cases read
      refine ⟨?_, ?_⟩
      · rw [framesAfter, Nesting.after_concat]
        have kept := tables.imp fun frame table =>
          (@records_concat events .closes frame table (by simp)).mpr
        simp only [framesAfter] at kept
        simp only [Nesting.step, Ledger.leave]
        generalize (Nesting.after events).frames = frames at kept
        generalize ledger.tables = recorded at kept
        cases kept with
        | nil => exact .nil
        | cons records others =>
            cases others with
            | nil => exact .cons records .nil
            | cons second others => exact .cons second others
      · have same : ledger.leave.next = ledger.next := by
          simp only [Ledger.leave]
          split <;> rfl
        simpa [declaredEntities_append, declaredEntities, same] using entities
  | declares name mark =>
      simp only [Ledger.read] at read
      split at read
      · cases read
      · rename_i free
        cases read
        obtain ⟨ordered, -, nonempty⟩ := Nesting.ordered_after events
        obtain ⟨top, others, frames⟩ := List.exists_cons_of_ne_nil nonempty
        have innermost : (framesAfter events).head? = some top := by
          rw [framesAfter, frames]
          rfl
        rw [framesAfter, frames] at tables
        obtain ⟨table, older, records, rest, shape⟩ := List.forall₂_cons_left_iff.mp tables
        rw [frames, List.pairwise_cons] at ordered
        refine ⟨?_, ?_⟩
        · rw [framesAfter, Nesting.after_concat, Nesting.step, frames]
          simp only [Ledger.add, shape]
          refine List.Forall₂.cons (records.declare innermost ?_ rfl) ?_
          · simpa only [Ledger.findInner?, shape, List.head?_cons, Option.bind_some,
              Option.not_isSome_iff_eq_none] using free
          · rw [List.forall₂_iff_zip] at rest ⊢
            refine ⟨rest.1, fun {frame} {_} member => (rest.2 member).declare_elsewhere innermost ?_⟩
            exact Nat.ne_of_lt (ordered.1 frame (List.of_mem_zip member).1)
        · simp only [declaredEntities_append, declaredEntities, entities, Ledger.add, shape,
            List.range_succ, List.map_append, List.map_cons, List.map_nil]
  | mentions name mark =>
      simp only [Ledger.read, Option.map_eq_some_iff] at read
      obtain ⟨id, -, filled⟩ := read
      cases filled
      refine ⟨?_, by simpa [declaredEntities_append, declaredEntities] using entities⟩
      rw [framesAfter, Nesting.after_concat]
      exact tables.imp fun _ _ => (records_concat (by simp)).mpr

/-- What the law demands of one more event at the end. -/
theorem Lexical.concat {events : List (Event Mark)} {event : Event Mark} (lexical : Lexical events)
    (mention : ∀ name mark, event = .mentions name mark →
      ∃ site id, RefersTo events name site ∧ site.entity = some id ∧ mark.entity = some id)
    (declaration : ∀ name mark, event = .declares name mark → ¬ Taken events name)
    (distinct : (declaredEntities (events ++ [event])).Nodup) : Lexical (events ++ [event]) := by
  refine ⟨?_, ?_, distinct⟩
  · intro before name mark later split
    rcases List.eq_nil_or_concat later with rfl | ⟨middle, last, rfl⟩
    · obtain ⟨rfl, same⟩ := List.append_inj' split rfl
      exact mention name mark (List.head_eq_of_cons_eq same)
    · have shifted : events ++ [event] = (before ++ .mentions name mark :: middle) ++ [last] := by
        simpa using split
      obtain ⟨whole, -⟩ := List.append_inj' shifted rfl
      exact lexical.mention before name mark middle whole
  · intro before name mark later split
    rcases List.eq_nil_or_concat later with rfl | ⟨middle, last, rfl⟩
    · obtain ⟨rfl, same⟩ := List.append_inj' split rfl
      exact declaration name mark (List.head_eq_of_cons_eq same)
    · have shifted : events ++ [event] = (before ++ .declares name mark :: middle) ++ [last] := by
        simpa using split
      obtain ⟨whole, -⟩ := List.append_inj' shifted rfl
      exact lexical.declaration before name mark middle whole

/-- Events read through a ledger from the beginning obey the law, and the ledger tracks them. -/
theorem lexical_of_readAll {raw bound : List (Event Mark)} {ledger : Ledger}
    (read : Ledger.initial.readAll raw = some (bound, ledger)) :
    Lexical bound ∧ Tracks bound ledger := by
  induction raw using List.reverseRecOn generalizing bound ledger with
  | nil =>
      cases read
      refine ⟨⟨by simp, by simp, by simp [declaredEntities]⟩, ⟨?_, rfl⟩⟩
      refine .cons (fun name id => ?_) .nil
      simp [DeclaredIn]
  | append_singleton raw event ih =>
      obtain ⟨first, second, middle, rfl, readFirst, readLast⟩ :=
        Ledger.exists_of_readAll_append read
      obtain ⟨lexical, tracks⟩ := ih readFirst
      simp only [Ledger.readAll, Option.bind_eq_bind, Option.bind_eq_some_iff, Option.pure_def,
        Option.some.injEq, Prod.exists, Prod.mk.injEq] at readLast
      obtain ⟨last, reached, readEvent, _, _, ⟨rfl, rfl⟩, rfl, rfl⟩ := readLast
      have tracked := tracks.read readEvent
      refine ⟨lexical.concat ?_ ?_ ?_, tracked⟩
      · rintro name mark rfl
        cases event with
        | mentions name mark =>
            simp only [Ledger.read, Option.map_eq_some_iff] at readEvent
            obtain ⟨id, found, filled⟩ := readEvent
            cases filled
            obtain ⟨site, refers, entity⟩ := tracks.refersTo found
            exact ⟨site, id, refers, entity, rfl⟩
        | declares name mark =>
            simp only [Ledger.read] at readEvent
            split at readEvent <;> cases readEvent
        | opens => cases readEvent
        | closes => cases readEvent
      · rintro name mark rfl
        cases event with
        | declares name mark =>
            simp only [Ledger.read] at readEvent
            split at readEvent
            · cases readEvent
            · rename_i free
              cases readEvent
              rwa [tracks.taken_iff]
        | mentions name mark =>
            simp only [Ledger.read, Option.map_eq_some_iff] at readEvent
            obtain ⟨id, -, filled⟩ := readEvent
            cases filled
        | opens => cases readEvent
        | closes => cases readEvent
      · rw [tracked.entities]
        refine List.Nodup.map ?_ List.nodup_range
        intro first second same
        simpa using same

end Qalam.Scoping
