/-
# Names and frames as a sequence of events

A walk over a program meets frames that open and close, names that are declared and names that
are mentioned. The sequence of these events is all that lexical scoping depends on: the frames
around a place are those opened and not yet closed before it, a declaration belongs to the
innermost of them, and a name refers to its declaration in the innermost frame that has one.
Frames are told apart by the order in which they open; the program itself is frame zero.
-/

import Mathlib.Data.List.Induction
import Qalam.Scope
import Qalam.Tree

namespace Qalam.Scoping

/-- What a walk over a program meets, with a mark on every name. -/
inductive Event (α : Type)
  | opens
  | closes
  | declares (name : String) (mark : α)
  | mentions (name : String) (mark : α)

/-- The same event with other marks. -/
def Event.map {α β : Type} (change : α → β) : Event α → Event β
  | opens => opens
  | closes => closes
  | declares name mark => declares name (change mark)
  | mentions name mark => mentions name (change mark)

/-- Where a name stands and what it is bound to. -/
structure Mark where
  pos : Position
  entity : Option EntityId
  deriving DecidableEq

variable {α β : Type}

/-- The frames around a place, the innermost one first, and how many were opened so far. -/
structure Nesting where
  frames : List Nat
  opened : Nat

namespace Nesting

/-- The nesting before the first event. -/
def outermost : Nesting := ⟨[0], 0⟩

/-- The nesting after one more event. The outermost frame never closes. -/
def step (nesting : Nesting) : Event α → Nesting
  | .opens => ⟨(nesting.opened + 1) :: nesting.frames, nesting.opened + 1⟩
  | .closes =>
    match nesting.frames with
    | _ :: next :: others => ⟨next :: others, nesting.opened⟩
    | frames => ⟨frames, nesting.opened⟩
  | .declares _ _ | .mentions _ _ => nesting

/-- The nesting after a sequence of events. -/
def after (events : List (Event α)) : Nesting := events.foldl step outermost

@[simp]
theorem after_nil : after ([] : List (Event α)) = outermost := rfl

@[simp]
theorem after_concat (events : List (Event α)) (event : Event α) :
    after (events ++ [event]) = (after events).step event := by
  simp [after]

/-- Marks have no influence on the nesting. -/
theorem after_map (change : α → β) (events : List (Event α)) :
    after (events.map (Event.map change)) = after events := by
  have same (nesting : Nesting) (event : Event α) :
      nesting.step (event.map change) = nesting.step event := by
    cases event <;> rfl
  simp only [after, List.foldl_map, same]

/-- Frames are numbered in the order of their opening, so an inner frame has the larger number
and no number is used before its frame opens. -/
structure Ordered (nesting : Nesting) : Prop where
  descending : nesting.frames.Pairwise (· > ·)
  bounded : ∀ frame ∈ nesting.frames, frame ≤ nesting.opened
  nonempty : nesting.frames ≠ []

theorem Ordered.step {nesting : Nesting} (ordered : nesting.Ordered) (event : Event α) :
    (nesting.step event).Ordered := by
  obtain ⟨descending, bounded, nonempty⟩ := ordered
  cases event with
  | opens =>
      refine ⟨List.pairwise_cons.mpr ⟨fun frame member => ?_, descending⟩, ?_, by simp [Nesting.step]⟩
      · exact Nat.lt_succ_of_le (bounded frame member)
      · intro frame member
        rcases List.mem_cons.mp member with rfl | older
        · exact Nat.le_refl _
        · exact Nat.le_succ_of_le (bounded frame older)
  | closes =>
      obtain ⟨frames, opened⟩ := nesting
      match frames with
      | [] => exact ⟨descending, bounded, nonempty⟩
      | [_] => exact ⟨descending, bounded, nonempty⟩
      | top :: next :: others =>
          refine ⟨(List.pairwise_cons.mp descending).2, ?_, List.cons_ne_nil _ _⟩
          intro frame member
          exact bounded frame (List.mem_cons_of_mem _ member)
  | declares name mark => exact ⟨descending, bounded, nonempty⟩
  | mentions name mark => exact ⟨descending, bounded, nonempty⟩

theorem ordered_after (events : List (Event α)) : (after events).Ordered := by
  induction events using List.reverseRecOn with
  | nil => exact ⟨by simp [outermost], by simp [outermost], by simp [outermost]⟩
  | append_singleton events event ih =>
      rw [after_concat]
      exact ih.step event

end Nesting

/-- The frames around the place behind some events, the innermost one first. -/
def framesAfter (events : List (Event α)) : List Nat := (Nesting.after events).frames

/-- The events contain a declaration of a name in a frame. -/
def DeclaredIn (events : List (Event α)) (frame : Nat) (name : String) (mark : α) : Prop :=
  ∃ earlier later, events = earlier ++ .declares name mark :: later ∧
    (framesAfter earlier).head? = some frame

/-- At the place behind some events a name refers to a declaration among them: it stands in a
frame around the place, and no frame further inside declares the name. -/
def RefersTo (events : List (Event α)) (name : String) (site : α) : Prop :=
  ∃ inner frame outer, framesAfter events = inner ++ frame :: outer ∧
    DeclaredIn events frame name site ∧
    ∀ nearer ∈ inner, ∀ other, ¬ DeclaredIn events nearer name other

/-- What a name refers to is among the events. -/
theorem RefersTo.mem {events : List (Event α)} {name : String} {site : α}
    (refers : RefersTo events name site) : .declares name site ∈ events := by
  obtain ⟨-, -, -, -, ⟨earlier, later, rfl, -⟩, -⟩ := refers
  exact List.mem_append_right _ List.mem_cons_self

/-- A name can be found in no frame around the place behind some events. -/
def Unknown (events : List (Event α)) (name : String) : Prop :=
  ∀ frame ∈ framesAfter events, ∀ site, ¬ DeclaredIn events frame name site

/-- The innermost frame at the place behind some events declares a name. -/
def Taken (events : List (Event α)) (name : String) : Prop :=
  ∃ frame site, (framesAfter events).head? = some frame ∧ DeclaredIn events frame name site

/-- The entities of the declarations among some events, in order. -/
def declaredEntities : List (Event Mark) → List (Option EntityId)
  | [] => []
  | .declares _ mark :: others => mark.entity :: declaredEntities others
  | _ :: others => declaredEntities others

/-- The law of lexical scoping for a bound program. Every mentioned name carries the entity of
the declaration that it refers to, no frame declares a name twice, and different declarations
have different entities. -/
structure Lexical (events : List (Event Mark)) : Prop where
  mention : ∀ before name mark later, events = before ++ .mentions name mark :: later →
    ∃ site id, RefersTo before name site ∧ site.entity = some id ∧ mark.entity = some id
  declaration : ∀ before name mark later, events = before ++ .declares name mark :: later →
    ¬ Taken before name
  distinct : (declaredEntities events).Nodup

/-- A declaration at the end is one more declaration in the innermost frame; any other event
declares nothing. -/
theorem declaredIn_concat {events : List (Event α)} {event : Event α} {frame : Nat}
    {name : String} {mark : α} :
    DeclaredIn (events ++ [event]) frame name mark ↔
      DeclaredIn events frame name mark ∨
        (event = .declares name mark ∧ (framesAfter events).head? = some frame) := by
  constructor
  · rintro ⟨earlier, later, split, innermost⟩
    rcases List.eq_nil_or_concat later with rfl | ⟨middle, last, rfl⟩
    · obtain ⟨rfl, same⟩ := List.append_inj' split rfl
      exact Or.inr ⟨List.head_eq_of_cons_eq same, innermost⟩
    · have shifted : events ++ [event] = (earlier ++ .declares name mark :: middle) ++ [last] := by
        simpa using split
      obtain ⟨rfl, -⟩ := List.append_inj' shifted rfl
      exact Or.inl ⟨earlier, middle, rfl, innermost⟩
  · rintro (⟨earlier, later, rfl, innermost⟩ | ⟨rfl, innermost⟩)
    · exact ⟨earlier, later ++ [event], by simp, innermost⟩
    · exact ⟨events, [], rfl, innermost⟩

/-- Only numbers of frames that were opened belong to declarations. -/
theorem DeclaredIn.le_opened {events : List (Event α)} {frame : Nat} {name : String} {mark : α}
    (declared : DeclaredIn events frame name mark) : frame ≤ (Nesting.after events).opened := by
  induction events using List.reverseRecOn with
  | nil =>
      obtain ⟨earlier, later, split, -⟩ := declared
      simp at split
  | append_singleton events event ih =>
      have grows : (Nesting.after events).opened ≤ (Nesting.after (events ++ [event])).opened := by
        rw [Nesting.after_concat]
        cases event with
        | closes =>
            simp only [Nesting.step]
            split <;> exact Nat.le_refl _
        | _ => simp [Nesting.step]
      rcases declaredIn_concat.mp declared with older | ⟨-, innermost⟩
      · exact Nat.le_trans (ih older) grows
      · exact Nat.le_trans
          ((Nesting.ordered_after events).bounded frame (List.mem_of_head? innermost)) grows

/-- The declarations among events with other marks are those among the events themselves. -/
theorem declaredIn_map (change : α → β) {events : List (Event α)} {frame : Nat} {name : String}
    {mark : β} :
    DeclaredIn (events.map (Event.map change)) frame name mark ↔
      ∃ site, change site = mark ∧ DeclaredIn events frame name site := by
  constructor
  · rintro ⟨earlier, later, split, innermost⟩
    obtain ⟨first, rest, rfl, rfl, second⟩ := List.map_eq_append_iff.mp split
    obtain ⟨event, others, rfl, same, -⟩ := List.map_eq_cons_iff.mp second
    rw [framesAfter, Nesting.after_map] at innermost
    cases event with
    | declares declared site =>
        cases same
        exact ⟨site, rfl, first, others, rfl, innermost⟩
    | _ => cases same
  · rintro ⟨site, rfl, earlier, later, rfl, innermost⟩
    refine ⟨earlier.map (Event.map change), later.map (Event.map change), ?_, ?_⟩
    · simp [Event.map]
    · rwa [framesAfter, Nesting.after_map]

/-- Which names are declared in which frames does not depend on the marks. -/
theorem exists_declaredIn_map (change : α → β) {events : List (Event α)} {frame : Nat}
    {name : String} :
    (∃ mark, DeclaredIn (events.map (Event.map change)) frame name mark) ↔
      ∃ mark, DeclaredIn events frame name mark := by
  simp only [declaredIn_map]
  exact ⟨fun ⟨_, site, _, declared⟩ => ⟨site, declared⟩,
    fun ⟨site, declared⟩ => ⟨change site, site, rfl, declared⟩⟩

/-- Among events with other marks a name refers to the same declaration. -/
theorem refersTo_map (change : α → β) {events : List (Event α)} {name : String} {mark : β} :
    RefersTo (events.map (Event.map change)) name mark ↔
      ∃ site, change site = mark ∧ RefersTo events name site := by
  simp only [RefersTo, framesAfter, Nesting.after_map, declaredIn_map]
  constructor
  · rintro ⟨inner, frame, outer, split, ⟨site, same, declared⟩, clear⟩
    refine ⟨site, same, inner, frame, outer, split, declared, ?_⟩
    intro nearer mem other hidden
    exact clear nearer mem (change other) ⟨other, rfl, hidden⟩
  · rintro ⟨site, same, inner, frame, outer, split, declared, clear⟩
    refine ⟨inner, frame, outer, split, ⟨site, same, declared⟩, ?_⟩
    rintro nearer mem _ ⟨other, -, hidden⟩
    exact clear nearer mem other hidden

end Qalam.Scoping
