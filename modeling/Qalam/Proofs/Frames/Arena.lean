/-
# Frames in an arena

A scope can be kept in one growing list of frames: each frame knows the index of the frame around
it, and the index of the current one stands beside the list. Nothing in this representation says
that an index lies inside the list, or that a way from frame to frame comes to an end. So an
operation has no result where an index misses the list and where a loop never ends. A loop is
given up when it has come past as many frames as there are, since one that ends comes to no frame
twice.

Over every run of operations from a single frame the arena is a plain stack all the same. The
current frame is the last one, each frame lies in the one before it, every operation has a result,
and the results are those of the stack. The proof reads a stack as an arena and lets both make one
step; a frame carries flags of any kind, and with the constructs around a place for flags the stack
is the scope of analysis.
-/

import Mathlib.Data.List.Nodup
import Mathlib.Tactic.ByContra
import Qalam.Fault.Semantic
import Qalam.Scope

namespace Qalam

variable {φ : Type}

/-- Names in the order of their declaration, and flags. -/
structure Layer (φ : Type) where
  symbols : List (String × EntityId)
  flags : φ

/-- The entity of a name declared in this layer. -/
def Layer.get? (layer : Layer φ) (name : String) : Option EntityId := layer.symbols.lookup name

/-- The layer with one more name at its end. -/
def Layer.add (layer : Layer φ) (name : String) (entity : EntityId) : Layer φ :=
  { layer with symbols := layer.symbols ++ [(name, entity)] }

/-- A layer in an arena, with the index of the frame around it. -/
structure Slot (φ : Type) extends Layer φ where
  parent : Option Nat

/-- Frames that refer to each other by their indices, and the index of the current one. -/
structure Arena (φ : Type) where
  slots : List (Slot φ)
  current : Nat

/-- What can be done with a scope. -/
inductive Operation (φ : Type)
  | enter (adjust : φ → φ)
  | exit
  | declare (name : String) (entity : EntityId)
  | changeFlags (change : φ → φ)
  | resolve (name : String)
  | depth

/-- What an operation lets its caller see. -/
inductive Answer (φ : Type)
  | done
  | declared (outcome : Except SemanticFault Unit)
  | flags (found : φ)
  | resolved (outcome : Except SemanticFault EntityId)
  | depth (count : Nat)

/-- The answer to a search for a name. -/
def Answer.search (name : String) (found : Option EntityId) : Answer φ :=
  .resolved (match found with
    | some entity => .ok entity
    | none => .error (.notDeclared name))

/-! ## The arena -/

namespace Arena

/-- A single frame. -/
def new (flags : φ) : Arena φ := ⟨[⟨⟨[], flags⟩, none⟩], 0⟩

/-- The current frame. -/
def here? (arena : Arena φ) : Option (Slot φ) := arena.slots[arena.current]?

/-- The same arena with another current frame. -/
def put (arena : Arena φ) (slot : Slot φ) : Arena φ :=
  { arena with slots := arena.slots.set arena.current slot }

/-- Change the flags of the current frame. -/
def changeFlags? (arena : Arena φ) (change : φ → φ) : Option (φ × Arena φ) := do
  let slot ← arena.here?
  return (slot.flags, arena.put { slot with flags := change slot.flags })

/-- Open a frame inside the current one with a copy of its flags, adjusted. -/
def enter? (arena : Arena φ) (adjust : φ → φ) : Option (Arena φ) := do
  let slot ← arena.here?
  return ⟨arena.slots ++ [⟨⟨[], adjust slot.flags⟩, some arena.current⟩], arena.slots.length⟩

/-- Close the current frame and go back to the one around it, if there is one. -/
def exit? (arena : Arena φ) : Option (Arena φ) := do
  let slot ← arena.here?
  match slot.parent with
  | some parent => return ⟨arena.slots.take arena.current, parent⟩
  | none => return arena

/-- Declare a name in the current frame. -/
def declare? (arena : Arena φ) (name : String) (entity : EntityId) :
    Option (Except SemanticFault Unit × Arena φ) := do
  let slot ← arena.here?
  match slot.get? name with
  | some _ => return (.error (.alreadyDeclared name), arena)
  | none => return (.ok (), arena.put { slot with toLayer := slot.add name entity })

/-- Count the frames around a frame from the inside to the outside, on a way past so many frames
at most. -/
def climb? (arena : Arena φ) : Nat → Nat → Nat → Option Nat
  | 0, _, _ => none
  | limit + 1, count, index => do
    let slot ← arena.slots[index]?
    match slot.parent with
    | some parent => arena.climb? limit (count + 1) parent
    | none => return count

/-- The number of frames around the current one. -/
def depth? (arena : Arena φ) : Option Nat := arena.climb? arena.slots.length 0 arena.current

/-- Look a name up in a frame and those around it, on a way past so many frames at most. -/
def search? (arena : Arena φ) (name : String) : Nat → Option Nat → Option (Option EntityId)
  | _, none => some none
  | 0, some _ => none
  | limit + 1, some index => do
    let slot ← arena.slots[index]?
    match slot.get? name with
    | some entity => return some entity
    | none => arena.search? name limit slot.parent

/-- Look a name up from the current frame outwards. -/
def resolve? (arena : Arena φ) (name : String) : Option (Option EntityId) :=
  arena.search? name arena.slots.length (some arena.current)

/-- Perform an operation. There is no result if an index misses the list or a loop never ends. -/
def perform? (arena : Arena φ) : Operation φ → Option (Answer φ × Arena φ)
  | .enter adjust => (arena.enter? adjust).map fun arena => (.done, arena)
  | .exit => arena.exit?.map fun arena => (.done, arena)
  | .declare name entity =>
    (arena.declare? name entity).map fun (outcome, arena) => (.declared outcome, arena)
  | .changeFlags change =>
    (arena.changeFlags? change).map fun (found, arena) => (.flags found, arena)
  | .resolve name => (arena.resolve? name).map fun found => (.search name found, arena)
  | .depth => arena.depth?.map fun count => (.depth count, arena)

/-- Perform operations one after the other. -/
def run? (arena : Arena φ) : List (Operation φ) → Option (List (Answer φ) × Arena φ)
  | [] => some ([], arena)
  | operation :: others => do
    let (answer, arena) ← arena.perform? operation
    let (answers, arena) ← arena.run? others
    return (answer :: answers, arena)

/-- The index of the frame around a frame in an orderly arena. -/
def around : Nat → Option Nat
  | 0 => none
  | index + 1 => some index

/-- The current frame is the last one, each frame lies in the one before it, and no frame declares
a name twice. -/
structure Orderly (arena : Arena φ) : Prop where
  current : arena.current + 1 = arena.slots.length
  parent : ∀ index slot, arena.slots[index]? = some slot → slot.parent = around index
  distinct : ∀ slot ∈ arena.slots, (slot.symbols.map Prod.fst).Nodup

end Arena

/-! ## How far a loop can go -/

/-- A loop that goes from place to place, on a way past so many places at most. There are finitely
many places; from each one the loop ends at once or goes on to a certain other one. -/
structure Walk {β : Type} (walk : Nat → Nat → Option β) (size : Nat) : Prop where
  start : ∀ place, walk 0 place = none
  inside : ∀ {limit place}, walk limit place ≠ none → place < size
  moves : ∀ place, (∀ limit, walk (limit + 1) place = walk 1 place) ∨
    ∃ next change, ∀ limit, walk (limit + 1) place = (walk limit next).map change

namespace Walk

variable {β : Type} {walk : Nat → Nat → Option β} {size limit place : Nat} {value : β}

theorem once_more (loop : Walk walk size) (ended : walk limit place = some value) :
    walk (limit + 1) place = some value := by
  induction limit generalizing place value with
  | zero =>
      rw [loop.start] at ended
      cases ended
  | succ limit ih =>
      obtain stops | ⟨next, change, goes⟩ := loop.moves place
      · rwa [stops] at ended ⊢
      · rw [goes] at ended ⊢
        obtain ⟨value, further, rfl⟩ := Option.map_eq_some_iff.mp ended
        rw [ih further]
        rfl

theorem more (loop : Walk walk size) (ended : walk limit place = some value) (rest : Nat) :
    walk (limit + rest) place = some value := by
  induction rest with
  | zero => exact ended
  | succ rest ih => exact loop.once_more ih

/-- Where a limit is the least one that is enough for a place, the loop comes past as many places
before it ends, and these are different ones. The least limit gets smaller with each step, so no
place comes up again. -/
theorem exists_trail (loop : Walk walk size) (ended : walk limit place ≠ none)
    (least : ∀ less < limit, walk less place = none) :
    ∃ trail : List Nat, trail.length = limit ∧ trail.Nodup ∧
      ∀ passed ∈ trail, passed < size ∧ ∃ left ≤ limit, walk left passed ≠ none := by
  induction limit generalizing place with
  | zero => exact absurd (loop.start place) ended
  | succ limit ih =>
      obtain stops | ⟨next, change, goes⟩ := loop.moves place
      · obtain rfl | positive := Nat.eq_zero_or_pos limit
        · exact ⟨[place], rfl, List.nodup_singleton place,
            by simpa using ⟨loop.inside ended, 1, Nat.le_refl 1, ended⟩⟩
        · rw [stops] at ended
          exact absurd (least 1 (by omega)) ended
      · have further : walk limit next ≠ none := by simpa [goes] using ended
        have missing : ∀ less < limit, walk less next = none := fun less small => by
          simpa [goes] using least (less + 1) (by omega)
        obtain ⟨trail, length, nodup, passed⟩ := ih further missing
        have new : place ∉ trail := by
          intro mem
          obtain ⟨-, left, close, reached⟩ := passed place mem
          exact reached (least left (by omega))
        refine ⟨place :: trail, by rw [List.length_cons, length],
          List.nodup_cons.mpr ⟨new, nodup⟩, ?_⟩
        rw [List.forall_mem_cons]
        refine ⟨⟨loop.inside ended, limit + 1, Nat.le_refl _, ended⟩, fun other mem => ?_⟩
        obtain ⟨small, left, close, reached⟩ := passed other mem
        exact ⟨small, left, by omega, reached⟩

/-- A loop that ends needs no more steps than there are places. -/
theorem within (loop : Walk walk size) (ended : walk limit place = some value) :
    walk size place = some value := by
  induction limit using Nat.strongRecOn with
  | ind limit ih =>
      by_cases least : ∀ less < limit, walk less place = none
      · obtain ⟨trail, length, nodup, passed⟩ := loop.exists_trail (by simp [ended]) least
        have places : trail ⊆ List.range size := fun place mem =>
          List.mem_range.mpr (passed place mem).1
        have short : limit ≤ size := by simpa [length] using nodup.length_le_of_subset places
        obtain ⟨rest, same⟩ := Nat.exists_eq_add_of_le short
        rw [same]
        exact loop.more ended rest
      · obtain ⟨less, small, reached⟩ : ∃ less < limit, walk less place ≠ none := by
          simpa using least
        obtain ⟨found, reached⟩ := Option.ne_none_iff_exists'.mp reached
        obtain ⟨rest, rfl⟩ := Nat.exists_eq_add_of_le (Nat.le_of_lt small)
        have same : found = value := Option.some.inj ((loop.more reached rest).symm.trans ended)
        exact ih less small (same ▸ reached)

end Walk

namespace Arena

theorem climb?_count (arena : Arena φ) (limit count index : Nat) :
    arena.climb? limit count index = (arena.climb? limit 0 index).map (count + ·) := by
  induction limit generalizing count index with
  | zero => rfl
  | succ limit ih =>
      cases found : arena.slots[index]? with
      | none => simp [climb?, found]
      | some slot =>
          cases outer : slot.parent with
          | none => simp [climb?, found, outer]
          | some parent =>
              simp only [climb?, found, outer, Option.bind_eq_bind, Option.bind_some]
              rw [ih (count + 1), ih (0 + 1), Option.map_map]
              congr 1
              funext more
              simp only [Function.comp_apply]
              omega

theorem walk_climb? (arena : Arena φ) :
    Walk (fun limit index => arena.climb? limit 0 index) arena.slots.length where
  start _ := rfl
  inside {limit index} ended := by
    by_contra outside
    have missing : arena.slots[index]? = none := by simpa using outside
    cases limit <;> simp [climb?, missing] at ended
  moves index := by
    cases found : arena.slots[index]? with
    | none => exact .inl fun limit => by simp [climb?, found]
    | some slot =>
        cases outer : slot.parent with
        | none => exact .inl fun limit => by simp [climb?, found, outer]
        | some parent =>
            refine .inr ⟨parent, (1 + ·), fun limit => ?_⟩
            rw [← climb?_count]
            simp [climb?, found, outer]

theorem walk_search? (arena : Arena φ) (name : String) :
    Walk (fun limit index => arena.search? name limit (some index)) arena.slots.length where
  start _ := rfl
  inside {limit index} ended := by
    by_contra outside
    have missing : arena.slots[index]? = none := by simpa using outside
    cases limit <;> simp [search?, missing] at ended
  moves index := by
    cases found : arena.slots[index]? with
    | none => exact .inl fun limit => by simp [search?, found]
    | some slot =>
        cases declared : slot.get? name with
        | some entity => exact .inl fun limit => by simp [search?, found, declared]
        | none =>
            cases outer : slot.parent with
            | none => exact .inl fun limit => by simp [search?, found, declared, outer]
            | some parent =>
                refine .inr ⟨parent, id, fun limit => ?_⟩
                simp [search?, found, declared, outer]

/-- In any arena whatever, a loop has its result if it ends at all. -/
theorem loops_end (arena : Arena φ) :
    (∀ limit total, arena.climb? limit 0 arena.current = some total →
      arena.depth? = some total) ∧
    ∀ name limit found, arena.search? name limit (some arena.current) = some found →
      arena.resolve? name = some found :=
  ⟨fun _ _ ended => arena.walk_climb?.within ended,
    fun name _ _ ended => (arena.walk_search? name).within ended⟩

end Arena

/-! ## The stack -/

/-- Layers with the innermost one on top. There is at least one. -/
structure Stack (φ : Type) where
  top : Layer φ
  below : List (Layer φ)

namespace Stack

/-- A single layer. -/
def new (flags : φ) : Stack φ := ⟨⟨[], flags⟩, []⟩

/-- All layers, the innermost one first. -/
def layers (stack : Stack φ) : List (Layer φ) := stack.top :: stack.below

/-- The same stack with another top. -/
def put (stack : Stack φ) (layer : Layer φ) : Stack φ := ⟨layer, stack.below⟩

/-- Put a layer on top that has a copy of the flags, adjusted. -/
def enter (stack : Stack φ) (adjust : φ → φ) : Stack φ :=
  ⟨⟨[], adjust stack.top.flags⟩, stack.layers⟩

/-- Take the top away, unless it is the only layer. -/
def exit (stack : Stack φ) : Stack φ :=
  match stack.below with
  | [] => stack
  | layer :: below => ⟨layer, below⟩

/-- The entity of a name in the topmost layer that has the name. -/
def resolve? (stack : Stack φ) (name : String) : Option EntityId :=
  stack.layers.findSome? (·.get? name)

/-- Perform an operation. A name that is on top already is not declared again. -/
def perform (stack : Stack φ) : Operation φ → Answer φ × Stack φ
  | .enter adjust => (.done, stack.enter adjust)
  | .exit => (.done, stack.exit)
  | .declare name entity =>
    match stack.top.get? name with
    | some _ => (.declared (.error (.alreadyDeclared name)), stack)
    | none => (.declared (.ok ()), stack.put (stack.top.add name entity))
  | .changeFlags change =>
    (.flags stack.top.flags, stack.put { stack.top with flags := change stack.top.flags })
  | .resolve name => (.search name (stack.resolve? name), stack)
  | .depth => (.depth stack.below.length, stack)

/-- Perform operations one after the other. -/
def run (stack : Stack φ) : List (Operation φ) → List (Answer φ) × Stack φ
  | [] => ([], stack)
  | operation :: others =>
    let (answer, stack) := stack.perform operation
    let (answers, stack) := stack.run others
    (answer :: answers, stack)

/-- No layer declares a name twice. -/
def Distinct (stack : Stack φ) : Prop :=
  ∀ layer ∈ stack.layers, (layer.symbols.map Prod.fst).Nodup

end Stack

/-! ## A stack as an arena -/

namespace Arena

/-- Layers from the outermost one on, as slots that lie in each other. -/
def link (layers : List (Layer φ)) : List (Slot φ) :=
  layers.mapIdx fun index layer => ⟨layer, around index⟩

theorem link_concat (layers : List (Layer φ)) (layer : Layer φ) :
    link (layers ++ [layer]) = link layers ++ [⟨layer, around layers.length⟩] := by
  simp [link, List.mapIdx_concat]

@[simp]
theorem length_link (layers : List (Layer φ)) : (link layers).length = layers.length := by
  simp [link]

end Arena

/-- A stack as an arena. -/
def Stack.arena (stack : Stack φ) : Arena φ :=
  ⟨Arena.link stack.layers.reverse, stack.below.length⟩

namespace Arena

theorem slots_arena (stack : Stack φ) :
    stack.arena.slots =
      link stack.below.reverse ++ [⟨stack.top, around stack.below.length⟩] := by
  simp [Stack.arena, Stack.layers, link_concat]

theorem arena_new (flags : φ) : (Stack.new flags).arena = Arena.new flags := rfl

/-- The slot of a layer in any arena that links this layer and those below it. -/
theorem getElem?_link (layer : Layer φ) (below : List (Layer φ)) (above : List (Slot φ)) :
    (link (layer :: below).reverse ++ above)[below.length]? =
      some ⟨layer, around below.length⟩ := by
  simp [link_concat]

theorem here?_arena (stack : Stack φ) :
    stack.arena.here? = some ⟨stack.top, around stack.below.length⟩ := by
  have slot := getElem?_link stack.top stack.below []
  rwa [List.append_nil] at slot

theorem put_arena (stack : Stack φ) (layer : Layer φ) :
    stack.arena.put ⟨layer, around stack.below.length⟩ = (stack.put layer).arena := by
  have slots := slots_arena stack
  have slots' := slots_arena (stack.put layer)
  simp only [Stack.put] at slots'
  rw [put, slots]
  simp [Stack.arena, Stack.put, Stack.layers, link_concat]

/-! ## The two loops -/

/-- Climbing counts the layers below, and passes no more frames than these and its own. -/
theorem climb?_link (arena : Arena φ) (layer : Layer φ) (below : List (Layer φ))
    (above : List (Slot φ)) (slots : arena.slots = link (layer :: below).reverse ++ above)
    (count : Nat) :
    arena.climb? (below.length + 1) count below.length = some (count + below.length) := by
  induction below generalizing layer above count with
  | nil =>
      rw [climb?, slots, getElem?_link]
      rfl
  | cons next below ih =>
      have slots' : arena.slots =
          link (next :: below).reverse ++ (⟨layer, around (below.length + 1)⟩ :: above) := by
        rw [slots, List.reverse_cons, link_concat]
        simp
      rw [climb?, slots, getElem?_link]
      calc arena.climb? (below.length + 1) (count + 1) below.length
          = some (count + 1 + below.length) := ih next _ slots' (count + 1)
        _ = some (count + (next :: below).length) := by
          rw [List.length_cons, Nat.add_assoc, Nat.add_comm 1]

/-- A search from a layer outwards finds what the layers declare, the innermost one first, and
passes no more frames than these. -/
theorem search?_link (arena : Arena φ) (name : String) (layers : List (Layer φ))
    (above : List (Slot φ)) (slots : arena.slots = link layers.reverse ++ above) :
    arena.search? name layers.length (around layers.length) =
      some (layers.findSome? (·.get? name)) := by
  induction layers generalizing above with
  | nil => rw [List.length_nil, around, search?, List.findSome?_nil]
  | cons layer below ih =>
      have slots' : arena.slots =
          link below.reverse ++ (⟨layer, around below.length⟩ :: above) := by
        rw [slots, List.reverse_cons, link_concat]
        simp
      rw [List.length_cons, around, search?, slots, getElem?_link, List.findSome?_cons]
      change (match layer.get? name with
        | some entity => some (some entity)
        | none => arena.search? name below.length (around below.length)) = _
      cases layer.get? name with
      | some entity => rfl
      | none => exact ih _ slots'

theorem length_slots_arena (stack : Stack φ) :
    stack.arena.slots.length = stack.below.length + 1 := by
  simp [Stack.arena, Stack.layers]

theorem depth?_arena (stack : Stack φ) : stack.arena.depth? = some stack.below.length := by
  have counted := climb?_link stack.arena stack.top stack.below []
    (by simp [Stack.arena, Stack.layers]) 0
  rw [Nat.zero_add] at counted
  exact stack.arena.loops_end.1 _ _ counted

theorem resolve?_arena (stack : Stack φ) (name : String) :
    stack.arena.resolve? name = some (stack.resolve? name) := by
  have found := search?_link stack.arena name stack.layers [] (by simp [Stack.arena])
  exact stack.arena.loops_end.2 _ _ _ found

/-! ## One operation -/

theorem enter?_arena (stack : Stack φ) (adjust : φ → φ) :
    stack.arena.enter? adjust = some (stack.enter adjust).arena := by
  have slots : (stack.enter adjust).arena.slots =
      stack.arena.slots ++ [⟨⟨[], adjust stack.top.flags⟩, some stack.below.length⟩] :=
    slots_arena (stack.enter adjust)
  have size := length_slots_arena stack
  rw [enter?, here?_arena]
  change some (Arena.mk (stack.arena.slots ++ [_]) stack.arena.slots.length) = _
  rw [size]
  exact congrArg (fun slots => some (Arena.mk slots (stack.below.length + 1))) slots.symm

theorem exit?_arena (stack : Stack φ) : stack.arena.exit? = some stack.exit.arena := by
  rw [exit?, here?_arena]
  obtain ⟨top, below⟩ := stack
  cases below with
  | nil => rfl
  | cons layer below =>
      have kept : (link (top :: layer :: below).reverse).take (layer :: below).length =
          link (layer :: below).reverse := by
        rw [List.reverse_cons, link_concat, List.take_left']
        simp
      change some (Arena.mk (List.take _ _) below.length) = _
      rw [Stack.arena, Stack.layers, kept]
      rfl

theorem changeFlags?_arena (stack : Stack φ) (change : φ → φ) :
    stack.arena.changeFlags? change =
      some (stack.top.flags,
        (stack.put { stack.top with flags := change stack.top.flags }).arena) := by
  rw [changeFlags?, here?_arena]
  change some (_, stack.arena.put ⟨{ stack.top with flags := _ }, _⟩) = _
  rw [put_arena]

theorem declare?_arena (stack : Stack φ) (name : String) (entity : EntityId) :
    stack.arena.declare? name entity = some (match stack.top.get? name with
      | some _ => (.error (.alreadyDeclared name), stack.arena)
      | none => (.ok (), (stack.put (stack.top.add name entity)).arena)) := by
  rw [declare?, here?_arena]
  change (match stack.top.get? name with
    | some _ => _
    | none => some (_, stack.arena.put ⟨stack.top.add name entity, _⟩)) = _
  rw [put_arena]
  cases stack.top.get? name <;> rfl

theorem perform?_arena (stack : Stack φ) (operation : Operation φ) :
    stack.arena.perform? operation =
      some ((stack.perform operation).1, (stack.perform operation).2.arena) := by
  cases operation with
  | enter adjust => rw [perform?, enter?_arena]; rfl
  | exit => rw [perform?, exit?_arena]; rfl
  | declare name entity =>
      rw [perform?, declare?_arena, Stack.perform]
      cases stack.top.get? name <;> rfl
  | changeFlags change => rw [perform?, changeFlags?_arena]; rfl
  | resolve name => rw [perform?, resolve?_arena]; rfl
  | depth => rw [perform?, depth?_arena]; rfl

theorem run?_arena (stack : Stack φ) (operations : List (Operation φ)) :
    stack.arena.run? operations =
      some ((stack.run operations).1, (stack.run operations).2.arena) := by
  induction operations generalizing stack with
  | nil => rfl
  | cons operation others ih =>
      rw [run?, perform?_arena]
      change Option.bind ((stack.perform operation).2.arena.run? others) _ = _
      rw [ih]
      rfl

end Arena

/-! ## Whole runs -/

namespace Stack

theorem distinct_perform {stack : Stack φ} (distinct : stack.Distinct)
    (operation : Operation φ) : (stack.perform operation).2.Distinct := by
  -- what is put on top instead of the top has to be checked alone
  have put : ∀ layer : Layer φ, (layer.symbols.map Prod.fst).Nodup → (stack.put layer).Distinct := by
    intro layer nodup other mem
    rcases List.mem_cons.mp mem with rfl | under
    · exact nodup
    · exact distinct other (List.mem_cons_of_mem _ under)
  cases operation with
  | enter adjust =>
      intro layer mem
      rcases List.mem_cons.mp mem with rfl | under
      · exact List.nodup_nil
      · exact distinct layer under
  | exit =>
      obtain ⟨top, below⟩ := stack
      cases below with
      | nil => exact distinct
      | cons layer below => exact fun other mem => distinct other (List.mem_cons_of_mem _ mem)
  | declare name entity =>
      rw [perform]
      cases absent : stack.top.get? name with
      | some _ => exact distinct
      | none =>
          refine put _ ?_
          have new : name ∉ stack.top.symbols.map Prod.fst := by
            intro mem
            obtain ⟨entry, listed, rfl⟩ := List.mem_map.mp mem
            have differs := List.lookup_eq_none_iff.mp absent entry listed
            simp at differs
          rw [Layer.add, List.map_append, List.nodup_append]
          refine ⟨distinct _ List.mem_cons_self, by simp, ?_⟩
          intro earlier mem added here same
          rw [List.map_singleton, List.mem_singleton] at here
          rw [same, here] at mem
          exact new mem
  | changeFlags change => exact put _ (distinct stack.top List.mem_cons_self)
  | resolve name => exact distinct
  | depth => exact distinct

theorem distinct_run {stack : Stack φ} (distinct : stack.Distinct)
    (operations : List (Operation φ)) : (stack.run operations).2.Distinct := by
  induction operations generalizing stack with
  | nil => exact distinct
  | cons operation others ih => exact ih (distinct_perform distinct operation)

theorem orderly_arena {stack : Stack φ} (distinct : stack.Distinct) : stack.arena.Orderly where
  current := by simp [arena, layers]
  parent index slot found := by
    simp only [arena, Arena.link, List.getElem?_mapIdx, Option.map_eq_some_iff] at found
    obtain ⟨layer, -, rfl⟩ := found
    rfl
  distinct slot mem := by
    obtain ⟨index, small, rfl⟩ := List.mem_mapIdx.mp mem
    exact distinct _ (List.mem_reverse.mp (List.getElem_mem small))

end Stack

/-! ## The scope of analysis -/

/-- A frame as a layer. -/
def Frame.layer (frame : Frame) : Layer Surroundings := ⟨frame.symbols, frame.surroundings⟩

namespace Scope

/-- A scope as a stack. -/
def stack (scope : Scope) : Stack Surroundings := ⟨scope.top.layer, scope.below.map Frame.layer⟩

/-- Perform an operation. -/
def perform (scope : Scope) : Operation Surroundings → Answer Surroundings × Scope
  | .enter adjust => (.done, scope.enter adjust)
  | .exit => (.done, scope.exit)
  | .declare name entity =>
    match scope.declare? name entity with
    | some after => (.declared (.ok ()), after)
    | none => (.declared (.error (.alreadyDeclared name)), scope)
  | .changeFlags change =>
    (.flags scope.surroundings,
      { scope with top := { scope.top with surroundings := change scope.surroundings } })
  | .resolve name => (.search name (scope.resolve? name), scope)
  | .depth => (.depth scope.depth, scope)

/-- Perform operations one after the other. -/
def run (scope : Scope) : List (Operation Surroundings) → List (Answer Surroundings) × Scope
  | [] => ([], scope)
  | operation :: others =>
    let (answer, scope) := scope.perform operation
    let (answers, scope) := scope.run others
    (answer :: answers, scope)

theorem stack_enter (scope : Scope) (adjust : Surroundings → Surroundings) :
    (scope.enter adjust).stack = scope.stack.enter adjust := rfl

theorem stack_exit (scope : Scope) : scope.exit.stack = scope.stack.exit := by
  obtain ⟨top, below⟩ := scope
  cases below <;> rfl

theorem resolve?_stack (scope : Scope) (name : String) :
    scope.stack.resolve? name = scope.resolve? name := by
  simp only [Stack.resolve?, Stack.layers, stack, resolve?, frames, List.findSome?_cons,
    List.findSome?_map]
  rfl

theorem perform_stack (scope : Scope) (operation : Operation Surroundings) :
    scope.stack.perform operation =
      ((scope.perform operation).1, (scope.perform operation).2.stack) := by
  cases operation with
  | enter adjust => rw [Stack.perform, ← stack_enter]; rfl
  | exit => rw [Stack.perform, ← stack_exit]; rfl
  | declare name entity =>
      rw [Stack.perform, perform, declare?]
      change (match scope.top.get? name with
        | some _ => _
        | none => _) = _
      cases scope.top.get? name <;> rfl
  | changeFlags change => rfl
  | resolve name => rw [Stack.perform, resolve?_stack]; rfl
  | depth => simp [Stack.perform, perform, stack, depth]

theorem run_stack (scope : Scope) (operations : List (Operation Surroundings)) :
    scope.stack.run operations =
      ((scope.run operations).1, (scope.run operations).2.stack) := by
  induction operations generalizing scope with
  | nil => rfl
  | cons operation others ih =>
      simp only [Stack.run, run, perform_stack, ih]

end Scope

/-- Whatever is done with a single frame in an arena, every operation has a result: no index
misses the list and no loop goes on for ever. The current frame is the last one and each frame
lies in the one before it, so the depth is one less than the number of frames. A plain stack gives
the same answers and holds the same layers, and so does a scope where the flags are the constructs
around a place. -/
theorem Arena.run?_eq_stack :
    (∀ (φ : Type) (flags : φ) (operations : List (Operation φ)), ∃ answers arena stack,
      (Arena.new flags).run? operations = some (answers, arena) ∧
      (Stack.new flags).run operations = (answers, stack) ∧
      (arena.slots.map Slot.toLayer).reverse = stack.layers ∧
      arena.Orderly ∧ arena.depth? = some (arena.slots.length - 1)) ∧
    ∀ operations : List (Operation Surroundings), ∃ arena,
      (Arena.new .outermost).run? operations = some ((Scope.root.run operations).1, arena) ∧
      (arena.slots.map Slot.toLayer).reverse =
        (Scope.root.run operations).2.frames.map Frame.layer := by
  have layers : ∀ {φ : Type} (stack : Stack φ),
      (stack.arena.slots.map Slot.toLayer).reverse = stack.layers := by
    intro φ stack
    have linked : ∀ layers : List (Layer φ), (link layers).map Slot.toLayer = layers := by
      intro layers
      exact List.ext_getElem? fun index => by simp [link, Function.comp_def]
    rw [Stack.arena, linked, List.reverse_reverse]
  constructor
  · intro φ flags operations
    have runs := run?_arena (Stack.new flags) operations
    rw [arena_new] at runs
    have distinct : (Stack.new flags).Distinct := by simp [Stack.Distinct, Stack.new, Stack.layers]
    refine ⟨_, _, _, runs, rfl, layers _, ?_, ?_⟩
    · exact Stack.orderly_arena (Stack.distinct_run distinct operations)
    · rw [depth?_arena, Stack.arena, length_link, List.length_reverse, Stack.layers,
        List.length_cons, Nat.add_sub_cancel]
  · intro operations
    have runs := run?_arena Scope.root.stack operations
    rw [Scope.run_stack] at runs
    exact ⟨_, runs, layers _⟩

end Qalam
