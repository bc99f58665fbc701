/-
# Names stay within reach

Analysis meets the names of a program in another order than the text has them, and with other
frames around them: a value before the name that it is given to, the cases of a switch each in a
frame of their own, the parameters of a function in the frame of its body. Still every entity
that analysis can see at a name is declared in a frame around that name in the text, apart from
the methods of classes, which are not declared in the text at all.
-/

import Qalam.Proofs.EcmaScript.Layout
import Qalam.Proofs.Scoping.Ledger

namespace Qalam.EcmaScript

open Scoping (Event Mark)
open Scoping.Walk (framed binding parameters)

/-! ## Entities in the order of analysis -/

/-- Follow one event with the entities declared so far in each open frame. A name must have one of
these entities. -/
def follow (stack : List (List EntityId)) : Event Mark → Option (List (List EntityId))
  | .opens => some ([] :: stack)
  | .closes =>
    match stack with
    | _ :: next :: others => some (next :: others)
    | stack => some stack
  | .declares _ mark => mark.entity.map fun id =>
    match stack with
    | top :: others => (top ++ [id]) :: others
    | [] => []
  | .mentions _ mark => mark.entity.bind fun id => if id ∈ stack.flatten then some stack else none

/-- Follow several events. -/
def followAll (stack : List (List EntityId)) (events : List (Event Mark)) :
    Option (List (List EntityId)) := events.foldlM follow stack

@[simp]
theorem followAll_nil (stack : List (List EntityId)) : followAll stack [] = some stack := rfl

theorem followAll_cons {stack after : List (List EntityId)} {event : Event Mark}
    {events : List (Event Mark)} :
    followAll stack (event :: events) = some after ↔
      ∃ middle, follow stack event = some middle ∧ followAll middle events = some after := by
  simp [followAll, Option.bind_eq_some_iff]

theorem followAll_append {stack after : List (List EntityId)} {first second : List (Event Mark)} :
    followAll stack (first ++ second) = some after ↔
      ∃ middle, followAll stack first = some middle ∧ followAll middle second = some after := by
  simp [followAll, Option.bind_eq_some_iff]

theorem followAll_framed {stack after : List (List EntityId)} {events : List (Event Mark)} :
    followAll stack (framed events) = some after ↔
      ∃ inner, followAll ([] :: stack) events = some inner ∧
        follow inner .closes = some after := by
  rw [framed, List.cons_append, followAll_cons]
  simp [follow, followAll_append, followAll_cons]

/-- The entities in the tables of a ledger. -/
def entitiesOf (ledger : Scoping.Ledger) : List (List EntityId) :=
  ledger.tables.map fun table => table.map Prod.snd

theorem mem_entitiesOf {ledger : Scoping.Ledger} {name : String} {id : EntityId}
    (found : ledger.find? name = some id) : id ∈ (entitiesOf ledger).flatten := by
  obtain ⟨table, listed, here⟩ := List.exists_of_findSome?_eq_some found
  refine List.mem_flatten.mpr ⟨table.map Prod.snd, List.mem_map_of_mem listed, ?_⟩
  rw [List.lookup_eq_some_iff] at here
  obtain ⟨before, after, rfl, -⟩ := here
  simp

/-- Whatever a ledger has read can be followed. -/
theorem followAll_of_readAll {ledger final : Scoping.Ledger} {raw bound : List (Event Mark)}
    (read : ledger.readAll raw = some (bound, final)) :
    followAll (entitiesOf ledger) bound = some (entitiesOf final) := by
  induction raw generalizing ledger bound with
  | nil =>
      cases read
      rfl
  | cons event others ih =>
      simp only [Scoping.Ledger.readAll, Option.bind_eq_bind, Option.bind_eq_some_iff,
        Option.pure_def, Option.some.injEq, Prod.exists, Prod.mk.injEq] at read
      obtain ⟨head, reached, readHead, tail, last, readTail, rfl, rfl⟩ := read
      refine followAll_cons.mpr ⟨entitiesOf reached, ?_, ih readTail⟩
      cases event with
      | opens =>
          cases readHead
          rfl
      | closes =>
          cases readHead
          obtain ⟨tables, next⟩ := ledger
          rcases tables with - | ⟨table, - | ⟨outer, others⟩⟩ <;> rfl
      | declares name mark =>
          simp only [Scoping.Ledger.read] at readHead
          split at readHead
          · cases readHead
          · cases readHead
            obtain ⟨tables, next⟩ := ledger
            cases tables <;> simp [follow, entitiesOf, Scoping.Ledger.add]
      | mentions name mark =>
          simp only [Scoping.Ledger.read, Option.map_eq_some_iff] at readHead
          obtain ⟨id, found, filled⟩ := readHead
          cases filled
          exact if_pos (mem_entitiesOf found)

/-! ## Entities in the order of the text -/

/-- Events in which every name has an entity that was declared before in a frame around it, or is
one of the methods, or none at all. Known are the entities declared before the events; the events
declare some more outside of their own frames. -/
inductive Scoped (methods : List EntityId) :
    List EntityId → List (Event Mark) → List EntityId → Prop
  | nil {known : List EntityId} : Scoped methods known [] []
  | word {known declared : List EntityId} {name : String} {pos : Position}
      {rest : List (Event Mark)} :
      Scoped methods known rest declared →
      Scoped methods known (.mentions name ⟨pos, none⟩ :: rest) declared
  | mention {known declared : List EntityId} {name : String} {pos : Position} {id : EntityId}
      {rest : List (Event Mark)} :
      id ∈ methods ∨ id ∈ known → Scoped methods known rest declared →
      Scoped methods known (.mentions name ⟨pos, some id⟩ :: rest) declared
  | declare {known declared : List EntityId} {name : String} {pos : Position} {id : EntityId}
      {rest : List (Event Mark)} :
      Scoped methods (known ++ [id]) rest declared →
      Scoped methods known (.declares name ⟨pos, some id⟩ :: rest) (id :: declared)
  | frame {known inside declared : List EntityId} {inner rest : List (Event Mark)} :
      Scoped methods known inner inside → Scoped methods known rest declared →
      Scoped methods known (.opens :: (inner ++ .closes :: rest)) declared

namespace Scoped

variable {methods known declared further : List EntityId} {first second : List (Event Mark)}

theorem weaken (here : Scoped methods known first declared) {larger : List EntityId}
    (subset : known ⊆ larger) : Scoped methods larger first declared := by
  induction here generalizing larger with
  | nil => exact .nil
  | word _ ih => exact .word (ih subset)
  | mention inReach _ ih => exact .mention (inReach.imp_right fun mem => subset mem) (ih subset)
  | declare _ ih =>
      refine .declare (ih (List.append_subset.mpr ⟨?_, List.subset_append_right _ _⟩))
      exact List.subset_append_of_subset_left _ subset
  | frame _ _ ih ih' => exact .frame (ih subset) (ih' subset)

theorem append (here : Scoped methods known first declared)
    (there : Scoped methods (known ++ declared) second further) :
    Scoped methods known (first ++ second) (declared ++ further) := by
  induction here with
  | nil => simpa using there
  | word _ ih => exact .word (ih there)
  | mention inReach _ ih => exact .mention inReach (ih there)
  | declare _ ih => exact .declare (ih (by simpa using there))
  | frame inner _ _ ih =>
      rw [List.cons_append, List.append_assoc, List.cons_append]
      exact .frame inner (ih there)

theorem inFrame (here : Scoped methods known first declared) :
    Scoped methods known (framed first) [] := .frame here .nil

end Scoped

/-! ## From one order to the other -/

/-- Whether an event is a name with an entity that is no method. -/
def carries (methods : List EntityId) : Event Mark → Bool
  | .declares _ ⟨_, some id⟩ | .mentions _ ⟨_, some id⟩ => id ∉ methods
  | _ => false

@[simp]
theorem filter_framed (methods : List EntityId) (events : List (Event Mark)) :
    (framed events).filter (carries methods) = events.filter (carries methods) := by
  simp [framed, carries]

/-- Entities that are methods or otherwise known. -/
def Covered (methods known entities : List EntityId) : Prop :=
  ∀ id ∈ entities, id ∈ methods ∨ id ∈ known

theorem Covered.weaken {methods known larger entities : List EntityId}
    (covered : Covered methods known entities) (subset : known ⊆ larger) :
    Covered methods larger entities :=
  fun id mem => (covered id mem).imp_right fun inside => subset inside

theorem Covered.append {methods known first second : List EntityId}
    (here : Covered methods known first) (there : Covered methods known second) :
    Covered methods known (first ++ second) :=
  List.forall_mem_append.mpr ⟨here, there⟩

/-- Events of the text stand for events of analysis: whenever analysis gets through with its own,
those of the text are scoped, and declare whatever analysis has declared outside of its frames. -/
structure Simulates (methods : List EntityId) (source target : List (Event Mark)) : Prop where
  reach : ∀ {top rest after}, followAll (top :: rest) source = some after →
    ∃ added, after = (top ++ added) :: rest ∧
      ∀ known, Covered methods known (top :: rest).flatten →
        ∃ declared, Scoped methods known target declared ∧ Covered methods declared added
  carried : (target.filter (carries methods)).Perm (source.filter (carries methods))

/-- The same for events by which analysis declares nothing outside of frames. -/
structure Quiet (methods : List EntityId) (source target : List (Event Mark)) : Prop where
  reach : ∀ {top rest after}, followAll (top :: rest) source = some after →
    after = top :: rest ∧ ∀ known, Covered methods known (top :: rest).flatten →
      ∃ declared, Scoped methods known target declared
  carried : (target.filter (carries methods)).Perm (source.filter (carries methods))

section

variable {methods : List EntityId} {source target source' target' : List (Event Mark)}

theorem Quiet.simulates (quiet : Quiet methods source target) :
    Simulates methods source target where
  reach := by
    intro top rest after follows
    obtain ⟨rfl, found⟩ := quiet.reach follows
    refine ⟨[], by simp, fun known covered => ?_⟩
    obtain ⟨declared, inReach⟩ := found known covered
    exact ⟨declared, inReach, by simp [Covered]⟩
  carried := quiet.carried

theorem Quiet.nil : Quiet methods [] [] where
  reach := by
    intro top rest after follows
    cases follows
    exact ⟨rfl, fun known _ => ⟨[], .nil⟩⟩
  carried := .refl _

theorem Simulates.append (here : Simulates methods source target)
    (there : Simulates methods source' target') :
    Simulates methods (source ++ source') (target ++ target') where
  reach := by
    intro top rest after follows
    obtain ⟨middle, first, second⟩ := followAll_append.mp follows
    obtain ⟨added, rfl, found⟩ := here.reach first
    obtain ⟨further, rfl, found'⟩ := there.reach second
    refine ⟨added ++ further, by simp, fun known covered => ?_⟩
    obtain ⟨declared, inReach, fresh⟩ := found known covered
    have larger : Covered methods (known ++ declared) ((top ++ added) :: rest).flatten := by
      have older := covered.weaken (List.subset_append_left known declared)
      have newer := fresh.weaken (List.subset_append_right known declared)
      rw [List.flatten_cons] at older ⊢
      intro id mem
      simp only [List.mem_append] at mem
      grind [Covered]
    obtain ⟨declared', inReach', fresh'⟩ := found' _ larger
    refine ⟨declared ++ declared', inReach.append inReach', ?_⟩
    exact (fresh.weaken (List.subset_append_left _ _)).append
      (fresh'.weaken (List.subset_append_right _ _))
  carried := by
    rw [List.filter_append, List.filter_append]
    exact here.carried.append there.carried

theorem Quiet.append (here : Quiet methods source target)
    (there : Quiet methods source' target') :
    Quiet methods (source ++ source') (target ++ target') where
  reach := by
    intro top rest after follows
    obtain ⟨middle, first, second⟩ := followAll_append.mp follows
    obtain ⟨rfl, found⟩ := here.reach first
    obtain ⟨rfl, found'⟩ := there.reach second
    refine ⟨rfl, fun known covered => ?_⟩
    obtain ⟨declared, inReach⟩ := found known covered
    obtain ⟨declared', inReach'⟩ := found' known covered
    exact ⟨_, inReach.append (inReach'.weaken (List.subset_append_left _ _))⟩
  carried := (here.simulates.append there.simulates).carried

theorem Quiet.mention (name : String) (mark : Mark) :
    Quiet methods [.mentions name mark] [.mentions name mark] where
  reach := by
    intro top rest after follows
    obtain ⟨pos, entity⟩ := mark
    cases entity with
    | none => cases follows
    | some id =>
        simp only [followAll, List.foldlM_cons, List.foldlM_nil, follow,
          Option.bind_some] at follows
        split at follows
        · rename_i mem
          cases follows
          exact ⟨rfl, fun known covered => ⟨[], .mention (covered id mem) .nil⟩⟩
        · cases follows
  carried := .refl _

/-- A word that only the text has. -/
theorem Quiet.word (name : String) (pos : Position) :
    Quiet methods [] [.mentions name ⟨pos, none⟩] where
  reach := by
    intro top rest after follows
    cases follows
    exact ⟨rfl, fun known _ => ⟨[], .word .nil⟩⟩
  carried := .refl _

theorem follow_declares {top : List EntityId} {rest after : List (List EntityId)} {name : String}
    {mark : Mark} (follows : follow (top :: rest) (.declares name mark) = some after) :
    ∃ id, mark.entity = some id ∧ after = (top ++ [id]) :: rest := by
  simp only [follow, Option.map_eq_some_iff] at follows
  obtain ⟨id, entity, rfl⟩ := follows
  exact ⟨id, entity, rfl⟩

theorem Simulates.declare (name : String) (mark : Mark) :
    Simulates methods [.declares name mark] [.declares name mark] where
  reach := by
    intro top rest after follows
    obtain ⟨middle, declares, ends⟩ := followAll_cons.mp follows
    cases ends
    obtain ⟨pos, entity⟩ := mark
    obtain ⟨id, rfl, rfl⟩ := follow_declares declares
    exact ⟨[id], rfl, fun known _ => ⟨[id], .declare .nil, fun _ mem => .inr mem⟩⟩
  carried := .refl _

/-- A method is declared by analysis alone. -/
theorem Simulates.method {name : String} {mark : Mark}
    (isMethod : ∀ id, mark.entity = some id → id ∈ methods) :
    Simulates methods [.declares name mark] [] where
  reach := by
    intro top rest after follows
    obtain ⟨middle, declares, ends⟩ := followAll_cons.mp follows
    cases ends
    obtain ⟨id, entity, rfl⟩ := follow_declares declares
    refine ⟨[id], rfl, fun known _ => ⟨[], .nil, ?_⟩⟩
    rintro _ (_ | ⟨_, ⟨⟩⟩)
    exact .inl (isMethod id entity)
  carried := by
    obtain ⟨pos, entity⟩ := mark
    cases entity with
    | none => exact .refl _
    | some id => simp [carries, isMethod id rfl]

/-- What is known inside a frame that has just been opened. -/
theorem Covered.inside {known top : List EntityId} {rest : List (List EntityId)}
    (covered : Covered methods known (top :: rest).flatten) :
    Covered methods known ([] :: top :: rest).flatten := by
  simpa using covered

/-- A frame of analysis that the text does not have. -/
theorem Simulates.unframed (here : Simulates methods source target) :
    Quiet methods (framed source) target where
  reach := by
    intro top rest after follows
    obtain ⟨inner, inside, closes⟩ := followAll_framed.mp follows
    obtain ⟨added, rfl, found⟩ := here.reach inside
    cases closes
    refine ⟨rfl, fun known covered => ?_⟩
    obtain ⟨declared, inReach, -⟩ := found known covered.inside
    exact ⟨declared, inReach⟩
  carried := by
    rw [filter_framed]
    exact here.carried

/-- A frame of the text that analysis does not have. -/
theorem Quiet.inFrame (here : Quiet methods source target) :
    Quiet methods source (framed target) where
  reach := by
    intro top rest after follows
    obtain ⟨rfl, found⟩ := here.reach follows
    refine ⟨rfl, fun known covered => ?_⟩
    obtain ⟨declared, inReach⟩ := found known covered
    exact ⟨[], inReach.inFrame⟩
  carried := by
    rw [filter_framed]
    exact here.carried

theorem Simulates.inFrame (here : Simulates methods source target) :
    Quiet methods (framed source) (framed target) := here.unframed.inFrame

/-- The text has a declared name before its value. -/
theorem Quiet.swap (here : Quiet methods source target) (name : String) (mark : Mark) :
    Simulates methods (source ++ [Event.declares name mark]) (.declares name mark :: target) where
  reach := by
    intro top rest after follows
    obtain ⟨middle, first, last⟩ := followAll_append.mp follows
    obtain ⟨rfl, found⟩ := here.reach first
    obtain ⟨added, rfl, declares⟩ := (Simulates.declare name mark).reach last
    refine ⟨added, rfl, fun known covered => ?_⟩
    obtain ⟨declared, inReach, fresh⟩ := declares known covered
    obtain ⟨declared', inReach'⟩ := found known covered
    refine ⟨_, inReach.append (inReach'.weaken (List.subset_append_left _ _)), ?_⟩
    exact fresh.weaken (List.subset_append_left _ _)
  carried := by
    rw [List.filter_append, ← List.singleton_append, List.filter_append]
    exact List.perm_append_comm.trans (here.carried.append_right _)

/-- In the text the body of a function or handler has a frame of its own inside that of the
header. -/
theorem Simulates.headed (here : Simulates methods source target)
    (there : Simulates methods source' target') :
    Quiet methods (framed (source ++ source'))
      (framed (target ++ framed target')) where
  reach := by
    intro top rest after follows
    obtain ⟨inner, inside, closes⟩ := followAll_framed.mp follows
    obtain ⟨middle, first, second⟩ := followAll_append.mp inside
    obtain ⟨added, rfl, found⟩ := here.reach first
    obtain ⟨further, rfl, found'⟩ := there.reach second
    cases closes
    refine ⟨rfl, fun known covered => ?_⟩
    obtain ⟨declared, inReach, fresh⟩ := found known covered.inside
    have larger : Covered methods (known ++ declared) (([] ++ added) :: top :: rest).flatten := by
      have older := covered.weaken (List.subset_append_left known declared)
      rw [List.nil_append, List.flatten_cons]
      exact (fresh.weaken (List.subset_append_right known declared)).append older
    obtain ⟨declared', inReach', -⟩ := found' _ larger
    exact ⟨[], (inReach.append inReach'.inFrame).inFrame⟩
  carried := by
    simp only [filter_framed, List.filter_append]
    exact here.carried.append there.carried

/-- In the text the items of a loop stand in the frame of its variable. -/
theorem Quiet.looped (here : Quiet methods source target)
    (there : Simulates methods source' target') (name : String) (mark : Mark) :
    Quiet methods (source ++ framed (.declares name mark :: source'))
      (framed (.declares name mark :: (target ++ framed target'))) where
  reach := by
    intro top rest after follows
    obtain ⟨middle, first, second⟩ := followAll_append.mp follows
    obtain ⟨rfl, found⟩ := here.reach first
    obtain ⟨inner, inside, closes⟩ := followAll_framed.mp second
    obtain ⟨middle, declares, body⟩ := followAll_cons.mp inside
    obtain ⟨pos, entity⟩ := mark
    obtain ⟨id, rfl, rfl⟩ := follow_declares declares
    obtain ⟨added, rfl, found'⟩ := there.reach body
    cases closes
    refine ⟨rfl, fun known covered => ?_⟩
    obtain ⟨declared, inReach⟩ := found known covered
    have larger : Covered methods (known ++ [id] ++ declared)
        (([] ++ [id]) :: top :: rest).flatten := by
      rw [List.nil_append, List.flatten_cons, List.append_assoc]
      refine Covered.append (fun _ mem => .inr ?_) ?_
      · exact List.mem_append_right _ (List.mem_append_left _ mem)
      · exact covered.weaken (List.subset_append_left _ _)
    obtain ⟨declared', inReach', -⟩ := found' _ larger
    have items := inReach.weaken (List.subset_append_left known [id])
    exact ⟨[], (Scoped.declare (items.append inReach'.inFrame)).inFrame⟩
  carried := by
    have split (events : List (Event Mark)) :
        (Event.declares name mark :: events).filter (carries methods) =
          [Event.declares name mark].filter (carries methods) ++
            events.filter (carries methods) := by
      rw [← List.filter_append, List.singleton_append]
    rw [filter_framed, split (target ++ framed target'), List.filter_append, filter_framed,
      List.filter_append, filter_framed, split source']
    exact (List.perm_append_comm_assoc _ _ _).trans
      (here.carried.append (there.carried.append_left _))

end

/-! ## Programs -/

namespace Methods

mutual

/-- The entities of the methods of all classes in a statement. -/
def statement : Statement → List EntityId
  | .tryCatch _ body _ handler => block body ++ block handler
  | .classDef _ _ (some initialiser) _ members => constructor initialiser ++ functions members
  | .classDef _ _ none _ members => functions members
  | .function (.mk _ _ _ body) => block body
  | .ifElse _ alternatives (some otherwise) => arms alternatives ++ block otherwise
  | .ifElse _ alternatives none => arms alternatives
  | .whileLoop _ _ body => block body
  | .forLoop _ _ _ _ _ body => block body
  | .forOf _ _ _ body => block body
  | .switch _ _ alternatives (some otherwise) => arms alternatives ++ block otherwise
  | .switch _ _ alternatives none => arms alternatives
  | _ => []

/-- The methods in several statements. -/
def statements : List Statement → List EntityId
  | [] => []
  | first :: others => statement first ++ statements others

/-- The methods in a block. -/
def block : Block → List EntityId
  | .mk _ body => statements body

/-- The methods of a class and those inside them. -/
def functions : List Function → List EntityId
  | [] => []
  | .mk _ name _ body :: others => name.entity.toList ++ (block body ++ functions others)

/-- The methods in a constructor. -/
def constructor : Constructor → List EntityId
  | .mk _ _ body => block body

/-- The methods in the alternatives of an `if` or `switch`. -/
def arms : List Arm → List EntityId
  | [] => []
  | .mk _ _ body :: others => block body ++ arms others

end

end Methods

namespace Quiet

variable {methods : List EntityId}

theorem constant (pos : Position) (value : Literal) :
    Quiet methods [] (Layout.constant pos value) := by
  unfold Layout.constant
  split
  · exact word _ pos
  · exact word _ pos
  · exact nil

/-- A plain key has no names for analysis either. -/
theorem walk_pair {pos : Position} {key value : Expr} {canonical : Option String} :
    Scoping.Walk.pair (.mk pos key value canonical) =
      (if isPlainKey key then [] else Scoping.Walk.expr key) ++ Scoping.Walk.expr value := by
  rw [Scoping.Walk.pair]
  cases key with
  | ident | literal => simp [Scoping.Walk.isName, isPlainKey, Scoping.Walk.expr]
  | _ => rfl

mutual

theorem expr : ∀ e : Expr, Quiet methods (Scoping.Walk.expr e) (Layout.expr e)
  | .literal note value => constant note.pos value
  | .ident note name entity => mention name ⟨note.pos, entity⟩
  | .call _ callee args | .new _ callee args => (expr callee).append (exprs args)
  | .this _ _ => nil
  | .typeOf _ operand | .unary _ _ _ operand | .property _ operand _ => expr operand
  | .ternary _ condition yes no => (expr condition).append ((expr yes).append (expr no))
  | .binary _ _ left right | .member _ left right => (expr left).append (expr right)
  | .array _ elements => exprs elements
  | .object _ entries => (pairs entries).inFrame

theorem exprs : ∀ es : List Expr, Quiet methods (Scoping.Walk.exprs es) (Layout.exprs es)
  | [] => nil
  | e :: others => (expr e).append (exprs others)

theorem pair : ∀ entry : Pair, Quiet methods (Scoping.Walk.pair entry) (Layout.pair entry)
  | .mk _ key value _ => by
      rw [walk_pair, Layout.pair_eq]
      by_cases plain : isPlainKey key = true
      · rw [if_pos plain, if_pos plain]
        exact expr value
      · rw [if_neg plain, if_neg plain]
        exact (expr key).append (expr value)

theorem pairs : ∀ entries : List Pair,
    Quiet methods (Scoping.Walk.pairs entries) (Layout.pairs entries)
  | [] => nil
  | entry :: others => (pair entry).append (pairs others)

end

end Quiet

namespace Simulates

variable {methods : List EntityId}

theorem binding (name : Binding) :
    Simulates methods [Scoping.Walk.binding name] [Scoping.Walk.binding name] := declare _ _

theorem parameters : ∀ params : List Parameter,
    Simulates methods (Scoping.Walk.parameters params) (Scoping.Walk.parameters params)
  | [] => Quiet.nil.simulates
  | param :: others =>
      (declare param.name ⟨param.note.pos, param.entity⟩).append (parameters others)

theorem declarator : ∀ entry : Binding × Option Expr,
    Simulates methods (Scoping.Walk.declarator entry) (Layout.declarator entry)
  | (_, some value) => (Quiet.expr value).swap _ _
  | (name, none) => (Quiet.word "undefined" name.pos).swap _ _

theorem declaration (constant : Bool) (name : Binding) (init : Option Expr) :
    Simulates methods (Scoping.Walk.declarator (name, init))
      (Layout.declaration constant name init) := by
  unfold Layout.declaration
  split
  · rename_i bare
    cases init with
    | some value => simp at bare
    | none => exact binding name
  · exact declarator (name, init)

theorem declarators : ∀ entries : List (Binding × Option Expr),
    Simulates methods (entries.flatMap Scoping.Walk.declarator)
      (entries.flatMap Layout.declarator)
  | [] => Quiet.nil.simulates
  | entry :: others => (declarator entry).append (declarators others)

mutual

theorem statement : ∀ {s : Statement}, Methods.statement s ⊆ methods →
    Simulates methods (Scoping.Walk.statement s) (Layout.statement s)
  | .declare _ constant name init, _ => declaration constant name init
  | .declareAll _ _ entries, _ => declarators entries
  | .assign _ target value, _ => ((Quiet.expr target).append (Quiet.expr value)).simulates
  | .tryCatch _ body name handler, listed => by
      rw [Methods.statement, List.append_subset] at listed
      exact ((block listed.1).inFrame.append ((binding name).headed (block listed.2))).simulates
  | .classDef _ name (some initialiser) _ members, listed => by
      rw [Methods.statement, List.append_subset] at listed
      have inside := (constructor listed.1).simulates.append (functions listed.2)
      exact (binding name).append inside.inFrame.simulates
  | .classDef _ name none _ members, listed =>
      (binding name).append (functions listed).inFrame.simulates
  | .function (.mk _ name params body), listed =>
      (binding name).append ((parameters params).headed (block listed)).simulates
  | .ifElse _ alternatives (some otherwise), listed => by
      rw [Methods.statement, List.append_subset] at listed
      exact ((arms listed.1).append (block listed.2).inFrame).simulates
  | .ifElse _ alternatives none, listed => (arms listed).simulates
  | .whileLoop _ condition body, listed =>
      ((Quiet.expr condition).append (block listed).inFrame).simulates
  | .forLoop _ name init condition step body, listed => by
      have declares := (@Quiet.expr methods init).swap name.name ⟨name.pos, name.entity⟩
      have header := declares.append ((Quiet.expr condition).append
        ((Quiet.expr step).append (block listed).inFrame)).simulates
      rw [List.append_assoc, List.singleton_append] at header
      exact header.inFrame.simulates
  | .forOf _ name iterable body, listed =>
      ((Quiet.expr iterable).looped (block listed) _ _).simulates
  | .switch _ selector alternatives (some otherwise), listed => by
      rw [Methods.statement, List.append_subset] at listed
      have inside := (cases listed.1).append (block listed.2).unframed
      exact ((Quiet.expr selector).append inside.inFrame).simulates
  | .switch _ selector alternatives none, listed =>
      ((Quiet.expr selector).append (cases listed).inFrame).simulates
  | .returns _ (some value), _ => (Quiet.expr value).simulates
  | .returns _ none, _ => Quiet.nil.simulates
  | .print pos argument, _ =>
      ((Quiet.word "console" pos).append (Quiet.expr argument)).simulates
  | .breakLoop _, _ => Quiet.nil.simulates
  | .continueLoop _, _ => Quiet.nil.simulates
  | .expr _ e, _ => (Quiet.expr e).simulates

theorem statements : ∀ {body : List Statement}, Methods.statements body ⊆ methods →
    Simulates methods (Scoping.Walk.statements body) (Layout.statements body)
  | [], _ => Quiet.nil.simulates
  | first :: others, listed => by
      rw [Methods.statements, List.append_subset] at listed
      exact (statement listed.1).append (statements listed.2)

theorem block : ∀ {body : Block}, Methods.block body ⊆ methods →
    Simulates methods (Scoping.Walk.block body) (Layout.block body)
  | .mk _ _, listed => statements listed

theorem functions : ∀ {members : List Function}, Methods.functions members ⊆ methods →
    Simulates methods (Scoping.Walk.functions members) (Layout.methods members)
  | [], _ => Quiet.nil.simulates
  | .mk _ name params body :: others, listed => by
      rw [Methods.functions, List.append_subset, List.append_subset] at listed
      have isMethod : ∀ id, name.entity = some id → id ∈ methods := by
        intro id entity
        exact listed.1 (by simp [entity])
      have inside := (parameters params).headed (block listed.2.1)
      exact ((method isMethod).append inside.simulates).append (functions listed.2.2)

theorem constructor : ∀ {initialiser : Constructor},
    Methods.constructor initialiser ⊆ methods →
    Quiet methods (Scoping.Walk.constructor initialiser) (Layout.constructor initialiser)
  | .mk _ params _, listed => (parameters params).headed (block listed)

theorem arms : ∀ {alternatives : List Arm}, Methods.arms alternatives ⊆ methods →
    Quiet methods (Scoping.Walk.arms alternatives) (Layout.arms alternatives)
  | [], _ => Quiet.nil
  | .mk _ test _ :: others, listed => by
      rw [Methods.arms, List.append_subset] at listed
      have first := (Quiet.expr test).append (block listed.1).inFrame
      have whole := first.append (arms listed.2)
      rwa [List.append_assoc (Layout.expr test)] at whole

/-- In the text all cases of a switch share one frame. -/
theorem cases : ∀ {alternatives : List Arm}, Methods.arms alternatives ⊆ methods →
    Quiet methods (Scoping.Walk.arms alternatives) (Layout.cases alternatives)
  | [], _ => Quiet.nil
  | .mk _ test _ :: others, listed => by
      rw [Methods.arms, List.append_subset] at listed
      have first := (Quiet.expr test).append (block listed.1).unframed
      have whole := first.append (cases listed.2)
      rwa [List.append_assoc (Layout.expr test)] at whole

end

end Simulates

end Qalam.EcmaScript
