/-
# Frames are closed again

Whatever an analyzer binds, it leaves the arena as it found it, except for names at the end of the
current frame: those that a statement declares itself and, while plain names declare parameters,
the plain names outside fields and indices. This holds in every state of the arena, orderly or not,
because a frame that is opened is the last one of the list until it is closed.

An action either keeps the arena but for such names, or it works in a frame that stands on top of an
arena and then closes it. Both kinds are put together from smaller ones, rule by rule.
-/

import Qalam.Proofs.Frames.Analyzer

namespace Qalam

/-! ## Names that are declared -/

mutual

/-- The names that an expression declares in the current frame, if plain names are parameters. -/
def Expr.declared (binding : Bool) : Expr → List String
  | .literal _ _ => []
  | .ident _ name _ => if binding then [name] else []
  | .call _ callee args => callee.declared binding ++ exprsDeclared binding args
  | .this _ _ => []
  | .new _ target args => target.declared binding ++ exprsDeclared binding args
  | .typeOf _ operand => operand.declared binding
  | .ternary _ condition yes no =>
    condition.declared binding ++ (yes.declared binding ++ no.declared binding)
  | .binary _ _ left right => left.declared binding ++ right.declared binding
  | .unary _ _ _ operand => operand.declared binding
  | .array _ elements => exprsDeclared binding elements
  | .object _ entries => pairsDeclared binding entries
  | .member _ base _ => base.declared binding
  | .property _ base _ => base.declared binding

/-- The names that several expressions declare. -/
def exprsDeclared (binding : Bool) : List Expr → List String
  | [] => []
  | e :: others => e.declared binding ++ exprsDeclared binding others

/-- The names that an entry of an object literal declares. A plain name as a key is a field. -/
def Pair.declared (binding : Bool) : Pair → List String
  | .mk _ (.ident _ _ _) value _ => value.declared binding
  | .mk _ key value _ => key.declared binding ++ value.declared binding

/-- The names that the entries of an object literal declare. -/
def pairsDeclared (binding : Bool) : List Pair → List String
  | [] => []
  | entry :: others => entry.declared binding ++ pairsDeclared binding others

end

/-- The names that a value declares. -/
def optionalDeclared (binding : Bool) : Option Expr → List String
  | some e => e.declared binding
  | none => []

/-- The names that declarators declare, each behind those of its value. -/
def declaratorsDeclared (binding : Bool) : List (Binding × Option Expr) → List String
  | [] => []
  | (name, init) :: others =>
    optionalDeclared binding init ++ [name.name] ++ declaratorsDeclared binding others

/-- The names that the tests of alternatives declare. -/
def armsDeclared (binding : Bool) : List Arm → List String
  | [] => []
  | .mk _ test _ :: others => test.declared binding ++ armsDeclared binding others

/-- The names that a statement declares in the current frame: those of variables, or of a function
or class, and those that its expressions declare if plain names are parameters. -/
def Statement.declared (binding : Bool) : Statement → List String
  | .declare _ _ name init => optionalDeclared binding init ++ [name.name]
  | .declareAll _ _ entries => declaratorsDeclared binding entries
  | .assign _ target value => target.declared binding ++ value.declared binding
  | .tryCatch _ _ _ _ => []
  | .classDef _ name _ _ _ => [name.name]
  | .function (.mk _ name _ _) => [name.name]
  | .ifElse _ alternatives _ => armsDeclared binding alternatives
  | .whileLoop _ condition _ => condition.declared binding
  | .forLoop _ _ _ _ _ _ => []
  | .forOf _ _ iterable _ => iterable.declared binding
  | .switch _ selector alternatives _ =>
    selector.declared binding ++ armsDeclared binding alternatives
  | .returns _ value => optionalDeclared binding value
  | .print _ argument => argument.declared binding
  | .breakLoop _ => []
  | .continueLoop _ => []
  | .expr _ e => e.declared binding

/-- The names that statements declare. -/
def statementsDeclared (binding : Bool) : List Statement → List String
  | [] => []
  | first :: others => first.declared binding ++ statementsDeclared binding others

/-- The names that functions declare. -/
def functionsDeclared : List Function → List String
  | [] => []
  | .mk _ name _ _ :: others => name.name :: functionsDeclared others

mutual

/-- An expression declares nothing unless plain names are parameters. -/
theorem Expr.declared_false : ∀ e : Expr, e.declared false = []
  | .literal _ _ | .ident _ _ _ | .this _ _ => rfl
  | .call _ callee args | .new _ callee args => by
      rw [Expr.declared, callee.declared_false, exprsDeclared_false args, List.append_nil]
  | .typeOf _ operand | .unary _ _ _ operand => by rw [Expr.declared, operand.declared_false]
  | .ternary _ condition yes no => by
      rw [Expr.declared, condition.declared_false, yes.declared_false, no.declared_false]
      rfl
  | .binary _ _ left right => by
      rw [Expr.declared, left.declared_false, right.declared_false, List.append_nil]
  | .array _ elements => by rw [Expr.declared, exprsDeclared_false elements]
  | .object _ entries => by rw [Expr.declared, pairsDeclared_false entries]
  | .member _ base _ | .property _ base _ => by rw [Expr.declared, base.declared_false]

theorem exprsDeclared_false : ∀ es : List Expr, exprsDeclared false es = []
  | [] => rfl
  | e :: others => by
      rw [exprsDeclared, e.declared_false, exprsDeclared_false others, List.append_nil]

theorem Pair.declared_false : ∀ entry : Pair, entry.declared false = []
  | .mk _ key value _ => by
      have here := key.declared_false
      have there := value.declared_false
      cases key <;> simp only [Pair.declared, here, there, List.append_nil]

theorem pairsDeclared_false : ∀ entries : List Pair, pairsDeclared false entries = []
  | [] => rfl
  | entry :: others => by
      rw [pairsDeclared, entry.declared_false, pairsDeclared_false others, List.append_nil]

end

/-! ## Arenas that differ in the current frame -/

variable {φ : Type}

/-- The slot with more names at its end. -/
def Slot.append (slot : Slot φ) (added : List (String × EntityId)) : Slot φ :=
  { slot with symbols := slot.symbols ++ added }

theorem Slot.append_nil (slot : Slot φ) : slot.append [] = slot := by
  rw [append, List.append_nil]

theorem Slot.append_append (slot : Slot φ) (first second : List (String × EntityId)) :
    (slot.append first).append second = slot.append (first ++ second) := by
  simp only [append, List.append_assoc]

namespace Arena

/-- The arena with more names at the end of the current frame. -/
def extend (arena : Arena φ) (added : List (String × EntityId)) : Arena φ :=
  { arena with slots := arena.slots.modify arena.current (·.append added) }

theorem extend_nil (arena : Arena φ) : arena.extend [] = arena := by
  have kept : (fun slot : Slot φ => slot.append []) = id := funext Slot.append_nil
  rw [extend, kept, List.modify_id]

theorem extend_extend (arena : Arena φ) (first second : List (String × EntityId)) :
    (arena.extend first).extend second = arena.extend (first ++ second) := by
  simp [extend, List.modify_modify_eq, Function.comp_def, Slot.append_append]

theorem here?_extend (arena : Arena φ) (added : List (String × EntityId)) :
    (arena.extend added).here? = arena.here?.map (·.append added) := by
  simp [extend, here?]

/-- To put a longer frame in the place of the current one is to extend the arena. -/
theorem put_append {arena : Arena φ} {slot : Slot φ} (here : arena.here? = some slot)
    (added : List (String × EntityId)) : arena.put (slot.append added) = arena.extend added := by
  have same : arena.slots.set arena.current (slot.append added) =
      arena.slots.modify arena.current (·.append added) := by
    refine List.ext_getElem? fun index => ?_
    rw [List.getElem?_set, List.getElem?_modify]
    have known : arena.slots[arena.current]? = some slot := here
    obtain ⟨inside, -⟩ := List.getElem?_eq_some_iff.mp known
    by_cases current : arena.current = index
    · subst current
      simp only [if_pos, inside, known, Option.map_eq_map, Option.map_some]
    · simp only [if_neg current, Option.map_eq_map, Option.map_id']
  rw [put, extend, same]

/-- The arena differs from another one in names at the end of the current frame: all other frames,
their number, the current index and the flags are the same. -/
structure Extends (before after : Arena φ) (names : List String) : Prop where
  current : after.current = before.current
  size : after.slots.length = before.slots.length
  others : ∀ index, index ≠ before.current → after.slots[index]? = before.slots[index]?
  here : ∃ added : List (String × EntityId), added.map Prod.fst = names ∧
    after.here? = before.here?.map (·.append added)

theorem extends_extend (arena : Arena φ) (added : List (String × EntityId)) :
    arena.Extends (arena.extend added) (added.map Prod.fst) where
  current := rfl
  size := by simp [extend]
  others index differs := by simp [extend, differs.symm]
  here := ⟨added, rfl, here?_extend arena added⟩

/-- One frame stands on an arena: it is the last one and the current one. -/
def Above (base arena : Arena φ) : Prop :=
  ∃ slot : Slot φ, arena = ⟨base.slots ++ [slot], base.slots.length⟩ ∧
    slot.parent = some base.current

theorem above_of_enter? {arena opened : Arena φ} {adjust : φ → φ}
    (opens : arena.enter? adjust = some opened) : arena.Above opened := by
  obtain ⟨slot, -, same⟩ := Option.bind_eq_some_iff.mp opens
  cases same
  exact ⟨_, rfl, rfl⟩

theorem Above.exit? {base arena : Arena φ} (above : base.Above arena) :
    arena.exit? = some base := by
  obtain ⟨slot, rfl, parent⟩ := above
  simp [Arena.exit?, here?, parent]

theorem Above.here? {base arena : Arena φ} (above : base.Above arena) :
    ∃ slot, arena.here? = some slot ∧ arena = ⟨base.slots ++ [slot], base.slots.length⟩ ∧
      slot.parent = some base.current := by
  obtain ⟨slot, rfl, parent⟩ := above
  exact ⟨slot, by simp [Arena.here?], rfl, parent⟩

theorem Above.put {base arena : Arena φ} (above : base.Above arena) {slot : Slot φ}
    (parent : slot.parent = some base.current) : base.Above (arena.put slot) := by
  obtain ⟨old, rfl, -⟩ := above
  exact ⟨slot, by simp [Arena.put], parent⟩

theorem Above.extend {base arena : Arena φ} (above : base.Above arena)
    (added : List (String × EntityId)) : base.Above (arena.extend added) := by
  obtain ⟨slot, here, -, parent⟩ := above.here?
  rw [← put_append here]
  exact above.put parent

end Arena

/-! ## Actions -/

namespace Analyzer

variable {α β : Type}

/-- An action of an analyzer succeeds. -/
def Yields (action : Analyzing α) (before : Analyzer) (value : α) (after : Analyzer) : Prop :=
  (action.run before).run = some (.ok (value, after))

theorem run_bind (action : Analyzing α) (next : α → Analyzing β) (before : Analyzer) :
    ((action >>= next).run before).run =
      match (action.run before).run with
      | none => none
      | some (.error error) => some (.error error)
      | some (.ok (value, middle)) => ((next value).run middle).run := by
  change Option.bind ((action.run before).run) _ = _
  rcases (action.run before).run with _ | error | reached <;> rfl

theorem yields_bind {action : Analyzing α} {next : α → Analyzing β} {before after : Analyzer}
    {value : β} : Yields (action >>= next) before value after ↔
      ∃ first middle, Yields action before first middle ∧ Yields (next first) middle value after := by
  simp only [Yields, run_bind]
  rcases (action.run before).run with _ | error | ⟨first, middle⟩
  · simp
  · simp
  · constructor
    · intro yields
      exact ⟨first, middle, rfl, yields⟩
    · rintro ⟨_, _, same, yields⟩
      cases same
      exact yields

theorem yields_access {work : Arena Flags → Option (α × Arena Flags)} {before after : Analyzer}
    {value : α} : Yields (access work) before value after ↔
      ∃ scopes, work before.scopes = some (value, scopes) ∧ after = { before with scopes } := by
  simp only [Yields, access, StateT.run, ExceptT.run, ExceptT.mk, Option.map_eq_some_iff]
  constructor
  · rintro ⟨⟨_, scopes⟩, works, same⟩
    cases same
    exact ⟨scopes, works, rfl⟩
  · rintro ⟨scopes, works, rfl⟩
    exact ⟨(value, scopes), works, rfl⟩

/-- Whether plain names declare parameters at the current place. -/
def binding (state : Analyzer) : Bool :=
  (state.scopes.here?.map fun slot => slot.flags.bindingParameters).getD false

/-- An action keeps the arena except for names in the current frame. -/
def Keeps (action : Analyzing α) (names : Bool → List String) : Prop :=
  ∀ ⦃before after value⦄, Yields action before value after →
    ∃ added : List (String × EntityId), added.map Prod.fst = names before.binding ∧
      after.scopes = before.scopes.extend added

/-- An action keeps the arena. -/
def Silent (action : Analyzing α) : Prop := Keeps action fun _ => []

/-- An action in a frame on top of an arena leaves the frame open. -/
def Stays (action : Analyzing α) : Prop :=
  ∀ ⦃base before after value⦄, Arena.Above base before.scopes → Yields action before value after →
    Arena.Above base after.scopes

/-- An action in a frame on top of an arena closes the frame. -/
def Closes (action : Analyzing α) : Prop :=
  ∀ ⦃base before after value⦄, Arena.Above base before.scopes → Yields action before value after →
    after.scopes = base

variable {action : Analyzing α} {next : α → Analyzing β} {names first second : Bool → List String}

theorem Silent.same (silent : Silent action) {before after : Analyzer} {value : α}
    (yields : Yields action before value after) : after.scopes = before.scopes := by
  obtain ⟨added, none, same⟩ := silent yields
  rw [same, List.map_eq_nil_iff.mp none, Arena.extend_nil]

theorem silent_of_same
    (same : ∀ ⦃before after value⦄, Yields action before value after →
      after.scopes = before.scopes) : Silent action :=
  fun _ _ _ yields => ⟨[], rfl, by rw [same yields, Arena.extend_nil]⟩

theorem Silent.pure (value : α) : Silent (pure value : Analyzing α) := by
  refine silent_of_same fun before after value yields => ?_
  cases yields
  rfl

theorem Silent.failAt (fault : SemanticFault) (pos : Position) :
    Silent (failAt fault pos : Analyzing α) :=
  fun _ _ _ yields => nomatch yields

theorem Silent.check (rule : Analysis α) : Silent (check rule) := by
  refine silent_of_same fun before after value yields => ?_
  simp only [Yields, Analyzer.check, StateT.run, ExceptT.run, ExceptT.mk, Option.some.injEq] at yields
  cases outcome : rule ⟨.root, before.entities⟩ with
  | error error =>
      rw [outcome] at yields
      cases yields
  | ok reached =>
      rw [outcome] at yields
      cases yields
      rfl

theorem Keeps.bind (here : Keeps action first) (there : ∀ value, Keeps (next value) second) :
    Keeps (action >>= next) fun binding => first binding ++ second binding := by
  intro before after value yields
  obtain ⟨reached, middle, yields, yields'⟩ := yields_bind.mp yields
  obtain ⟨added, firstNames, same⟩ := here yields
  obtain ⟨added', secondNames, same'⟩ := there reached yields'
  have mode : middle.binding = before.binding := by
    rw [binding, binding, same, Arena.here?_extend, Option.map_map]
    rfl
  refine ⟨added ++ added', ?_, ?_⟩
  · rw [List.map_append, firstNames, secondNames, mode]
  · rw [same', same, Arena.extend_extend]

/-- A silent action comes first. -/
theorem Silent.before (here : Silent action) (there : ∀ value, Keeps (next value) names) :
    Keeps (action >>= next) names :=
  Keeps.bind here there

/-- Nothing but silent actions follows. -/
theorem Keeps.finish (here : Keeps action names) (there : ∀ value, Silent (next value)) :
    Keeps (action >>= next) names := by
  have whole := here.bind there
  simp only [List.append_nil] at whole
  exact whole

theorem Keeps.map (here : Keeps action names) (change : α → β) :
    Keeps (change <$> action) names := by
  rw [map_eq_pure_bind]
  exact here.finish fun value => Silent.pure _

theorem Keeps.stays (here : Keeps action names) : Stays action := by
  intro base before after value above yields
  obtain ⟨added, -, same⟩ := here yields
  rw [same]
  exact above.extend added

theorem Stays.closes (here : Stays action) (there : ∀ value, Closes (next value)) :
    Closes (action >>= next) := by
  intro base before after value above yields
  obtain ⟨reached, middle, yields, yields'⟩ := yields_bind.mp yields
  exact there reached (here above yields) yields'

/-- A frame is closed, and nothing but silent actions follows. -/
theorem Closes.exit {next : Unit → Analyzing β} (there : ∀ value, Silent (next value)) :
    Closes (exit >>= next) := by
  intro base before after value above yields
  obtain ⟨reached, middle, yields, yields'⟩ := yields_bind.mp yields
  obtain ⟨scopes, exits, rfl⟩ := yields_access.mp yields
  rw [above.exit?] at exits
  cases exits
  exact (there _).same yields'

/-- A frame is opened, and what follows closes it. -/
theorem Silent.enter {next : Unit → Analyzing β} (adjust : Flags → Flags)
    (there : ∀ value, Closes (next value)) : Silent (enter adjust >>= next) := by
  refine silent_of_same fun before after value yields => ?_
  obtain ⟨reached, middle, yields, yields'⟩ := yields_bind.mp yields
  obtain ⟨scopes, enters, rfl⟩ := yields_access.mp yields
  obtain ⟨opened, opens, same⟩ := Option.map_eq_some_iff.mp enters
  cases same
  exact there _ (Arena.above_of_enter? opens) yields'

theorem stays_setBindingParameters (bindingParameters : Bool) :
    Stays (setBindingParameters bindingParameters) := by
  intro base before after value above yields
  obtain ⟨scopes, changes, rfl⟩ := yields_access.mp yields
  obtain ⟨slot, here, -, parent⟩ := above.here?
  rw [Arena.changeFlags?, here] at changes
  cases changes
  exact above.put parent

theorem Silent.flags : Silent flags := by
  refine silent_of_same fun before after value yields => ?_
  obtain ⟨scopes, reads, rfl⟩ := yields_access.mp yields
  obtain ⟨slot, -, same⟩ := Option.map_eq_some_iff.mp reads
  cases same
  rfl

theorem Silent.ite {condition : Prop} [Decidable condition] {no : Analyzing α}
    (yes : Silent action) (other : Silent no) : Silent (if condition then action else no) := by
  split
  · exact yes
  · exact other

theorem Keeps.declare (pos : Position) (entity : Entity) :
    Keeps (declare pos entity) fun _ => [entity.name] := by
  intro before after value yields
  rw [Analyzer.declare] at yields
  obtain ⟨_, _, start, yields⟩ := yields_bind.mp yields
  cases start
  obtain ⟨_, _, alloc, yields⟩ := yields_bind.mp yields
  cases alloc
  obtain ⟨outcome, middle, tries, yields⟩ := yields_bind.mp yields
  obtain ⟨scopes, declares, rfl⟩ := yields_access.mp tries
  obtain ⟨slot, here, decides⟩ := Option.bind_eq_some_iff.mp declares
  cases taken : slot.get? entity.name with
  | some id =>
      rw [taken] at decides
      cases decides
      cases yields
  | none =>
      rw [taken] at decides
      cases decides
      cases yields
      exact ⟨[(entity.name, _)], rfl, Arena.put_append here _⟩

/-- Declaring the name of a binding. -/
theorem Keeps.declareBinding (name : Binding) (entity : Entity) :
    Keeps (declareBinding name entity) fun _ => [entity.name] :=
  (Keeps.declare name.pos entity).finish fun _ => Silent.pure _

theorem Silent.requireLoop (pos : Position) : Silent (requireLoop pos) :=
  Silent.flags.before fun _ => Silent.ite (Silent.failAt _ _) (Silent.pure _)

theorem Silent.requireFunction (pos : Position) : Silent (requireFunction pos) :=
  Silent.flags.before fun _ => Silent.ite (Silent.failAt _ _) (Silent.pure _)

theorem Silent.requireClass (pos : Position) : Silent (requireClass pos) :=
  Silent.flags.before fun _ => Silent.ite (Silent.failAt _ _) (Silent.pure _)

/-- A plain name is declared only where plain names are parameters. -/
theorem Keeps.identifier (name : String) (pos : Position) (entity : Option EntityId) :
    Keeps (identifier name pos entity) fun binding => if binding then [name] else [] := by
  intro before after value yields
  rw [Analyzer.identifier] at yields
  obtain ⟨modes, _, reads, yields⟩ := yields_bind.mp yields
  obtain ⟨scopes, found, rfl⟩ := yields_access.mp reads
  obtain ⟨slot, here, same⟩ := Option.map_eq_some_iff.mp found
  cases same
  have mode : before.binding = slot.flags.bindingParameters := by rw [binding, here]; rfl
  rw [mode]
  cases declares : slot.flags.bindingParameters with
  | true =>
      rw [declares, if_pos rfl] at yields
      exact ((Keeps.declare pos (.variable name false .any)).finish fun _ => Silent.pure _) yields
  | false =>
      rw [declares, if_neg Bool.false_ne_true] at yields
      refine Silent.ite (Silent.pure _) (Silent.before ?_ fun found => ?_) yields
      · refine silent_of_same fun before after value yields => ?_
        obtain ⟨scopes, looks, rfl⟩ := yields_access.mp yields
        obtain ⟨_, -, same⟩ := Option.map_eq_some_iff.mp looks
        cases same
        rfl
      · cases found with
        | none => exact Silent.failAt _ _
        | some id =>
            refine Silent.before (silent_of_same fun before after value yields => ?_) fun _ => Silent.pure _
            cases yields
            rfl

theorem Silent.fieldName (name : String) (pos : Position) (entity : Option EntityId) :
    Silent (fieldName name pos entity) :=
  .enter _ fun _ => (Keeps.identifier name pos entity).stays.closes fun _ =>
    .exit fun _ => Silent.pure _

theorem Silent.field (name : Field) : Silent (field name) :=
  (Silent.fieldName name.name name.note.pos none).before fun _ => Silent.pure _

/-! ## Expressions -/

mutual

theorem Keeps.expr : ∀ e : Expr, Keeps (expr e) fun binding => e.declared binding
  | .literal note value => by
      rw [Analyzer.expr]
      exact Silent.pure _
  | .ident note name entity => by
      rw [Analyzer.expr]
      exact (Keeps.identifier name note.pos entity).finish fun _ => Silent.pure _
  | .call note callee args => by
      rw [Analyzer.expr]
      refine (Keeps.expr callee).bind fun bound => (Silent.check _).before fun _ => ?_
      exact (Keeps.exprs args).finish fun _ => Silent.pure _
  | .this note name => by
      rw [Analyzer.expr]
      exact (Silent.requireClass note.pos).before fun _ => (Silent.field name).before fun _ => Silent.pure _
  | .new note target args => by
      rw [Analyzer.expr]
      refine (Keeps.expr target).bind fun bound => (Silent.check _).before fun _ => ?_
      exact (Keeps.exprs args).finish fun _ => Silent.pure _
  | .typeOf note operand => by
      rw [Analyzer.expr]
      exact (Keeps.expr operand).finish fun _ => Silent.pure _
  | .ternary note condition yes no => by
      rw [Analyzer.expr]
      refine (Keeps.expr condition).bind fun bound => (Silent.check _).before fun _ => ?_
      exact (Keeps.expr yes).bind fun _ => (Keeps.expr no).finish fun _ => Silent.pure _
  | .binary note op left right => by
      rw [Analyzer.expr]
      refine (Keeps.expr left).bind fun _ => (Keeps.expr right).finish fun _ => ?_
      exact (Silent.check _).before fun _ => Silent.pure _
  | .unary note op side operand => by
      rw [Analyzer.expr]
      exact (Keeps.expr operand).finish fun _ => (Silent.check _).before fun _ => Silent.pure _
  | .array note elements => by
      rw [Analyzer.expr]
      exact (Keeps.exprs elements).finish fun _ => Silent.pure _
  | .object note entries => by
      rw [Analyzer.expr]
      exact (Keeps.pairs [] entries).finish fun _ => Silent.pure _
  | .member note base index => by
      rw [Analyzer.expr]
      refine (Keeps.expr base).finish fun bound => (Silent.check _).before fun _ => ?_
      -- the index is read in a frame of its own, whatever it declares
      refine Silent.enter _ fun _ => (Keeps.expr index).stays.closes fun place => .exit fun _ => ?_
      exact Silent.ite ((Silent.check _).before fun _ => Silent.pure _) (Silent.pure _)
  | .property note base name => by
      rw [Analyzer.expr]
      refine (Keeps.expr base).finish fun bound => (Silent.check _).before fun _ => ?_
      exact (Silent.field name).before fun _ => Silent.pure _

theorem Keeps.exprs : ∀ es : List Expr, Keeps (exprs es) fun binding => exprsDeclared binding es
  | [] => by
      rw [Analyzer.exprs]
      exact Silent.pure _
  | e :: others => by
      rw [Analyzer.exprs]
      exact (Keeps.expr e).bind fun _ => (Keeps.exprs others).finish fun _ => Silent.pure _

theorem Keeps.pair : ∀ entry : Pair, Keeps (pair entry) fun binding => entry.declared binding
  | .mk pos key value canonical => by
      have here := Keeps.expr key
      have there : ∀ key : Expr, Keeps (do
          let value ← Analyzer.expr value
          return Pair.mk pos key value (some key.keyText)) fun binding => value.declared binding :=
        fun _ => (Keeps.expr value).finish fun _ => Silent.pure _
      cases key with
      | ident note name entity =>
          exact (Silent.fieldName name note.pos entity).before fun _ => there _
      | _ => exact here.bind there

theorem Keeps.pairs (seen : List String) :
    ∀ entries : List Pair, Keeps (pairs seen entries) fun binding => pairsDeclared binding entries
  | [] => by
      rw [Analyzer.pairs]
      exact Silent.pure _
  | entry :: others => by
      rw [Analyzer.pairs]
      refine (Keeps.pair entry).bind fun _ => (Silent.check _).before fun seen => ?_
      exact (Keeps.pairs seen others).finish fun _ => Silent.pure _

end

/-! ## Statements -/

theorem stays_parameters (params : List Parameter) : Stays (parameters params) := by
  have kept : ∀ params : List Parameter, Keeps (parameters params) fun binding =>
      if binding then params.map Parameter.name else [] := by
    intro params
    induction params with
    | nil =>
        intro before after value yields
        simpa using Silent.pure ([] : List Parameter) yields
    | cons param others ih =>
        have first : Keeps (parameter param) fun binding => if binding then [param.name] else [] :=
          (Keeps.expr (.ident param.note param.name param.entity)).finish fun bound => by
            cases bound <;> exact Silent.pure _
        intro before after value yields
        obtain ⟨added, names, same⟩ :=
          (first.bind fun _ => ih.finish fun _ => Silent.pure _) yields
        refine ⟨added, ?_, same⟩
        rw [names]
        cases before.binding <;> rfl
  exact (kept params).stays

theorem Keeps.optional (value : Option Expr) :
    Keeps (optional value) fun binding => optionalDeclared binding value := by
  cases value with
  | none => exact Silent.pure _
  | some e => exact (Keeps.expr e).finish fun _ => Silent.pure _

theorem Keeps.declarator (constant : Bool) (name : Binding) (init : Option Expr) :
    Keeps (declarator constant name init) fun binding =>
      optionalDeclared binding init ++ [name.name] :=
  (Keeps.optional init).bind fun _ => (Keeps.declareBinding name _).finish fun _ => Silent.pure _

theorem Keeps.declarators (constant : Bool) (entries : List (Binding × Option Expr)) :
    Keeps (declarators constant entries) fun binding => declaratorsDeclared binding entries := by
  induction entries with
  | nil => exact Silent.pure _
  | cons entry others ih =>
      exact (Keeps.declarator constant entry.1 entry.2).bind fun _ => ih.finish fun _ => Silent.pure _

mutual

theorem Keeps.statement : ∀ s : Statement, Keeps (statement s) fun binding => s.declared binding
  | .declare pos constant name init => by
      rw [Analyzer.statement]
      exact (Keeps.declarator constant name init).finish fun _ => Silent.pure _
  | .declareAll pos constant entries => by
      rw [Analyzer.statement]
      exact (Keeps.declarators constant entries).finish fun _ => Silent.pure _
  | .assign pos target value => by
      rw [Analyzer.statement]
      refine (Keeps.expr target).bind fun _ => (Keeps.expr value).finish fun _ => ?_
      exact (Silent.check _).before fun _ => (Silent.check _).before fun _ => Silent.pure _
  | .tryCatch pos body name handler => by
      rw [Analyzer.statement]
      refine (Silent.blockIn _ body).before fun _ => Silent.enter _ fun _ => ?_
      refine (Keeps.declareBinding name _).stays.closes fun _ => ?_
      exact (stays_blockHere handler).closes fun _ => .exit fun _ => Silent.pure _
  | .classDef pos name initialiser bodyPos methods => by
      rw [Analyzer.statement]
      refine (Keeps.declare name.pos _).finish fun declared => Silent.enter _ fun _ => ?_
      have members := Keeps.functions methods
      cases initialiser with
      | none =>
          refine (Silent.pure _).stays.closes fun _ => ?_
          exact members.stays.closes fun _ => .exit fun _ => Silent.pure _
      | some initialiser =>
          refine ((Silent.constructor initialiser).map _).stays.closes fun _ => ?_
          exact members.stays.closes fun _ => .exit fun _ => Silent.pure _
  | .function (.mk pos name params body) => by
      rw [Analyzer.statement]
      exact (Keeps.function (.mk pos name params body)).map _
  | .ifElse pos alternatives otherwise => by
      rw [Analyzer.statement]
      refine (Keeps.ifArms alternatives).finish fun _ => ?_
      cases otherwise with
      | none => exact (Silent.pure _).before fun _ => Silent.pure _
      | some otherwise => 
          exact Silent.before ((Silent.blockIn _ otherwise).map _) fun _ => Silent.pure _
  | .whileLoop pos condition body => by
      rw [Analyzer.statement]
      refine (Keeps.expr condition).finish fun _ => (Silent.check _).before fun _ => ?_
      exact (Silent.blockIn _ body).before fun _ => Silent.pure _
  | .forLoop pos name init condition step body => by
      rw [Analyzer.statement]
      refine Silent.enter _ fun _ => (Keeps.expr init).stays.closes fun _ => ?_
      refine (Keeps.declareBinding name _).stays.closes fun _ => ?_
      refine (Keeps.expr condition).stays.closes fun _ => (Silent.check _).stays.closes fun _ => ?_
      refine (Keeps.expr step).stays.closes fun _ => (Silent.blockIn _ body).stays.closes fun _ => ?_
      exact .exit fun _ => Silent.pure _
  | .forOf pos name iterable body => by
      rw [Analyzer.statement]
      refine (Keeps.expr iterable).finish fun _ => (Silent.check _).before fun _ => ?_
      refine Silent.enter _ fun _ => (Keeps.declareBinding name _).stays.closes fun _ => ?_
      exact (stays_blockHere body).closes fun _ => .exit fun _ => Silent.pure _
  | .switch pos selector alternatives otherwise => by
      rw [Analyzer.statement]
      refine (Keeps.expr selector).bind fun _ => (Keeps.switchArms alternatives).finish fun _ => ?_
      cases otherwise with
      | none => exact (Silent.pure _).before fun _ => Silent.pure _
      | some otherwise => 
          exact Silent.before ((Silent.blockIn _ otherwise).map _) fun _ => Silent.pure _
  | .returns pos (some value) => by
      rw [Analyzer.statement]
      exact (Silent.requireFunction pos).before fun _ => (Keeps.expr value).finish fun _ => Silent.pure _
  | .returns pos none => by
      rw [Analyzer.statement]
      exact (Silent.requireFunction pos).before fun _ => Silent.pure _
  | .print pos argument => by
      rw [Analyzer.statement]
      exact (Keeps.expr argument).finish fun _ => Silent.pure _
  | .breakLoop pos => by
      rw [Analyzer.statement]
      exact (Silent.requireLoop pos).before fun _ => Silent.pure _
  | .continueLoop pos => by
      rw [Analyzer.statement]
      exact (Silent.requireLoop pos).before fun _ => Silent.pure _
  | .expr pos e => by
      rw [Analyzer.statement]
      exact (Keeps.expr e).finish fun _ => Silent.pure _

theorem Keeps.statements :
    ∀ body : List Statement, Keeps (statements body) fun binding => statementsDeclared binding body
  | [] => by
      rw [Analyzer.statements]
      exact Silent.pure _
  | first :: others => by
      rw [Analyzer.statements]
      exact (Keeps.statement first).bind fun _ => (Keeps.statements others).finish fun _ => Silent.pure _

theorem stays_blockHere : ∀ body : Block, Stays (blockHere body)
  | .mk pos body => by
      rw [Analyzer.blockHere]
      exact ((Keeps.statements body).finish fun _ => Silent.pure _).stays

theorem Silent.blockIn (adjust : Flags → Flags) : ∀ body : Block, Silent (blockIn adjust body)
  | .mk pos body => by
      rw [Analyzer.blockIn]
      exact .enter _ fun _ => (Keeps.statements body).stays.closes fun _ => .exit fun _ => Silent.pure _

theorem Keeps.function :
    ∀ declared : Function, Keeps (function declared) fun _ => functionsDeclared [declared]
  | .mk pos name params body => by
      rw [Analyzer.function]
      refine (Keeps.declare name.pos _).finish fun declared => Silent.enter _ fun _ => ?_
      refine (stays_parameters params).closes fun _ => ?_
      refine (stays_setBindingParameters false).closes fun _ => ?_
      exact (stays_blockHere body).closes fun _ => .exit fun _ => Silent.pure _

theorem Keeps.functions :
    ∀ methods : List Function, Keeps (functions methods) fun _ => functionsDeclared methods
  | [] => by
      rw [Analyzer.functions]
      exact Silent.pure _
  | .mk pos name params body :: others => by
      rw [Analyzer.functions]
      refine (Keeps.function (.mk pos name params body)).bind fun _ => ?_
      exact (Keeps.functions others).finish fun _ => Silent.pure _

theorem Silent.constructor : ∀ initialiser : Constructor, Silent (constructor initialiser)
  | .mk pos params body => by
      rw [Analyzer.constructor]
      refine Silent.enter _ fun _ => (stays_parameters params).closes fun _ => ?_
      refine (stays_setBindingParameters false).closes fun _ => ?_
      exact (stays_blockHere body).closes fun _ => .exit fun _ => Silent.pure _

theorem Keeps.ifArms :
    ∀ alternatives : List Arm, Keeps (ifArms alternatives) fun binding =>
      armsDeclared binding alternatives
  | [] => by
      rw [Analyzer.ifArms]
      exact Silent.pure _
  | .mk pos condition body :: others => by
      rw [Analyzer.ifArms, Analyzer.ifArm]
      have first : Keeps _ fun binding => condition.declared binding :=
        (Keeps.expr condition).finish fun bound =>
          (Silent.check (Analysis.require .boolean bound)).before fun _ =>
            (Silent.blockIn id body).before fun body => Silent.pure (Arm.mk pos bound body)
      exact first.bind fun _ => (Keeps.ifArms others).finish fun _ => Silent.pure _

theorem Keeps.switchArms :
    ∀ alternatives : List Arm, Keeps (switchArms alternatives) fun binding =>
      armsDeclared binding alternatives
  | [] => by
      rw [Analyzer.switchArms]
      exact Silent.pure _
  | .mk pos test body :: others => by
      rw [Analyzer.switchArms, Analyzer.switchArm]
      have first : Keeps _ fun binding => test.declared binding :=
        (Keeps.expr test).finish fun bound =>
          (Silent.blockIn ({ · with inLoop := true }) body).before fun body =>
            Silent.pure (Arm.mk pos bound body)
      exact first.bind fun _ => (Keeps.switchArms others).finish fun _ => Silent.pure _

end

end Analyzer

end Qalam
