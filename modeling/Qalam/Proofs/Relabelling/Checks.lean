/-
# Checks on a relabelled tree

Analysis looks at names, constants and operators, and at what it has itself found out on the way.
What was recorded beside a tree before is written over, and positions end up in faults and in the
bound tree only. So each check that analysis makes ends on a relabelled tree as it does on the tree
itself, as long as different names stay different. The keys of an object literal have to stay
different, too. They are compared by texts that depend on names and, where a key is computed, on its
position.
-/

import Qalam.Proofs.Relabelling.Context
import Qalam.Proofs.Scoping.Trace
import Qalam.Proofs.Structure.Kept
import Qalam.Proofs.Structure.Nodes

namespace Qalam.Relabel

variable {α β γ δ : Type} (change : Relabel) (record : String → Option String → Option String)
  (names : List String)

/-! ## What a relabelling has to respect -/

/-- Two keys of one object literal are compared with the same result before and after a
relabelling. Where they are found to be the same, a fault says so with the text for which it is
taken. -/
structure Apart (first later : Expr) : Prop where
  iff : (change.expr later).keyText = (change.expr first).keyText ↔
    later.keyText = first.keyText
  text : later.keyText = first.keyText → (change.expr later).keyText = change.text later.keyText

/-- What is recorded for a key can be had from what is recorded for the changed one. As a name it
keeps the entity that it has, and its text is exchanged for the text of the changed key. -/
structure Renews (key : Expr) : Prop where
  entity : change.entity key.entity? = key.entity?
  text : record (change.expr key).keyText (some key.keyText) = some (change.expr key).keyText

/-- What a relabelling has to respect in a node. As a name it is among those that are told apart.
The keys of an object literal are told apart, too, where names among them are. -/
structure Suits (node : Node) : Prop where
  named : node.NamedIn names
  keys : ∀ note entries, node = .expr (.object note entries) →
    (∀ entry ∈ entries, (Node.expr entry.key).NamedIn names) →
    (∀ entry ∈ entries, change.Renews record entry.key) ∧
      (entries.map Pair.key).Pairwise change.Apart

/-! ## Analyses -/

/-- From a context with other names a second analysis ends as a first one does: with the image of
its result in the context with other names, or with its fault respelled. The first one declares
none but the given names. -/
structure Mirrors (image : α → β) (first : Analysis α) (second : Analysis β) : Prop where
  run : ∀ context : Analysis.Context, Within names context.scope →
    second (change.context context) =
      ((first context).map fun (value, final) =>
        (image value, change.context final)).mapError change.semanticError
  within : ∀ context : Analysis.Context, Within names context.scope → ∀ value final,
    first context = .ok (value, final) → Within names final.scope

variable {change record names}

@[simp]
theorem tag_moved (e : Expr) : ((change.moved record).expr e).tag = e.tag := by
  rw [Expr.tag, note_expr]
  rfl

theorem moved_withTag (tag : Tag) (e : Expr) :
    (change.moved record).expr (e.withTag tag) = ((change.moved record).expr e).withTag tag := by
  cases e <;> rfl

/-- The text of a key under a relabelling depends on the key and on the changed names and
positions. -/
theorem keyText_moved {e bound : Expr} (same : strip.expr bound = strip.expr e) :
    ((change.moved record).expr bound).keyText = (change.expr e).keyText := by
  have stripped : ∀ (other : Relabel) (x : Expr), other.name = change.name →
      other.pos = change.pos →
      (other.expr x).keyText = ((change.moved record).expr (strip.expr x)).keyText := by
    intro other x spelling positions
    cases x with
    | literal note value => cases value <;> rfl
    | ident note name entity => exact congrFun spelling name
    | _ =>
        simp only [Relabel.expr, Expr.keyText, Expr.pos, Expr.note, Relabel.note, positions]
        rfl
  rw [stripped (change.moved record) bound rfl rfl, same, stripped change e rfl rfl]

/-- A bound entry after the change records the changed key. -/
theorem Renews.pair {key bound : Expr} (renews : change.Renews record key)
    (same : strip.expr bound = strip.expr key) (pos : Position) (value : Expr) :
    (change.moved record).pair (.mk pos bound value (some bound.keyText)) =
      .mk (change.pos pos) ((change.moved record).expr bound) ((change.moved record).expr value)
        (some ((change.moved record).expr bound).keyText) := by
  show Pair.mk _ _ _ (record ((change.moved record).expr bound).keyText (some bound.keyText)) = _
  rw [keyText_moved same, keyText_of_strip same, renews.text]
  rfl

namespace Mirrors

open Analysis (Yields)

variable {image : α → β} {first : Analysis α} {second : Analysis β}

theorem pure {value : α} {value' : β} (same : value' = image value) :
    change.Mirrors names image (Pure.pure value) (Pure.pure value') := by
  subst same
  refine ⟨fun _ _ => rfl, fun context within value final reached => ?_⟩
  cases reached
  exact within

theorem failAt {fault fault' : SemanticFault} (same : fault' = change.fault fault)
    (pos : Position) :
    change.Mirrors names image (Analysis.failAt fault pos)
      (Analysis.failAt fault' (change.pos pos)) := by
  subst same
  exact ⟨fun _ _ => rfl, fun _ _ _ _ reached => nomatch reached⟩

/-- One analysis after another, where something is known about the result of the first. -/
theorem bind_of {next : α → Analysis γ} {next' : β → Analysis δ} {image' : γ → δ}
    {result : α → Prop} (here : change.Mirrors names image first second)
    (known : Yields first result)
    (there : ∀ value, result value →
      change.Mirrors names image' (next value) (next' (image value))) :
    change.Mirrors names image' (first >>= next) (second >>= next') := by
  constructor
  · intro context within
    show Except.bind (second (change.context context)) (fun reached => next' reached.1 reached.2) =
      Except.mapError _ (Except.map _
        (Except.bind (first context) fun reached => next reached.1 reached.2))
    rw [here.run context within]
    cases reached : first context with
    | error error => rfl
    | ok pair =>
        have kept := here.within context within pair.1 pair.2 reached
        exact (there pair.1 (known context pair.1 pair.2 reached)).run pair.2 kept
  · intro context within value final reached
    change Except.bind (first context) (fun reached => next reached.1 reached.2) = _ at reached
    cases middle : first context with
    | error error =>
        rw [middle] at reached
        cases reached
    | ok pair =>
        rw [middle] at reached
        have kept := here.within context within pair.1 pair.2 middle
        exact (there pair.1 (known context pair.1 pair.2 middle)).within pair.2 kept value final
          reached

theorem bind {next : α → Analysis γ} {next' : β → Analysis δ} {image' : γ → δ}
    (here : change.Mirrors names image first second)
    (there : ∀ value, change.Mirrors names image' (next value) (next' (image value))) :
    change.Mirrors names image' (first >>= next) (second >>= next') := by
  have known : Yields first fun _ => True := fun _ _ _ _ => trivial
  exact here.bind_of known fun value _ => there value

/-- An analysis of which only the result is changed. -/
theorem map {next : α → γ} {next' : β → δ} {image' : γ → δ}
    (here : change.Mirrors names image first second)
    (fits : ∀ value, next' (image value) = image' (next value)) :
    change.Mirrors names image' (first >>= fun value => Pure.pure (next value))
      (second >>= fun value => Pure.pure (next' value)) :=
  here.bind fun value => pure (fits value)

/-- An analysis of a part that is present. -/
theorem present (here : change.Mirrors names image first second) :
    change.Mirrors names (Option.map image) (some <$> first) (some <$> second) :=
  here.map fun _ => rfl

/-- A demand that is met or not. -/
theorem demand (refused : Bool) {fault fault' : SemanticFault}
    (same : fault' = change.fault fault) (pos : Position) :
    change.Mirrors names id (if refused then Analysis.failAt fault pos else Pure.pure ())
      (if refused then Analysis.failAt fault' (change.pos pos) else Pure.pure ()) := by
  cases refused with
  | true => exact failAt same pos
  | false => exact pure rfl

theorem get : change.Mirrors names change.context (MonadState.get : Analysis Analysis.Context)
    MonadState.get := by
  refine ⟨fun _ _ => rfl, fun context within value final reached => ?_⟩
  cases reached
  exact within

theorem enter (adjust : Surroundings → Surroundings) :
    change.Mirrors names id (Analysis.enter adjust) (Analysis.enter adjust) := by
  refine ⟨fun _ _ => rfl, fun context within value final reached => ?_⟩
  cases reached
  exact List.forall_mem_cons.mpr ⟨List.forall_mem_nil _, within⟩

theorem exit : change.Mirrors names id Analysis.exit Analysis.exit := by
  constructor
  · intro context within
    show Except.ok ((), (⟨(change.scope context.scope).exit, _⟩ : Analysis.Context)) = _
    rw [scope_exit]
    rfl
  · intro context within value final reached
    cases reached
    exact within.exit

theorem surroundings :
    change.Mirrors names id Analysis.surroundings Analysis.surroundings := by
  refine ⟨fun _ _ => rfl, fun context within value final reached => ?_⟩
  cases reached
  exact within

theorem declare (separates : change.Separates names) (pos : Position) {entity : Entity}
    (known : entity.name ∈ names) :
    change.Mirrors names id (Analysis.declare pos entity)
      (Analysis.declare (change.pos pos) (change.declared entity)) := by
  constructor
  · intro context within
    have size : (change.context context).entities.size = context.entities.size := by
      simp [Relabel.context, Relabel.entities, Entities.size]
    have scopes : (change.context context).scope = change.scope context.scope := rfl
    rw [Scoping.run_declare, Scoping.run_declare, name_declared, size, scopes,
      declare?_scope separates within known]
    cases context.scope.declare? entity.name ⟨context.entities.size⟩ with
    | none => rfl
    | some scope =>
        have added : ((change.context context).entities.alloc (change.declared entity)).2 =
            change.entities (context.entities.alloc entity).2 := by
          simp [Relabel.context, Relabel.entities, Entities.alloc]
        simp only [Option.map_some, added]
        rfl
  · intro context within value final reached
    rw [Scoping.run_declare] at reached
    cases declared : context.scope.declare? entity.name ⟨context.entities.size⟩ with
    | none =>
        rw [declared] at reached
        cases reached
    | some scope =>
        rw [declared] at reached
        cases reached
        exact within.declare? known declared

theorem declareBinding (separates : change.Separates names) {name : Binding} {entity : Entity}
    (known : entity.name ∈ names) :
    change.Mirrors names (change.moved record).binding (Analysis.declareBinding name entity)
      (Analysis.declareBinding (change.binding name) (change.declared entity)) :=
  (declare separates name.pos known).map fun _ => rfl

theorem parameter (separates : change.Separates names) {param : Parameter}
    (known : param.name ∈ names) :
    change.Mirrors names (change.moved record).parameter (Analysis.parameter param)
      (Analysis.parameter (change.parameter param)) := by
  have declared : (Entity.variable param.name false .any).name ∈ names := known
  exact (declare separates param.note.pos declared).map fun _ => rfl

theorem parameters (separates : change.Separates names) : ∀ params : List Parameter,
    (∀ node ∈ params.map Node.parameter, change.Suits record names node) →
    change.Mirrors names (List.map (change.moved record).parameter) (Analysis.parameters params)
      (Analysis.parameters (params.map change.parameter))
  | [], _ => pure rfl
  | param :: others, suits => by
      rw [List.map_cons, List.forall_mem_cons] at suits
      rw [List.map_cons, Analysis.parameters, Analysis.parameters]
      apply (parameter separates (suits.1.named _ rfl)).bind
      intro bound
      exact (parameters separates others suits.2).map fun _ => rfl

theorem resolve (separates : change.Separates names) {name : String} (known : name ∈ names)
    (pos : Position) :
    change.Mirrors names id (Analysis.resolve name pos)
      (Analysis.resolve (change.name name) (change.pos pos)) := by
  constructor
  · intro context within
    have scopes : (change.context context).scope = change.scope context.scope := rfl
    have tables : (change.context context).entities = change.entities context.entities := rfl
    rw [Scoping.run_resolve, Scoping.run_resolve, scopes, tables,
      resolve?_scope separates within known]
    cases context.scope.resolve? name with
    | none => rfl
    | some id =>
        dsimp only
        rw [get?_entities]
        cases context.entities.get? id with
        | none => rfl
        | some entity =>
            rw [Option.map_some, Option.map_some, tag_declared]
            rfl
  · intro context within value final reached
    rw [Scoping.run_resolve] at reached
    split at reached
    · cases reached
      exact within
    · cases reached

theorem require (requirement : Requirement) (e : Expr) :
    change.Mirrors names id (Analysis.require requirement e)
      (Analysis.require requirement ((change.moved record).expr e)) := by
  rw [Analysis.require, Analysis.require, tag_moved, pos_expr]
  exact demand _ rfl _

theorem requireCallable (e : Expr) :
    change.Mirrors names id (Analysis.requireCallable e)
      (Analysis.requireCallable ((change.moved record).expr e)) := by
  rw [Analysis.requireCallable, Analysis.requireCallable, tag_moved, pos_expr]
  exact demand _ rfl _

theorem requireClassReference (e : Expr) :
    change.Mirrors names id (Analysis.requireClassReference e)
      (Analysis.requireClassReference ((change.moved record).expr e)) := by
  rw [Analysis.requireClassReference, Analysis.requireClassReference, tag_moved, pos_expr]
  exact demand _ rfl _

/-- The target of an assignment is refused by its entity, of which only the name is changed. -/
theorem requireMutable (e : Expr) :
    change.Mirrors names id (Analysis.requireMutable e)
      (Analysis.requireMutable ((change.moved record).expr e)) := by
  cases e with
  | ident note name entity =>
      cases entity with
      | none => exact pure rfl
      | some id =>
          show change.Mirrors names _ _
            (Analysis.requireMutable
              (.ident ((change.moved record).note note) (change.name name) (some id)))
          rw [Analysis.requireMutable, Analysis.requireMutable]
          apply get.bind
          intro context
          have found : (change.context context).entities.get? id =
              (context.entities.get? id).map change.declared :=
            get?_entities context.entities id
          rw [found]
          cases context.entities.get? id with
          | none => exact pure rfl
          | some entity =>
              show change.Mirrors names _ _ (if (change.declared entity).isConstant then _ else _)
              rw [isConstant_declared]
              have said : SemanticFault.assignToConstant (change.declared entity).name =
                  change.fault (.assignToConstant entity.name) :=
                congrArg SemanticFault.assignToConstant (name_declared change entity)
              exact demand entity.isConstant said note.pos
  | _ => exact pure rfl

theorem retype (tag : Tag) (e : Expr) :
    change.Mirrors names id (Analysis.retype tag e)
      (Analysis.retype tag ((change.moved record).expr e)) := by
  cases e with
  | ident note name entity =>
      cases entity with
      | none => exact pure rfl
      | some id =>
          constructor
          · intro context within
            show Except.ok ((), (⟨_, (change.entities _).retype id tag⟩ : Analysis.Context)) = _
            rw [retype_entities]
            rfl
          · intro context within value final reached
            cases reached
            exact within
  | _ => exact pure rfl

theorem requireLoop (pos : Position) :
    change.Mirrors names id (Analysis.requireLoop pos) (Analysis.requireLoop (change.pos pos)) :=
  surroundings.bind fun around => demand (!around.inLoop) rfl _

theorem requireFunction (pos : Position) :
    change.Mirrors names id (Analysis.requireFunction pos)
      (Analysis.requireFunction (change.pos pos)) :=
  surroundings.bind fun around => demand around.inFunction.isNone rfl _

theorem requireClass (pos : Position) :
    change.Mirrors names id (Analysis.requireClass pos) (Analysis.requireClass (change.pos pos)) :=
  surroundings.bind fun around => demand around.inClass.isNone rfl _

theorem binaryTag (op : BinaryOp) (left right : Expr) :
    change.Mirrors names id (Analysis.binaryTag op left right)
      (Analysis.binaryTag op ((change.moved record).expr left)
        ((change.moved record).expr right)) := by
  have numbers : change.Mirrors names id
      (do Analysis.require .number left; Analysis.require .number right; Pure.pure .number)
      (do
        Analysis.require .number ((change.moved record).expr left)
        Analysis.require .number ((change.moved record).expr right)
        Pure.pure Tag.number) :=
    (require .number left).bind fun _ => (require .number right).map fun _ => rfl
  cases op with
  | add =>
      rw [Analysis.binaryTag, Analysis.binaryTag, tag_moved, tag_moved]
      exact pure rfl
  | addAssign =>
      rw [Analysis.binaryTag, Analysis.binaryTag, tag_moved, tag_moved]
      exact (requireMutable left).map fun _ => rfl
  | subAssign => exact (requireMutable left).bind fun _ => numbers
  | sub | mul | div | mod | pow => exact numbers
  | _ => exact pure rfl

theorem unaryTag (op : UnaryOp) (operand : Expr) :
    change.Mirrors names id (Analysis.unaryTag op operand)
      (Analysis.unaryTag op ((change.moved record).expr operand)) := by
  cases op with
  | neg =>
      rw [Analysis.unaryTag, Analysis.unaryTag, tag_moved]
      exact (require .number operand).map fun _ => rfl
  | not => exact (require .boolean operand).map fun _ => rfl
  | increment | decrement =>
      rw [Analysis.unaryTag, Analysis.unaryTag, tag_moved]
      exact (requireMutable operand).bind fun _ => (require .number operand).map fun _ => rfl

/-- The check on a key, after keys that are compared with it as before. -/
theorem distinctKey {earlier : List Expr} {entry bound : Pair}
    (same : strip.expr bound.key = strip.expr entry.key)
    (apart : ∀ first ∈ earlier, change.Apart first entry.key) :
    change.Mirrors names (fun _ => (change.expr entry.key).keyText ::
        earlier.map fun first => (change.expr first).keyText)
      (Analysis.distinctKey (earlier.map Expr.keyText) bound)
      (Analysis.distinctKey (earlier.map fun first => (change.expr first).keyText)
        ((change.moved record).pair bound)) := by
  obtain ⟨pos, key, value, canonical⟩ := bound
  have text : key.keyText = entry.key.keyText := keyText_of_strip same
  have text' : ((change.moved record).expr key).keyText = (change.expr entry.key).keyText :=
    keyText_moved same
  rw [Relabel.pair, Analysis.distinctKey, Analysis.distinctKey, text, text']
  by_cases known : entry.key.keyText ∈ earlier.map Expr.keyText
  · obtain ⟨first, mem, equal⟩ := List.mem_map.mp known
    have known' : (change.expr entry.key).keyText ∈
        earlier.map fun first => (change.expr first).keyText :=
      List.mem_map.mpr ⟨first, mem, ((apart first mem).iff.mpr equal.symm).symm⟩
    rw [if_pos known, if_pos known', (apart first mem).text equal.symm]
    exact failAt rfl _
  · have fresh : (change.expr entry.key).keyText ∉
        earlier.map fun first => (change.expr first).keyText := by
      intro listed
      obtain ⟨first, mem, equal⟩ := List.mem_map.mp listed
      exact known (List.mem_map.mpr ⟨first, mem, ((apart first mem).iff.mp equal.symm).symm⟩)
    rw [if_neg known, if_neg fresh]
    exact pure rfl

end Mirrors

end Qalam.Relabel
