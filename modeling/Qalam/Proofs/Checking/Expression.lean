/-
# Analysis of expressions follows the rules

Analysis of an expression only reads its context. If it succeeds, every part of the bound
expression is accepted and every part of the raw one can be evaluated on its own; if it fails,
some part of the raw expression breaks the rule that the fault names. Both halves are shown in
one pass over the forms of expressions, each form being a sequence of smaller readings.
-/

import Qalam.Proofs.Checking.Rules
import Qalam.Proofs.Scoping.Trace

namespace Qalam.Checking

open Analysis (Context)

/-- An expression can be evaluated at a place. -/
def Known (context : Context) (x : Expr) : Prop := ∃ bound, Evaluates context x bound

/-- An action of analysis only reads its context. Its result is good, or its fault is that of one
of some expressions. -/
def Reports {α : Type} (context : Context) (parts : List Expr) (action : Analysis α)
    (good : α → Prop) : Prop :=
  match action context with
  | .ok (value, final) => final = context ∧ good value
  | .error error => ∃ x ∈ parts, Refuses context x error

/-- Demand that a bound expression keeps a contract. -/
def demand (contract : Contract) (bound : Expr) : Analysis Unit := do
  if !contract.accepts bound.tag then
    Analysis.failAt (contract.fault bound.tag) bound.pos

theorem run_demand (contract : Contract) (bound : Expr) (context : Context) :
    demand contract bound context = if contract.accepts bound.tag then .ok ((), context)
      else .error ⟨contract.fault bound.tag, bound.pos⟩ := by
  rw [demand]
  cases contract.accepts bound.tag <;> rfl

/-- The check on what is to be changed refuses the names of constants and nothing else. -/
theorem run_requireMutable (context : Context) (bound : Expr) :
    (Analysis.requireMutable bound context = .ok ((), context) ∧ Mutable context bound) ∨
      ∃ note name id entity, bound = .ident note name (some id) ∧
        context.entities.get? id = some entity ∧ entity.isConstant = true ∧
        Analysis.requireMutable bound context =
          .error ⟨.assignToConstant entity.name, bound.pos⟩ := by
  unfold Analysis.requireMutable
  split
  · rename_i note name id
    simp only [bind, StateT.bind, get, getThe, MonadStateOf.get, StateT.get, Except.bind, pure,
      Except.pure]
    cases known : context.entities.get? id with
    | none =>
        refine .inl ⟨rfl, ?_⟩
        rintro _ _ _ entity ⟨⟩ found
        rw [known] at found
        cases found
    | some entity =>
        cases constant : entity.isConstant with
        | true =>
            refine .inr ⟨note, name, id, entity, rfl, known, constant, ?_⟩
            simp only [constant, if_true]
            rfl
        | false =>
            refine .inl ⟨?_, ?_⟩
            · simp only [constant, Bool.false_eq_true, if_false]
              rfl
            · rintro _ _ _ other ⟨⟩ found
              rw [known] at found
              cases found
              exact constant
  · rename_i other
    refine .inl ⟨rfl, ?_⟩
    rintro note name id entity rfl
    exact absurd rfl (other note name id)

namespace Reports

variable {α β : Type} {context : Context} {parts : List Expr}

theorem pure {value : α} {good : α → Prop} (holds : good value) :
    Reports context parts (Pure.pure value) good :=
  ⟨rfl, holds⟩

/-- Two readings one after the other. The second one knows what the first one found. -/
theorem bind {action : Analysis α} {next : α → Analysis β} {inner : List Expr} {middle : α → Prop}
    {good : β → Prop} (here : Reports context inner action middle) (among : inner ⊆ parts)
    (there : ∀ value, action context = .ok (value, context) → middle value →
      Reports context parts (next value) good) :
    Reports context parts (action >>= next) good := by
  unfold Reports at here
  change match Except.bind (action context) fun reached => next reached.1 reached.2 with
    | .ok (value, final) => final = context ∧ good value
    | .error error => ∃ x ∈ parts, Refuses context x error
  cases reached : action context with
  | error error =>
      rw [reached] at here
      obtain ⟨x, mem, refused⟩ := here
      exact ⟨x, among mem, refused⟩
  | ok pair =>
      obtain ⟨value, final⟩ := pair
      rw [reached] at here
      obtain ⟨rfl, holds⟩ := here
      exact there value reached holds

/-- A reading of which only the result is changed. -/
theorem map {action : Analysis α} {change : α → β} {inner : List Expr} {middle : α → Prop}
    {good : β → Prop} (here : Reports context inner action middle) (among : inner ⊆ parts)
    (fits : ∀ value, action context = .ok (value, context) → middle value → good (change value)) :
    Reports context parts (action >>= fun value => Pure.pure (change value)) good :=
  here.bind among fun value found holds => pure (fits value found holds)

/-- A check on an operand that a contract binds. -/
theorem demands {x y bound : Expr} (contract : Contract) (here : x ∈ parts)
    (demanded : (contract, y) ∈ x.contracts (tagIn context))
    (evaluates : Evaluates context y bound) (same : bound.pos = y.pos) :
    Reports context parts (demand contract bound) fun _ => contract.accepts bound.tag = true := by
  rw [Reports, run_demand]
  cases kept : contract.accepts bound.tag with
  | true => exact ⟨rfl, rfl⟩
  | false =>
      refine ⟨x, here, ?_⟩
      rw [same]
      exact .contract demanded evaluates kept

/-- A check on the operand that an expression stores a value in. -/
theorem stores {x y bound : Expr} (here : x ∈ parts) (stores : x.stored? = some y)
    (evaluates : Evaluates context y bound) (same : bound.pos = y.pos) :
    Reports context parts (Analysis.requireMutable bound) fun _ => Mutable context bound := by
  rw [Reports]
  rcases run_requireMutable context bound with ⟨runs, changes⟩ | ⟨note, name, id, entity, rfl,
    known, constant, runs⟩
  · rw [runs]
    exact ⟨rfl, changes⟩
  · rw [runs]
    refine ⟨x, here, ?_⟩
    rw [same]
    exact .constant stores evaluates known constant

/-- A check on the key of an entry, after entries whose keys were seen. -/
theorem distinct {note : Note} {before later : List Pair} {pos : Position}
    {key value boundKey boundValue : Expr} {canonical canonical' : Option String}
    {seen : List String}
    (here : .object note (before ++ .mk pos key value canonical :: later) ∈ parts)
    (recorded : ∀ text ∈ seen, ∃ first ∈ before.map Pair.key, first.keyText = text)
    (same : boundKey.keyText = key.keyText) :
    Reports context parts (Analysis.distinctKey seen (.mk pos boundKey boundValue canonical'))
      fun longer => longer = key.keyText :: seen := by
  rw [Analysis.distinctKey, same]
  split
  · rename_i repeated
    obtain ⟨first, earlier, equal⟩ := recorded _ repeated
    exact ⟨_, here, .duplicate earlier equal⟩
  · exact pure rfl

/-- The check that a class is around an expression. -/
theorem insideClass {note : Note} {field : Field} (here : .this note field ∈ parts) :
    Reports context parts (Analysis.requireClass note.pos) fun _ => True := by
  change Reports context parts (if _ then _ else _) _
  cases inside : context.scope.surroundings.inClass with
  | some id => exact pure trivial
  | none => exact ⟨_, here, .outsideClass (by rw [inside]; rfl)⟩

/-- A name is found with the tag that its entity has at this place. -/
theorem resolves {note : Note} {name : String} {entity : Option EntityId}
    (here : .ident note name entity ∈ parts) :
    Reports context parts (Analysis.resolve name note.pos) fun found =>
      context.scope.resolve? name = some found.1 ∧
        found.2 = ((context.entities.get? found.1).map Entity.tag).getD .any := by
  rw [Reports, Scoping.run_resolve]
  cases known : context.scope.resolve? name with
  | some id => exact ⟨rfl, rfl, rfl⟩
  | none => exact ⟨_, here, .undeclared known⟩

end Reports

/-! ## Operators -/

section Operators

variable {context : Context} {left right boundLeft boundRight : Expr}

/-- The checks and the tag of a binary expression with bound operands. -/
theorem reports_binaryTag (note : Note) (op : BinaryOp) (first : Evaluates context left boundLeft)
    (second : Evaluates context right boundRight) (samePos : boundLeft.pos = left.pos)
    (samePos' : boundRight.pos = right.pos) :
    Reports context [.binary note op left right] (Analysis.binaryTag op boundLeft boundRight)
      fun tag => tag = op.tag boundLeft.tag boundRight.tag ∧
        (op.isArithmetic = true → boundLeft.tag.isNumeric = true ∧
          boundRight.tag.isNumeric = true) ∧
        (op.isCompoundAssignment = true → Mutable context boundLeft) := by
  have here : (.binary note op left right) ∈ [Expr.binary note op left right] :=
    List.mem_singleton_self _
  have numberLeft (arithmetic : op.isArithmetic = true) :=
    Reports.demands (.meets .number) here (by simp [Expr.contracts, arithmetic])
      first samePos
  have numberRight (arithmetic : op.isArithmetic = true) :=
    Reports.demands (.meets .number) here (by simp [Expr.contracts, arithmetic])
      second samePos'
  have changed (compound : op.isCompoundAssignment = true) :=
    Reports.stores here (by simp [Expr.stored?, compound]) first samePos
  cases op with
  | sub | mul | div | mod | pow =>
      refine (numberLeft rfl).bind (List.Subset.refl _) fun _ _ fine => ?_
      refine (numberRight rfl).map (List.Subset.refl _) fun _ _ fine' => ?_
      exact ⟨rfl, fun _ => ⟨fine, fine'⟩, nofun⟩
  | addAssign =>
      refine (changed rfl).map (List.Subset.refl _) fun _ _ changes => ?_
      exact ⟨rfl, nofun, fun _ => changes⟩
  | subAssign =>
      refine (changed rfl).bind (List.Subset.refl _) fun _ _ changes => ?_
      refine (numberLeft rfl).bind (List.Subset.refl _) fun _ _ fine => ?_
      refine (numberRight rfl).map (List.Subset.refl _) fun _ _ fine' => ?_
      exact ⟨rfl, fun _ => ⟨fine, fine'⟩, fun _ => changes⟩
  | add | eq | ne | lt | le | gt | ge | and | or =>
      exact Reports.pure ⟨rfl, nofun, nofun⟩

/-- The checks and the tag of a unary expression with a bound operand. -/
theorem reports_unaryTag (note : Note) (op : UnaryOp) (side : Fixity)
    (first : Evaluates context left boundLeft) (samePos : boundLeft.pos = left.pos) :
    Reports context [.unary note op side left] (Analysis.unaryTag op boundLeft) fun tag =>
      tag = op.tag boundLeft.tag ∧ op.requirement.accepts boundLeft.tag = true ∧
        (op.isMutation = true → Mutable context boundLeft) := by
  have here : (.unary note op side left) ∈ [Expr.unary note op side left] :=
    List.mem_singleton_self _
  have fits := Reports.demands (.meets op.requirement) here
    (by simp [Expr.contracts]) first samePos
  have changed (mutation : op.isMutation = true) :=
    Reports.stores here (by simp [Expr.stored?, mutation]) first samePos
  cases op with
  | increment | decrement =>
      refine (changed rfl).bind (List.Subset.refl _) fun _ _ changes => ?_
      exact fits.map (List.Subset.refl _) fun _ _ fine => ⟨rfl, fine, fun _ => changes⟩
  | neg | not => exact fits.map (List.Subset.refl _) fun _ _ fine => ⟨rfl, fine, nofun⟩

end Operators

/-! ## Expressions -/

/-- What analysis makes of an expression at a place. -/
structure Judged (context : Context) (e bound : Expr) : Prop where
  accepted : ∀ x ∈ Parts.expr bound, Accepted context x
  inside : ∀ x ∈ (Parts.expr e).tail, Known context x
  pos : bound.pos = e.pos
  key : bound.keyText = e.keyText
  name : Parts.isName bound = Parts.isName e

/-- An expression other than a name, with what is inside it, and what is built in its place: the
same form with other operands, and with the tag that follows from them. -/
structure Rebuilt (tag : Tag) (e : Expr) (inner : List Expr) (bound : Expr) (inner' : List Expr) :
    Prop where
  rawParts : Parts.expr e = e :: inner
  boundParts : Parts.expr bound = bound :: inner'
  note : bound.note = { e.note with tag := some tag }
  rule : bound.ruleTag = some tag
  key : bound.keyText = e.keyText
  rawForm : Parts.isName e = false
  boundForm : Parts.isName bound = false

theorem parts_eq_cons (e : Expr) : Parts.expr e = e :: (Parts.expr e).tail := by
  cases e <;> rfl

namespace Judged

variable {context : Context} {e bound : Expr}

/-- All parts of an expression that was evaluated can be evaluated. -/
theorem known (judged : Judged context e bound) (evaluates : Evaluates context e bound) :
    ∀ x ∈ Parts.expr e, Known context x := by
  rw [parts_eq_cons, List.forall_mem_cons]
  exact ⟨⟨bound, evaluates⟩, judged.inside⟩

/-- An expression other than a name, from what is known about its operands. -/
theorem of_operands {tag : Tag} {inner inner' : List Expr}
    (rebuilt : Rebuilt tag e inner bound inner')
    (contracts : ∀ contract y, (contract, y) ∈ bound.contracts Expr.tag →
      contract.accepts y.tag = true)
    (stored : ∀ y, bound.stored? = some y → Mutable context y)
    (fields : ∀ field ∈ bound.fields, field.note.tag = some .any)
    (accepted : ∀ x ∈ inner', Accepted context x) (known : ∀ x ∈ inner, Known context x) :
    Judged context e bound := by
  obtain ⟨rawParts, boundParts, same, rule, key, name, name'⟩ := rebuilt
  refine ⟨?_, ?_, ?_, key, name'.trans name.symm⟩
  · rw [boundParts, List.forall_mem_cons]
    refine ⟨⟨?_, ?_, contracts, stored, fields⟩, accepted⟩
    · intro other derived
      rw [same]
      exact rule.symm.trans derived
    · rintro note spelling entity rfl
      cases name'
  · rw [rawParts]
    exact known
  · rw [Expr.pos, same]
    rfl

end Judged

theorem accepts_pair {first second : Expr} (contract contract' : Contract)
    (here : contract.accepts first.tag = true) (there : contract'.accepts second.tag = true) :
    ∀ k y, (k, y) ∈ [(contract, first), (contract', second)] → k.accepts y.tag = true := by
  intro k y mem
  simp only [List.mem_cons, Prod.mk.injEq, List.not_mem_nil, or_false] at mem
  rcases mem with ⟨rfl, rfl⟩ | ⟨rfl, rfl⟩
  · exact here
  · exact there

theorem accepts_singleton {first : Expr} (contract : Contract)
    (here : contract.accepts first.tag = true) :
    ∀ k y, (k, y) ∈ [(contract, first)] → k.accepts y.tag = true := by
  intro k y mem
  simp only [List.mem_singleton, Prod.mk.injEq] at mem
  rw [mem.1, mem.2]
  exact here

mutual

theorem reports_expr (context : Context) : ∀ e : Expr,
    Reports context (Parts.expr e) (Analysis.expr e) (Judged context e)
  | .literal note value => by
      rw [Analysis.expr]
      refine Reports.pure (.of_operands ⟨rfl, rfl, rfl, rfl, ?_, rfl, rfl⟩ nofun nofun nofun
        nofun nofun)
      cases value <;> rfl
  | .ident note name entity => by
      rw [Analysis.expr]
      refine (Reports.resolves (List.mem_singleton_self _)).map (List.Subset.refl _) ?_
      rintro ⟨id, tag⟩ - ⟨resolved, current⟩
      refine ⟨?_, nofun, rfl, rfl, rfl⟩
      rw [Parts.expr, List.forall_mem_singleton]
      refine ⟨nofun, ?_, nofun, nofun, nofun⟩
      rintro _ _ _ ⟨⟩
      exact ⟨id, rfl, resolved, congrArg some current⟩
  | .call note callee args => by
      rw [Analysis.expr]
      refine (reports_expr context callee).bind (by simp [Parts.expr]) fun bound found judged => ?_
      refine (Reports.demands .callable (Parts.mem_self _) (by simp [Expr.contracts])
        found judged.pos).bind (List.Subset.refl _) fun _ _ callable => ?_
      refine (reports_exprs context args).map (by simp [Parts.expr]) fun others _ rest => ?_
      exact .of_operands ⟨rfl, rfl, rfl, rfl, rfl, rfl, rfl⟩
        (accepts_singleton .callable callable) nofun nofun
        (List.forall_mem_append.mpr ⟨judged.accepted, rest.1⟩)
        (List.forall_mem_append.mpr ⟨judged.known found, rest.2⟩)
  | .this note field => by
      rw [Analysis.expr]
      refine (Reports.insideClass (List.mem_singleton_self _)).map (List.Subset.refl _) ?_
      intro _ _ _
      refine .of_operands ⟨rfl, rfl, rfl, rfl, rfl, rfl, rfl⟩ nofun nofun ?_ nofun nofun
      simp [Expr.fields, Analysis.field]
  | .new note target args => by
      rw [Analysis.expr]
      refine (reports_expr context target).bind (by simp [Parts.expr]) fun bound found judged => ?_
      refine (Reports.demands .classReference (Parts.mem_self _)
        (by simp [Expr.contracts]) found judged.pos).bind (List.Subset.refl _) fun _ _ fine => ?_
      refine (reports_exprs context args).map (by simp [Parts.expr]) fun others _ rest => ?_
      exact .of_operands ⟨rfl, rfl, rfl, rfl, rfl, rfl, rfl⟩
        (accepts_singleton .classReference fine) nofun nofun
        (List.forall_mem_append.mpr ⟨judged.accepted, rest.1⟩)
        (List.forall_mem_append.mpr ⟨judged.known found, rest.2⟩)
  | .typeOf note operand => by
      rw [Analysis.expr]
      refine (reports_expr context operand).map (by simp [Parts.expr]) fun bound found judged => ?_
      exact .of_operands ⟨rfl, rfl, rfl, rfl, rfl, rfl, rfl⟩ nofun nofun nofun judged.accepted
        (judged.known found)
  | .ternary note condition yes no => by
      rw [Analysis.expr]
      refine (reports_expr context condition).bind (by simp [Parts.expr]) fun test found first => ?_
      refine (Reports.demands (.meets .boolean) (Parts.mem_self _)
        (by simp [Expr.contracts]) found first.pos).bind (List.Subset.refl _) fun _ _ fine => ?_
      refine (reports_expr context yes).bind (fun x mem => by simp [Parts.expr, mem])
        fun left found' second => ?_
      refine (reports_expr context no).map (fun x mem => by simp [Parts.expr, mem])
        fun right found'' third => ?_
      refine .of_operands ⟨rfl, rfl, rfl, rfl, rfl, rfl, rfl⟩
        (accepts_singleton (.meets .boolean) fine) nofun nofun ?_ ?_
      · simp only [List.forall_mem_append]
        exact ⟨first.accepted, second.accepted, third.accepted⟩
      · simp only [List.forall_mem_append]
        exact ⟨first.known found, second.known found', third.known found''⟩
  | .binary note op left right => by
      rw [Analysis.expr]
      refine (reports_expr context left).bind (by simp [Parts.expr]) fun boundLeft found first => ?_
      refine (reports_expr context right).bind (by simp [Parts.expr])
        fun boundRight found' second => ?_
      refine (reports_binaryTag note op found found' first.pos second.pos).map
        (by simp [Parts.expr]) ?_
      rintro _ _ ⟨rfl, numbers, changes⟩
      refine .of_operands ⟨rfl, rfl, rfl, rfl, rfl, rfl, rfl⟩ ?_ ?_ nofun
        (List.forall_mem_append.mpr ⟨first.accepted, second.accepted⟩)
        (List.forall_mem_append.mpr ⟨first.known found, second.known found'⟩)
      · rw [Expr.contracts]
        split
        · rename_i arithmetic
          exact accepts_pair (.meets .number) (.meets .number)
            (numbers arithmetic).1 (numbers arithmetic).2
        · exact nofun
      · intro y stores
        rw [Expr.stored?, Option.ite_none_right_eq_some, Option.some.injEq] at stores
        rw [← stores.2]
        exact changes stores.1
  | .unary note op side operand => by
      rw [Analysis.expr]
      refine (reports_expr context operand).bind (by simp [Parts.expr]) fun bound found judged => ?_
      refine (reports_unaryTag note op side found judged.pos).map (by simp [Parts.expr]) ?_
      rintro _ _ ⟨rfl, fine, changes⟩
      refine .of_operands ⟨rfl, rfl, rfl, rfl, rfl, rfl, rfl⟩
        (accepts_singleton (.meets _) fine) ?_ nofun judged.accepted (judged.known found)
      intro y stores
      rw [Expr.stored?, Option.ite_none_right_eq_some, Option.some.injEq] at stores
      rw [← stores.2]
      exact changes stores.1
  | .array note elements => by
      rw [Analysis.expr]
      refine (reports_exprs context elements).map (by simp [Parts.expr]) fun others _ rest => ?_
      exact .of_operands ⟨rfl, rfl, rfl, rfl, rfl, rfl, rfl⟩ nofun nofun nofun rest.1 rest.2
  | .object note entries => by
      rw [Analysis.expr]
      refine (reports_pairs context note [] [] nofun entries).map (List.Subset.refl _)
        fun bound _ rest => ?_
      refine .of_operands ⟨rfl, rfl, rfl, rfl, rfl, rfl, rfl⟩ nofun nofun ?_ rest.1 rest.2.1
      intro field mem
      obtain ⟨entry, listed, plain⟩ := List.mem_filterMap.mp mem
      exact rest.2.2 entry listed field plain
  | .member note base index => by
      rw [Analysis.expr]
      refine (reports_expr context base).bind (by simp [Parts.expr]) fun boundBase found first => ?_
      refine (Reports.demands (.meets .arrayOrObject) (Parts.mem_self _)
        (by simp [Expr.contracts]) found first.pos).bind (List.Subset.refl _) fun _ _ fine => ?_
      refine (reports_expr context index).bind (by simp [Parts.expr])
        fun boundIndex found' second => ?_
      have accepted := List.forall_mem_append.mpr ⟨first.accepted, second.accepted⟩
      have known := List.forall_mem_append.mpr ⟨first.known found, second.known found'⟩
      dsimp only
      -- Only an index into an array has to be an integer.
      split
      · rename_i isArray
        refine (Reports.demands (.meets .integer) (Parts.mem_self _)
          (by simp [Expr.contracts, tagIn_eq found, isArray]) found' second.pos).map
            (List.Subset.refl _) fun _ _ whole => ?_
        refine .of_operands ⟨rfl, rfl, rfl, rfl, rfl, rfl, rfl⟩ ?_ nofun nofun accepted known
        rw [Expr.contracts, if_pos isArray]
        exact accepts_pair (.meets .arrayOrObject) (.meets .integer)
          fine whole
      · rename_i other
        refine Reports.pure
          (.of_operands ⟨rfl, rfl, rfl, rfl, rfl, rfl, rfl⟩ ?_ nofun nofun accepted known)
        rw [Expr.contracts, if_neg other]
        exact accepts_singleton (.meets .arrayOrObject) fine
  | .property note base field => by
      rw [Analysis.expr]
      refine (reports_expr context base).bind (by simp [Parts.expr]) fun bound found judged => ?_
      refine (Reports.demands (.meets .object) (Parts.mem_self _)
        (by simp [Expr.contracts]) found judged.pos).map (List.Subset.refl _) fun _ _ fine => ?_
      refine .of_operands ⟨rfl, rfl, rfl, rfl, rfl, rfl, rfl⟩
        (accepts_singleton (.meets .object) fine) nofun ?_ judged.accepted (judged.known found)
      simp [Expr.fields, Analysis.field]

theorem reports_exprs (context : Context) : ∀ es : List Expr,
    Reports context (Parts.exprs es) (Analysis.exprs es) fun bound =>
      (∀ x ∈ Parts.exprs bound, Accepted context x) ∧ ∀ x ∈ Parts.exprs es, Known context x
  | [] => Reports.pure ⟨nofun, nofun⟩
  | e :: others => by
      rw [Analysis.exprs]
      refine (reports_expr context e).bind (by simp [Parts.exprs]) fun bound found judged => ?_
      refine (reports_exprs context others).map (by simp [Parts.exprs]) fun rest _ inside => ?_
      simp only [Parts.exprs, List.forall_mem_append]
      exact ⟨⟨judged.accepted, inside.1⟩, judged.known found, inside.2⟩

theorem reports_pair (context : Context) : ∀ entry : Pair,
    Reports context (Parts.pair entry) (Analysis.pair entry) fun bound =>
      (∀ x ∈ Parts.pair bound, Accepted context x) ∧ (∀ x ∈ Parts.pair entry, Known context x) ∧
        (∀ field, bound.plainKey? = some field → field.note.tag = some .any) ∧
        ∃ boundKey boundValue text, bound = .mk entry.pos boundKey boundValue text ∧
          boundKey.keyText = entry.key.keyText
  | .mk pos key value canonical => by
      by_cases plain : Parts.isName key = true
      · rw [Parts.pair, if_pos plain]
        cases key with
        | ident note name entity =>
            rw [Analysis.pair, pure_bind]
            refine (reports_expr context value).map (List.Subset.refl _)
              fun bound found judged => ?_
            rw [Parts.pair, Parts.isName, if_pos rfl]
            refine ⟨judged.accepted, judged.known found, ?_, _, _, _, rfl, rfl⟩
            rintro _ ⟨⟩
            rfl
        | _ => cases plain
      · rw [Parts.pair, if_neg plain, Analysis.pair]
        · refine (reports_expr context key).bind (by simp) fun boundKey found first => ?_
          refine (reports_expr context value).map (by simp) fun boundValue found' second => ?_
          have other : Parts.isName boundKey ≠ true := by rwa [first.name]
          rw [Parts.pair, if_neg other]
          simp only [List.forall_mem_append]
          refine ⟨⟨first.accepted, second.accepted⟩, ⟨first.known found, second.known found'⟩, ?_,
            _, _, _, rfl, first.key⟩
          cases boundKey with
          | ident => exact absurd rfl other
          | _ => exact nofun
        · rintro note name entity rfl
          exact plain rfl

theorem reports_pairs (context : Context) (note : Note) : ∀ (before : List Pair)
    (seen : List String), (∀ key ∈ seen, ∃ first ∈ before.map Pair.key, first.keyText = key) →
    ∀ entries : List Pair,
    Reports context (.object note (before ++ entries) :: Parts.pairs entries)
      (Analysis.pairs seen entries) fun bound =>
        (∀ x ∈ Parts.pairs bound, Accepted context x) ∧
          (∀ x ∈ Parts.pairs entries, Known context x) ∧
          ∀ entry ∈ bound, ∀ field, entry.plainKey? = some field → field.note.tag = some .any
  | before, seen, recorded, [] => Reports.pure ⟨nofun, nofun, nofun⟩
  | before, seen, recorded, .mk pos key value canonical :: others => by
      rw [Analysis.pairs]
      refine (reports_pair context (.mk pos key value canonical)).bind
        (fun x mem => by simp [Parts.pairs, mem]) ?_
      rintro _ _ ⟨accepted, known, fields, boundKey, boundValue, text, rfl, same⟩
      refine (Reports.distinct List.mem_cons_self recorded same).bind (List.Subset.refl _) ?_
      rintro _ _ rfl
      -- The entry moves to those whose keys were seen, so that a repeated key has a first one.
      have further := reports_pairs context note (before ++ [.mk pos key value canonical])
        (key.keyText :: seen) ?_ others
      · rw [List.append_assoc, List.singleton_append] at further
        refine further.map ?_ fun rest _ inside => ?_
        · simp [Parts.pairs]
        · simp only [Parts.pairs, List.forall_mem_append, List.forall_mem_cons]
          exact ⟨⟨accepted, inside.1⟩, ⟨known, inside.2.1⟩, fields, inside.2.2⟩
      · rw [List.forall_mem_cons]
        refine ⟨⟨key, by simp [Pair.key], rfl⟩, fun other mem => ?_⟩
        obtain ⟨first, earlier, equal⟩ := recorded other mem
        refine ⟨first, ?_, equal⟩
        rw [List.map_append]
        exact List.mem_append_left _ earlier

end

/-- What analysis makes of an expression follows the rules. -/
theorem Evaluates.judged {context : Context} {e bound : Expr}
    (evaluates : Evaluates context e bound) : Judged context e bound := by
  have reports := reports_expr context e
  rw [Reports, evaluates] at reports
  exact reports.2

end Qalam.Checking
