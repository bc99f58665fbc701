/-
# Binding a relabelled tree

A relabelled tree is bound like the tree itself, with the names and positions of the result changed.
Entities get the same numbers, and all tags are the same. The induction follows the walk of analysis
over the tree; what it carries along are the names that are declared so far.
-/

import Qalam.Proofs.Relabelling.Checks

namespace Qalam

namespace Nodes

theorem mem_self (e : Expr) : .expr e ∈ expr e := by
  cases e <;> simp [expr]

/-- The keys of an object literal are nodes. -/
theorem key_mem_pairs {entry : Pair} {entries : List Pair} (mem : entry ∈ entries) :
    .expr entry.key ∈ pairs entries := by
  induction entries with
  | nil => cases mem
  | cons first others ih =>
      rw [pairs, List.mem_append]
      rcases List.mem_cons.mp mem with rfl | later
      · cases entry with
        | mk pos key value canonical =>
            rw [pair]
            exact .inl (List.mem_cons_of_mem _ (List.mem_append_left _ (mem_self key)))
      · exact .inr (ih later)

end Nodes

namespace Relabel

variable {change : Relabel} {record : String → Option String → Option String}
  {names : List String}

namespace Mirrors

open Analysis (Yields)

/-! ## Expressions -/

mutual

theorem expr (separates : change.Separates names) : ∀ e : Expr,
    (∀ node ∈ Nodes.expr e, change.Suits record names node) →
    change.Mirrors names (change.moved record).expr (Analysis.expr e)
      (Analysis.expr (change.expr e))
  | .literal note value, _ => pure rfl
  | .ident note name entity, suits => by
      rw [Nodes.expr, List.forall_mem_singleton] at suits
      rw [Relabel.expr, Analysis.expr, Analysis.expr]
      exact (resolve separates (suits.named name rfl) note.pos).map fun _ => rfl
  | .call note callee args, suits => by
      simp only [Nodes.expr, List.forall_mem_cons, List.forall_mem_append] at suits
      rw [Relabel.expr, Analysis.expr, Analysis.expr]
      apply (expr separates callee suits.2.1).bind
      intro bound
      apply (requireCallable bound).bind
      intro _
      exact (exprs separates args suits.2.2).map fun _ => rfl
  | .this note name, _ => by
      rw [Relabel.expr, Analysis.expr, Analysis.expr]
      exact (requireClass note.pos).map fun _ => rfl
  | .new note target args, suits => by
      simp only [Nodes.expr, List.forall_mem_cons, List.forall_mem_append] at suits
      rw [Relabel.expr, Analysis.expr, Analysis.expr]
      apply (expr separates target suits.2.1).bind
      intro bound
      apply (requireClassReference bound).bind
      intro _
      exact (exprs separates args suits.2.2).map fun _ => rfl
  | .typeOf note operand, suits => by
      simp only [Nodes.expr, List.forall_mem_cons] at suits
      rw [Relabel.expr, Analysis.expr, Analysis.expr]
      exact (expr separates operand suits.2).map fun _ => rfl
  | .ternary note condition yes no, suits => by
      simp only [Nodes.expr, List.forall_mem_cons, List.forall_mem_append] at suits
      rw [Relabel.expr, Analysis.expr, Analysis.expr]
      apply (expr separates condition suits.2.1).bind
      intro test
      apply (require .boolean test).bind
      intro _
      apply (expr separates yes suits.2.2.1).bind
      intro left
      apply (expr separates no suits.2.2.2).map
      intro right
      rw [tag_moved, tag_moved]
      rfl
  | .binary note op left right, suits => by
      simp only [Nodes.expr, List.forall_mem_cons, List.forall_mem_append] at suits
      rw [Relabel.expr, Analysis.expr, Analysis.expr]
      apply (expr separates left suits.2.1).bind
      intro boundLeft
      apply (expr separates right suits.2.2).bind
      intro boundRight
      exact (binaryTag op boundLeft boundRight).map fun _ => rfl
  | .unary note op side operand, suits => by
      simp only [Nodes.expr, List.forall_mem_cons] at suits
      rw [Relabel.expr, Analysis.expr, Analysis.expr]
      apply (expr separates operand suits.2).bind
      intro bound
      exact (unaryTag op bound).map fun _ => rfl
  | .array note elements, suits => by
      simp only [Nodes.expr, List.forall_mem_cons] at suits
      rw [Relabel.expr, Analysis.expr, Analysis.expr]
      exact (exprs separates elements suits.2).map fun _ => rfl
  | .object note entries, suits => by
      simp only [Nodes.expr, List.forall_mem_cons] at suits
      rw [Relabel.expr, Analysis.expr, Analysis.expr]
      have known : ∀ entry ∈ entries, (Node.expr entry.key).NamedIn names :=
        fun entry mem => (suits.2 _ (Nodes.key_mem_pairs mem)).named
      obtain ⟨renews, apart⟩ := suits.1.keys note entries rfl known
      exact (pairs separates [] entries renews apart suits.2).map fun _ => rfl
  | .member note base index, suits => by
      simp only [Nodes.expr, List.forall_mem_cons, List.forall_mem_append] at suits
      rw [Relabel.expr, Analysis.expr, Analysis.expr]
      apply (expr separates base suits.2.1).bind
      intro boundBase
      apply (require .arrayOrObject boundBase).bind
      intro _
      apply (expr separates index suits.2.2).bind
      intro boundIndex
      rw [tag_moved]
      by_cases list : boundBase.tag = .array
      · rw [if_pos list, if_pos list]
        exact (require .integer boundIndex).map fun _ => rfl
      · rw [if_neg list, if_neg list]
        exact pure rfl
  | .property note base name, suits => by
      simp only [Nodes.expr, List.forall_mem_cons] at suits
      rw [Relabel.expr, Analysis.expr, Analysis.expr]
      apply (expr separates base suits.2.2).bind
      intro bound
      exact (require .object bound).map fun _ => rfl

theorem exprs (separates : change.Separates names) : ∀ es : List Expr,
    (∀ node ∈ Nodes.exprs es, change.Suits record names node) →
    change.Mirrors names (change.moved record).exprs (Analysis.exprs es)
      (Analysis.exprs (change.exprs es))
  | [], _ => pure rfl
  | e :: others, suits => by
      rw [Nodes.exprs, List.forall_mem_append] at suits
      rw [Relabel.exprs, Analysis.exprs, Analysis.exprs]
      apply (expr separates e suits.1).bind
      intro bound
      exact (exprs separates others suits.2).map fun _ => rfl

theorem pair (separates : change.Separates names) : ∀ entry : Pair,
    change.Renews record entry.key → (∀ node ∈ Nodes.pair entry, change.Suits record names node) →
    change.Mirrors names (change.moved record).pair (Analysis.pair entry)
      (Analysis.pair (change.pair entry))
  | .mk pos key value canonical, renews, suits => by
      simp only [Nodes.pair, List.forall_mem_cons, List.forall_mem_append] at suits
      by_cases plain : Parts.isName key = true
      · cases key with
        | ident note name entity =>
            have kept : change.entity entity = entity := renews.entity
            rw [Relabel.pair, Relabel.expr, Analysis.pair, Analysis.pair, pure_bind, pure_bind,
              kept]
            apply (expr separates value suits.2.2).map
            intro bound
            have same : strip.expr (.ident { note with tag := some .any } name entity) =
                strip.expr (.ident note name entity) := rfl
            exact (renews.pair same pos bound).symm
        | _ => cases plain
      · rw [Relabel.pair, Analysis.pair, Analysis.pair]
        · apply (expr separates key suits.2.1).bind_of (Kept.expr key)
          intro boundKey kept
          apply (expr separates value suits.2.2).map
          intro boundValue
          rw [renews.pair kept.same]
        · exact expr_ne_ident _ plain
        · rintro note name entity rfl
          exact plain rfl

theorem pairs (separates : change.Separates names) : ∀ (earlier : List Expr) (entries : List Pair),
    (∀ entry ∈ entries, change.Renews record entry.key) →
    (earlier.reverse ++ entries.map Pair.key).Pairwise change.Apart →
    (∀ node ∈ Nodes.pairs entries, change.Suits record names node) →
    change.Mirrors names (change.moved record).pairs
      (Analysis.pairs (earlier.map Expr.keyText) entries)
      (Analysis.pairs (earlier.map fun first => (change.expr first).keyText)
        (change.pairs entries))
  | earlier, [], _, _, _ => pure rfl
  | earlier, entry :: others, renews, apart, suits => by
      rw [List.forall_mem_cons] at renews
      rw [Nodes.pairs, List.forall_mem_append] at suits
      rw [Relabel.pairs, Analysis.pairs, Analysis.pairs]
      have before : ∀ first ∈ earlier, change.Apart first entry.key := by
        intro first mem
        exact (List.pairwise_append.mp apart).2.2 first (List.mem_reverse.mpr mem) _
          List.mem_cons_self
      have later :
          ((entry.key :: earlier).reverse ++ others.map Pair.key).Pairwise change.Apart := by
        rw [List.reverse_cons, List.append_assoc]
        exact apart
      apply (pair separates entry renews.1 suits.1).bind_of (Kept.pair entry)
      intro bound kept
      have same : strip.expr bound.key = strip.expr entry.key := by
        rw [← key_pair, ← key_pair, kept.1.same]
      apply (distinctKey same before).bind_of (Yields.distinctKey _ bound)
      rintro _ ⟨-, rfl⟩
      rw [keyText_of_strip same]
      exact (pairs separates (entry.key :: earlier) others renews.2 later suits.2).map fun _ => rfl

end

/-! ## Statements -/

theorem optional (separates : change.Separates names) : ∀ value : Option Expr,
    (∀ node ∈ Nodes.optional value, change.Suits record names node) →
    change.Mirrors names (Prod.map (Option.map (change.moved record).expr) id)
      (Analysis.optional value) (Analysis.optional (value.map change.expr))
  | some e, suits => by
      apply (expr separates e suits).map
      intro bound
      rw [tag_moved]
      rfl
  | none, _ => pure rfl

theorem declarator (separates : change.Separates names) (constant : Bool) {name : Binding}
    {init : Option Expr}
    (suits : ∀ node ∈ Nodes.declarator (name, init), change.Suits record names node) :
    change.Mirrors names (change.moved record).declarator (Analysis.declarator constant name init)
      (Analysis.declarator constant (change.binding name) (init.map change.expr)) := by
  rw [Nodes.declarator, List.forall_mem_cons] at suits
  rw [Analysis.declarator, Analysis.declarator]
  apply (optional separates init suits.2).bind
  intro found
  have known : (Entity.variable name.name constant found.2).name ∈ names := suits.1.named _ rfl
  exact (declareBinding separates known).map fun _ => rfl

theorem declarators (separates : change.Separates names) (constant : Bool) :
    ∀ entries : List (Binding × Option Expr),
    (∀ node ∈ entries.flatMap Nodes.declarator, change.Suits record names node) →
    change.Mirrors names (List.map (change.moved record).declarator)
      (Analysis.declarators constant entries)
      (Analysis.declarators constant (entries.map change.declarator))
  | [], _ => pure rfl
  | (name, init) :: others, suits => by
      rw [List.flatMap_cons, List.forall_mem_append] at suits
      rw [List.map_cons, Relabel.declarator, Analysis.declarators, Analysis.declarators]
      apply (declarator separates constant suits.1).bind
      intro bound
      exact (declarators separates constant others suits.2).map fun _ => rfl

/-- The declaration of a name as a variable of which nothing is known. -/
theorem declareVariable (separates : change.Separates names) {name : Binding} (tag : Tag)
    (suits : change.Suits record names (.binding name)) :
    change.Mirrors names (change.moved record).binding
      (Analysis.declareBinding name (.variable name.name false tag))
      (Analysis.declareBinding (change.binding name)
        (.variable (change.binding name).name false tag)) := by
  have known : (Entity.variable name.name false tag).name ∈ names := suits.named _ rfl
  exact declareBinding separates known

mutual

theorem statement (separates : change.Separates names) : ∀ s : Statement,
    (∀ node ∈ Nodes.statement s, change.Suits record names node) →
    change.Mirrors names (change.moved record).statement (Analysis.statement s)
      (Analysis.statement (change.statement s))
  | .declare pos constant name init, suits => by
      rw [Nodes.statement, List.forall_mem_cons] at suits
      rw [Relabel.statement, Analysis.statement, Analysis.statement]
      exact (declarator separates constant suits.2).map fun _ => rfl
  | .declareAll pos constant entries, suits => by
      rw [Nodes.statement, List.forall_mem_cons] at suits
      rw [Relabel.statement, Analysis.statement, Analysis.statement]
      exact (declarators separates constant entries suits.2).map fun _ => rfl
  | .assign pos target value, suits => by
      simp only [Nodes.statement, List.forall_mem_cons, List.forall_mem_append] at suits
      rw [Relabel.statement, Analysis.statement, Analysis.statement]
      apply (expr separates target suits.2.1).bind
      intro boundTarget
      apply (expr separates value suits.2.2).bind
      intro boundValue
      apply (requireMutable boundTarget).bind
      intro _
      rw [tag_moved]
      apply (retype boundValue.tag boundTarget).map
      intro _
      rw [Relabel.statement, moved_withTag]
      rfl
  | .tryCatch pos body name handler, suits => by
      simp only [Nodes.statement, List.forall_mem_cons, List.forall_mem_append] at suits
      rw [Relabel.statement, Analysis.statement, Analysis.statement]
      apply (blockIn separates id body suits.2.2.1).bind
      intro boundBody
      apply (enter id).bind
      intro _
      apply (declareVariable separates .any suits.2.1).bind
      intro boundName
      apply (blockHere separates handler suits.2.2.2).bind
      intro boundHandler
      exact exit.map fun _ => rfl
  | .classDef pos name (some initialiser) bodyPos methods, suits => by
      simp only [Nodes.statement, List.forall_mem_cons, List.forall_mem_append] at suits
      have known : (Entity.ofClass name.name).name ∈ names := suits.2.1.named _ rfl
      rw [Relabel.statement, Analysis.statement, Analysis.statement]
      apply (declare separates name.pos known).bind
      intro declared
      apply (enter _).bind
      intro _
      apply (constructor separates initialiser suits.2.2.1).present.bind
      intro boundInitialiser
      apply (functions separates methods suits.2.2.2).bind
      intro boundMethods
      apply exit.map
      intro _
      cases boundInitialiser <;> rfl
  | .classDef pos name none bodyPos methods, suits => by
      simp only [Nodes.statement, List.forall_mem_cons] at suits
      have known : (Entity.ofClass name.name).name ∈ names := suits.2.1.named _ rfl
      rw [Relabel.statement, Analysis.statement, Analysis.statement]
      apply (declare separates name.pos known).bind
      intro declared
      apply (enter _).bind
      intro _
      dsimp only
      rw [pure_bind, pure_bind]
      apply (functions separates methods suits.2.2).bind
      intro boundMethods
      exact exit.map fun _ => rfl
  | .function declared, suits => by
      rw [Nodes.statement, List.forall_mem_cons] at suits
      rw [Relabel.statement, Analysis.statement, Analysis.statement]
      exact (function separates declared suits.2).map fun _ => rfl
  | .ifElse pos alternatives (some otherwise), suits => by
      simp only [Nodes.statement, List.forall_mem_cons, List.forall_mem_append] at suits
      rw [Relabel.statement, Analysis.statement, Analysis.statement]
      apply (ifArms separates alternatives suits.2.1).bind
      intro bound
      apply (blockIn separates id otherwise suits.2.2).present.map
      intro boundOtherwise
      cases boundOtherwise <;> rfl
  | .ifElse pos alternatives none, suits => by
      rw [Nodes.statement, List.forall_mem_cons] at suits
      rw [Relabel.statement, Analysis.statement, Analysis.statement]
      exact (ifArms separates alternatives suits.2).bind fun _ => pure rfl
  | .whileLoop pos condition body, suits => by
      simp only [Nodes.statement, List.forall_mem_cons, List.forall_mem_append] at suits
      rw [Relabel.statement, Analysis.statement, Analysis.statement]
      apply (expr separates condition suits.2.1).bind
      intro test
      apply (require .boolean test).bind
      intro _
      exact (blockIn separates _ body suits.2.2).map fun _ => rfl
  | .forLoop pos name init condition step body, suits => by
      simp only [Nodes.statement, List.forall_mem_cons, List.forall_mem_append] at suits
      rw [Relabel.statement, Analysis.statement, Analysis.statement]
      apply (enter _).bind
      intro _
      apply (expr separates init suits.2.2.1).bind
      intro boundInit
      rw [tag_moved]
      apply (declareVariable separates _ suits.2.1).bind
      intro boundName
      apply (expr separates condition suits.2.2.2.1).bind
      intro test
      apply (require .boolean test).bind
      intro _
      apply (expr separates step suits.2.2.2.2.1).bind
      intro boundStep
      apply (blockIn separates id body suits.2.2.2.2.2).bind
      intro boundBody
      exact exit.map fun _ => rfl
  | .forOf pos name iterable body, suits => by
      simp only [Nodes.statement, List.forall_mem_cons, List.forall_mem_append] at suits
      rw [Relabel.statement, Analysis.statement, Analysis.statement]
      apply (expr separates iterable suits.2.2.1).bind
      intro boundIterable
      apply (require .iterable boundIterable).bind
      intro _
      apply (enter _).bind
      intro _
      apply (declareVariable separates .any suits.2.1).bind
      intro boundName
      apply (blockHere separates body suits.2.2.2).bind
      intro boundBody
      exact exit.map fun _ => rfl
  | .switch pos selector alternatives (some otherwise), suits => by
      simp only [Nodes.statement, List.forall_mem_cons, List.forall_mem_append] at suits
      rw [Relabel.statement, Analysis.statement, Analysis.statement]
      apply (expr separates selector suits.2.1).bind
      intro boundSelector
      apply (switchArms separates alternatives suits.2.2.1).bind
      intro bound
      apply (blockIn separates _ otherwise suits.2.2.2).present.map
      intro boundOtherwise
      cases boundOtherwise <;> rfl
  | .switch pos selector alternatives none, suits => by
      simp only [Nodes.statement, List.forall_mem_cons, List.forall_mem_append] at suits
      rw [Relabel.statement, Analysis.statement, Analysis.statement]
      apply (expr separates selector suits.2.1).bind
      intro boundSelector
      exact (switchArms separates alternatives suits.2.2).bind fun _ => pure rfl
  | .returns pos (some value), suits => by
      rw [Nodes.statement, List.forall_mem_cons] at suits
      rw [Relabel.statement, Option.map_some, Analysis.statement, Analysis.statement]
      apply (requireFunction pos).bind
      intro _
      exact (expr separates value suits.2).map fun _ => rfl
  | .returns pos none, _ => by
      rw [Relabel.statement, Option.map_none, Analysis.statement]
      exact (requireFunction pos).map fun _ => rfl
  | .print pos argument, suits => by
      rw [Nodes.statement, List.forall_mem_cons] at suits
      rw [Relabel.statement, Analysis.statement, Analysis.statement]
      exact (expr separates argument suits.2).map fun _ => rfl
  | .breakLoop pos, _ => by
      rw [Relabel.statement, Analysis.statement]
      exact (requireLoop pos).map fun _ => rfl
  | .continueLoop pos, _ => by
      rw [Relabel.statement, Analysis.statement]
      exact (requireLoop pos).map fun _ => rfl
  | .expr pos e, suits => by
      rw [Nodes.statement, List.forall_mem_cons] at suits
      rw [Relabel.statement, Analysis.statement, Analysis.statement]
      exact (expr separates e suits.2).map fun _ => rfl

theorem statements (separates : change.Separates names) : ∀ body : List Statement,
    (∀ node ∈ Nodes.statements body, change.Suits record names node) →
    change.Mirrors names (change.moved record).statements (Analysis.statements body)
      (Analysis.statements (change.statements body))
  | [], _ => pure rfl
  | first :: others, suits => by
      rw [Nodes.statements, List.forall_mem_append] at suits
      rw [Relabel.statements, Analysis.statements, Analysis.statements]
      apply (statement separates first suits.1).bind
      intro bound
      exact (statements separates others suits.2).map fun _ => rfl

theorem blockHere (separates : change.Separates names) : ∀ body : Block,
    (∀ node ∈ Nodes.block body, change.Suits record names node) →
    change.Mirrors names (change.moved record).block (Analysis.blockHere body)
      (Analysis.blockHere (change.block body))
  | .mk pos body, suits => by
      rw [Nodes.block, List.forall_mem_cons] at suits
      rw [Relabel.block, Analysis.blockHere, Analysis.blockHere]
      exact (statements separates body suits.2).map fun _ => rfl

theorem blockIn (separates : change.Separates names) (adjust : Surroundings → Surroundings) :
    ∀ body : Block, (∀ node ∈ Nodes.block body, change.Suits record names node) →
    change.Mirrors names (change.moved record).block (Analysis.blockIn adjust body)
      (Analysis.blockIn adjust (change.block body))
  | .mk pos body, suits => by
      rw [Nodes.block, List.forall_mem_cons] at suits
      rw [Relabel.block, Analysis.blockIn, Analysis.blockIn]
      apply (enter adjust).bind
      intro _
      apply (statements separates body suits.2).bind
      intro bound
      exact exit.map fun _ => rfl

theorem function (separates : change.Separates names) : ∀ declared : Function,
    (∀ node ∈ Nodes.function declared, change.Suits record names node) →
    change.Mirrors names (change.moved record).function (Analysis.function declared)
      (Analysis.function (change.function declared))
  | .mk pos name params body, suits => by
      simp only [Nodes.function, List.forall_mem_cons, List.forall_mem_append] at suits
      have known : (Entity.function name.name).name ∈ names := suits.2.1.named _ rfl
      rw [Relabel.function, Analysis.function, Analysis.function]
      apply (declare separates name.pos known).bind
      intro id
      apply (enter _).bind
      intro _
      apply (parameters separates params suits.2.2.1).bind
      intro boundParams
      apply (blockHere separates body suits.2.2.2).bind
      intro bound
      exact exit.map fun _ => rfl

theorem functions (separates : change.Separates names) : ∀ members : List Function,
    (∀ node ∈ Nodes.functions members, change.Suits record names node) →
    change.Mirrors names (change.moved record).functions (Analysis.functions members)
      (Analysis.functions (change.functions members))
  | [], _ => pure rfl
  | first :: others, suits => by
      rw [Nodes.functions, List.forall_mem_append] at suits
      rw [Relabel.functions, Analysis.functions, Analysis.functions]
      apply (function separates first suits.1).bind
      intro bound
      exact (functions separates others suits.2).map fun _ => rfl

theorem constructor (separates : change.Separates names) : ∀ initialiser : Constructor,
    (∀ node ∈ Nodes.constructor initialiser, change.Suits record names node) →
    change.Mirrors names (change.moved record).constructor (Analysis.constructor initialiser)
      (Analysis.constructor (change.constructor initialiser))
  | .mk pos params body, suits => by
      simp only [Nodes.constructor, List.forall_mem_cons, List.forall_mem_append] at suits
      rw [Relabel.constructor, Analysis.constructor, Analysis.constructor]
      apply (enter id).bind
      intro _
      apply (parameters separates params suits.2.1).bind
      intro boundParams
      apply (blockHere separates body suits.2.2).bind
      intro bound
      exact exit.map fun _ => rfl

theorem ifArms (separates : change.Separates names) : ∀ alternatives : List Arm,
    (∀ node ∈ Nodes.arms alternatives, change.Suits record names node) →
    change.Mirrors names (change.moved record).arms (Analysis.ifArms alternatives)
      (Analysis.ifArms (change.arms alternatives))
  | [], _ => pure rfl
  | first :: others, suits => by
      rw [Nodes.arms, List.forall_mem_append] at suits
      rw [Relabel.arms, Analysis.ifArms, Analysis.ifArms]
      apply (ifArm separates first suits.1).bind
      intro bound
      exact (ifArms separates others suits.2).map fun _ => rfl

theorem ifArm (separates : change.Separates names) : ∀ alternative : Arm,
    (∀ node ∈ Nodes.arm alternative, change.Suits record names node) →
    change.Mirrors names (change.moved record).arm (Analysis.ifArm alternative)
      (Analysis.ifArm (change.arm alternative))
  | .mk pos condition body, suits => by
      simp only [Nodes.arm, List.forall_mem_cons, List.forall_mem_append] at suits
      rw [Relabel.arm, Analysis.ifArm, Analysis.ifArm]
      apply (expr separates condition suits.2.1).bind
      intro test
      apply (require .boolean test).bind
      intro _
      exact (blockIn separates id body suits.2.2).map fun _ => rfl

theorem switchArms (separates : change.Separates names) : ∀ alternatives : List Arm,
    (∀ node ∈ Nodes.arms alternatives, change.Suits record names node) →
    change.Mirrors names (change.moved record).arms (Analysis.switchArms alternatives)
      (Analysis.switchArms (change.arms alternatives))
  | [], _ => pure rfl
  | first :: others, suits => by
      rw [Nodes.arms, List.forall_mem_append] at suits
      rw [Relabel.arms, Analysis.switchArms, Analysis.switchArms]
      apply (switchArm separates first suits.1).bind
      intro bound
      exact (switchArms separates others suits.2).map fun _ => rfl

theorem switchArm (separates : change.Separates names) : ∀ alternative : Arm,
    (∀ node ∈ Nodes.arm alternative, change.Suits record names node) →
    change.Mirrors names (change.moved record).arm (Analysis.switchArm alternative)
      (Analysis.switchArm (change.arm alternative))
  | .mk pos test body, suits => by
      simp only [Nodes.arm, List.forall_mem_cons, List.forall_mem_append] at suits
      rw [Relabel.arm, Analysis.switchArm, Analysis.switchArm]
      apply (expr separates test suits.2.1).bind
      intro bound
      exact (blockIn separates _ body suits.2.2).map fun _ => rfl

end

end Mirrors

end Relabel

/-- A relabelled program is bound like the program itself. -/
theorem Program.bind_relabel {change : Relabel} {record : String → Option String → Option String}
    {names : List String} (separates : change.Separates names) {program : Program}
    (suits : ∀ node ∈ program.nodes, change.Suits record names node) :
    (change.program program).bind =
      (program.bind.map (change.moved record).boundProgram).mapError change.semanticError := by
  have nothing : Relabel.Within names Analysis.Context.initial.scope :=
    List.forall_mem_singleton.mpr (List.forall_mem_nil _)
  have mirrors :=
    (Relabel.Mirrors.statements separates program.statements suits).run .initial nothing
  rw [Relabel.context_initial] at mirrors
  show Except.map _ (Analysis.statements (change.statements program.statements) .initial) = _
  rw [mirrors, Program.bind, StateT.run]
  cases Analysis.statements program.statements .initial <;> rfl

end Qalam
