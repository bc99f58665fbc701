/-
# Names of a relabelled tree

Names are given by entities and spellings, in the order in which a program mentions them. So a
relabelled tree asks for the same names as the tree itself, as long as entities stay and every
spelling is answered as before. The two tables need not be the same for that. The resulting trees
may differ in what was recorded beside them, but no output shows this.

A bound tree has the names of the tree that it was made from. They are looked for in the stripped
tree, which is the same for both.
-/

import Qalam.Compiler
import Qalam.Proofs.Relabelling.Writing
import Qalam.Proofs.Structure.Nodes

namespace Qalam

namespace Naming

open Relabel

variable {oracle : Oracle} {α β γ δ : Type}

/-- From related tables two ways of giving names come to related tables, and nobody who sees only a
part of their results can tell them apart. -/
structure Echoes (relates : Table oracle → Table oracle → Prop) (seen : α → γ)
    (first second : Renaming oracle α) : Prop where
  run : ∀ table table', relates table table' →
    relates (first.run table).2 (second.run table').2 ∧
      seen (second.run table').1 = seen (first.run table).1

/-- From related tables a mention of a given name is answered in the same way before and after a
relabelling. -/
structure Answers (relates : Table oracle → Table oracle → Prop) (change : Relabel)
    (names : List String) : Prop where
  kept : ∀ entity, change.entity entity = entity
  entity : ∀ (entity : EntityId) {spelling : String}, spelling ∈ names →
    Echoes relates id (Table.entity entity spelling) (Table.entity entity (change.name spelling))
  field : ∀ {spelling : String}, spelling ∈ names →
    Echoes relates id (Table.field spelling) (Table.field (change.name spelling))

variable {relates : Table oracle → Table oracle → Prop} {change : Relabel} {names : List String}

theorem Answers.identifier (answers : Answers relates change names) (entity : Option EntityId)
    {spelling : String} (known : spelling ∈ names) :
    Echoes relates id (Table.identifier entity spelling)
      (Table.identifier (change.entity entity) (change.name spelling)) := by
  rw [answers.kept]
  cases entity with
  | some entity => exact answers.entity entity known
  | none => exact answers.field known

namespace Echoes

theorem pure {seen : α → γ} {value value' : α} (same : seen value' = seen value) :
    Echoes relates seen (Pure.pure value) (Pure.pure value') :=
  ⟨fun _ _ related => ⟨related, same⟩⟩

theorem bind {seen : α → γ} {seen' : β → δ} {first second : Renaming oracle α}
    {next next' : α → Renaming oracle β} (here : Echoes relates seen first second)
    (there : ∀ value value', seen value' = seen value →
      Echoes relates seen' (next value) (next' value')) :
    Echoes relates seen' (first >>= next) (second >>= next') := by
  constructor
  intro table table' related
  obtain ⟨reached, same⟩ := here.run table table' related
  exact (there _ _ same).run _ _ reached

/-- A request that gets the same answer on both sides. -/
theorem ask {seen : β → δ} {request request' : Renaming oracle α}
    {next next' : α → Renaming oracle β} (alike : Echoes relates id request request')
    (there : ∀ given, Echoes relates seen (next given) (next' given)) :
    Echoes relates seen (request >>= next) (request' >>= next') :=
  alike.bind fun given given' (same : given' = given) => same ▸ there given

/-- A part that is there is handed on as such. -/
theorem bind_some {seen : α → γ} {seen' : β → δ} {first second : Renaming oracle α}
    {next next' : Option α → Renaming oracle β} (here : Echoes relates seen first second)
    (there : ∀ value value', seen value' = seen value →
      Echoes relates seen' (next (some value)) (next' (some value'))) :
    Echoes relates seen' (some <$> first >>= next) (some <$> second >>= next') := by
  rw [bind_map_left, bind_map_left]
  exact here.bind there

theorem field (answers : Answers relates change names) {field : Field}
    (named : (Node.field (strip.field field)).NamedIn names) :
    Echoes relates blank.field (Rename.field field) (Rename.field (change.field field)) :=
  ask (answers.field (named _ rfl)) fun _ => pure rfl

theorem binding (answers : Answers relates change names) {name : Binding}
    (named : (Node.binding (strip.binding name)).NamedIn names) :
    Echoes relates blank.binding (Rename.binding name) (Rename.binding (change.binding name)) :=
  ask (answers.identifier name.entity (named _ rfl)) fun _ => pure rfl

theorem method (answers : Answers relates change names) {name : Binding}
    (named : (Node.binding (strip.binding name)).NamedIn names) :
    Echoes relates blank.binding (Rename.method name) (Rename.method (change.binding name)) :=
  ask (answers.field (named _ rfl)) fun _ => pure rfl

theorem parameters (answers : Answers relates change names) : ∀ params : List Parameter,
    (∀ node ∈ (params.map strip.parameter).map Node.parameter, node.NamedIn names) →
    Echoes relates (List.map blank.parameter)
      (Rename.parameters params : Renaming oracle (List Parameter))
      (Rename.parameters (params.map change.parameter))
  | [], _ => pure rfl
  | param :: others, named => by
      rw [List.map_cons, List.map_cons, List.forall_mem_cons] at named
      rw [List.map_cons, Rename.parameters, Rename.parameters]
      apply ask (answers.identifier param.entity (named.1 _ rfl))
      intro name
      apply (parameters answers others named.2).bind
      intro rest rest' same
      apply pure
      rw [List.map_cons, List.map_cons, same]
      rfl

/-! ## Expressions -/

mutual

theorem expr (answers : Answers relates change names) : ∀ e : Expr,
    (∀ node ∈ Nodes.expr (strip.expr e), node.NamedIn names) →
    Echoes relates blank.expr (Rename.expr e : Renaming oracle Expr)
      (Rename.expr (change.expr e))
  | .literal note value, _ => pure rfl
  | .ident note name entity, named => by
      rw [Relabel.expr, Nodes.expr, List.forall_mem_singleton] at named
      rw [Relabel.expr, Rename.expr, Rename.expr]
      exact ask (answers.identifier entity (named _ rfl)) fun _ => pure rfl
  | .call note callee args, named => by
      simp only [Relabel.expr, Nodes.expr, List.forall_mem_cons, List.forall_mem_append] at named
      rw [Relabel.expr, Rename.expr, Rename.expr]
      apply (expr answers callee named.2.1).bind
      intro given given' same
      apply (exprs answers args named.2.2).bind
      intro rest rest' sameRest
      apply pure
      rw [Relabel.expr, Relabel.expr, same, sameRest]
      rfl
  | .this note name, named => by
      simp only [Relabel.expr, Nodes.expr, List.forall_mem_cons] at named
      rw [Relabel.expr, Rename.expr, Rename.expr]
      apply (field answers named.2.1).bind
      intro given given' same
      apply pure
      rw [Relabel.expr, Relabel.expr, same]
      rfl
  | .new note target args, named => by
      simp only [Relabel.expr, Nodes.expr, List.forall_mem_cons, List.forall_mem_append] at named
      rw [Relabel.expr, Rename.expr, Rename.expr]
      apply (expr answers target named.2.1).bind
      intro given given' same
      apply (exprs answers args named.2.2).bind
      intro rest rest' sameRest
      apply pure
      rw [Relabel.expr, Relabel.expr, same, sameRest]
      rfl
  | .typeOf note operand, named => by
      simp only [Relabel.expr, Nodes.expr, List.forall_mem_cons] at named
      rw [Relabel.expr, Rename.expr, Rename.expr]
      apply (expr answers operand named.2).bind
      intro given given' same
      apply pure
      rw [Relabel.expr, Relabel.expr, same]
      rfl
  | .ternary note condition yes no, named => by
      simp only [Relabel.expr, Nodes.expr, List.forall_mem_cons, List.forall_mem_append] at named
      rw [Relabel.expr, Rename.expr, Rename.expr]
      apply (expr answers condition named.2.1).bind
      intro test test' sameTest
      apply (expr answers yes named.2.2.1).bind
      intro left left' sameLeft
      apply (expr answers no named.2.2.2).bind
      intro right right' sameRight
      apply pure
      rw [Relabel.expr, Relabel.expr, sameTest, sameLeft, sameRight]
      rfl
  | .binary note op left right, named => by
      simp only [Relabel.expr, Nodes.expr, List.forall_mem_cons, List.forall_mem_append] at named
      rw [Relabel.expr, Rename.expr, Rename.expr]
      apply (expr answers left named.2.1).bind
      intro first first' same
      apply (expr answers right named.2.2).bind
      intro second second' sameSecond
      apply pure
      rw [Relabel.expr, Relabel.expr, same, sameSecond]
      rfl
  | .unary note op side operand, named => by
      simp only [Relabel.expr, Nodes.expr, List.forall_mem_cons] at named
      rw [Relabel.expr, Rename.expr, Rename.expr]
      apply (expr answers operand named.2).bind
      intro given given' same
      apply pure
      rw [Relabel.expr, Relabel.expr, same]
      rfl
  | .array note elements, named => by
      simp only [Relabel.expr, Nodes.expr, List.forall_mem_cons] at named
      rw [Relabel.expr, Rename.expr, Rename.expr]
      apply (exprs answers elements named.2).bind
      intro given given' same
      apply pure
      rw [Relabel.expr, Relabel.expr, same]
      rfl
  | .object note entries, named => by
      simp only [Relabel.expr, Nodes.expr, List.forall_mem_cons] at named
      rw [Relabel.expr, Rename.expr, Rename.expr]
      apply (pairs answers entries named.2).bind
      intro given given' same
      apply pure
      rw [Relabel.expr, Relabel.expr, same]
      rfl
  | .member note base index, named => by
      simp only [Relabel.expr, Nodes.expr, List.forall_mem_cons, List.forall_mem_append] at named
      rw [Relabel.expr, Rename.expr, Rename.expr]
      apply (expr answers base named.2.1).bind
      intro first first' same
      apply (expr answers index named.2.2).bind
      intro second second' sameSecond
      apply pure
      rw [Relabel.expr, Relabel.expr, same, sameSecond]
      rfl
  | .property note base name, named => by
      simp only [Relabel.expr, Nodes.expr, List.forall_mem_cons] at named
      rw [Relabel.expr, Rename.expr, Rename.expr]
      apply (expr answers base named.2.2).bind
      intro first first' same
      apply (field answers named.2.1).bind
      intro given given' sameName
      apply pure
      rw [Relabel.expr, Relabel.expr, same, sameName]
      rfl

theorem exprs (answers : Answers relates change names) : ∀ es : List Expr,
    (∀ node ∈ Nodes.exprs (strip.exprs es), node.NamedIn names) →
    Echoes relates blank.exprs (Rename.exprs es : Renaming oracle (List Expr))
      (Rename.exprs (change.exprs es))
  | [], _ => pure rfl
  | e :: others, named => by
      rw [Relabel.exprs, Nodes.exprs, List.forall_mem_append] at named
      rw [Relabel.exprs, Rename.exprs, Rename.exprs]
      apply (expr answers e named.1).bind
      intro given given' same
      apply (exprs answers others named.2).bind
      intro rest rest' sameRest
      apply pure
      rw [Relabel.exprs, Relabel.exprs, same, sameRest]

theorem pair (answers : Answers relates change names) : ∀ entry : Pair,
    (∀ node ∈ Nodes.pair (strip.pair entry), node.NamedIn names) →
    Echoes relates blank.pair (Rename.pair entry : Renaming oracle Pair)
      (Rename.pair (change.pair entry))
  | .mk pos key value canonical, named => by
      simp only [Relabel.pair, Nodes.pair, List.forall_mem_cons, List.forall_mem_append] at named
      have behind : ∀ given given' : Expr, blank.expr given' = blank.expr given →
          Echoes relates blank.pair
            (do
              let value ← Rename.expr value
              Pure.pure (.mk pos given value canonical) : Renaming oracle Pair)
            (do
              let value ← Rename.expr (change.expr value)
              Pure.pure (.mk (change.pos pos) given' value
                (change.key (change.expr key).keyText canonical))) := by
        intro given given' same
        apply (expr answers value named.2.2).bind
        intro found found' sameValue
        apply pure
        rw [Relabel.pair, Relabel.pair, same, sameValue]
        rfl
      -- A plain name as a key is asked for as a field, any other key like an expression.
      by_cases plain : Parts.isName key = true
      · cases key with
        | ident note name entity =>
            rw [Relabel.expr, Nodes.expr, List.forall_mem_singleton] at named
            rw [Relabel.pair, Relabel.expr, Rename.pair, Rename.pair]
            apply ask (answers.field (named.2.1 _ rfl))
            intro given
            rw [pure_bind, pure_bind]
            exact behind _ _ rfl
        | _ => cases plain
      · rw [Relabel.pair, Rename.pair, Rename.pair]
        · exact (expr answers key named.2.1).bind behind
        · exact expr_ne_ident _ plain
        · rintro note name entity rfl
          exact plain rfl

theorem pairs (answers : Answers relates change names) : ∀ entries : List Pair,
    (∀ node ∈ Nodes.pairs (strip.pairs entries), node.NamedIn names) →
    Echoes relates blank.pairs (Rename.pairs entries : Renaming oracle (List Pair))
      (Rename.pairs (change.pairs entries))
  | [], _ => pure rfl
  | entry :: others, named => by
      rw [Relabel.pairs, Nodes.pairs, List.forall_mem_append] at named
      rw [Relabel.pairs, Rename.pairs, Rename.pairs]
      apply (pair answers entry named.1).bind
      intro given given' same
      apply (pairs answers others named.2).bind
      intro rest rest' sameRest
      apply pure
      rw [Relabel.pairs, Relabel.pairs, same, sameRest]

end

theorem optional (answers : Answers relates change names) : ∀ value : Option Expr,
    (∀ node ∈ Nodes.optional (value.map strip.expr), node.NamedIn names) →
    Echoes relates (Option.map blank.expr) (Rename.optional value : Renaming oracle (Option Expr))
      (Rename.optional (value.map change.expr))
  | none, _ => pure rfl
  | some e, named => by
      apply (expr answers e named).bind
      intro given given' same
      apply pure
      exact congrArg some same

theorem declarators (answers : Answers relates change names) :
    ∀ entries : List (Binding × Option Expr),
    (∀ node ∈ (entries.map strip.declarator).flatMap Nodes.declarator, node.NamedIn names) →
    Echoes relates (List.map blank.declarator)
      (Rename.declarators entries : Renaming oracle (List (Binding × Option Expr)))
      (Rename.declarators (entries.map change.declarator))
  | [], _ => pure rfl
  | (name, init) :: others, named => by
      simp only [List.map_cons, List.flatMap_cons, Relabel.declarator, Nodes.declarator,
        List.forall_mem_cons, List.forall_mem_append] at named
      rw [List.map_cons, Relabel.declarator, Rename.declarators, Rename.declarators]
      apply (binding answers named.1.1).bind
      intro given given' same
      apply (optional answers init named.1.2).bind
      intro value value' sameValue
      apply (declarators answers others named.2).bind
      intro rest rest' sameRest
      apply pure
      rw [List.map_cons, List.map_cons, Relabel.declarator, Relabel.declarator, same, sameValue,
        sameRest]

/-! ## Statements -/

mutual

theorem statement (answers : Answers relates change names) : ∀ s : Statement,
    (∀ node ∈ Nodes.statement (strip.statement s), node.NamedIn names) →
    Echoes relates blank.statement (Rename.statement s : Renaming oracle Statement)
      (Rename.statement (change.statement s))
  | .declare pos constant name init, named => by
      simp only [Relabel.statement, Nodes.statement, Nodes.declarator,
        List.forall_mem_cons] at named
      rw [Relabel.statement, Rename.statement, Rename.statement]
      apply (binding answers named.2.1).bind
      intro given given' same
      apply (optional answers init named.2.2).bind
      intro value value' sameValue
      apply pure
      rw [Relabel.statement, Relabel.statement, same, sameValue]
      rfl
  | .declareAll pos constant entries, named => by
      rw [Relabel.statement, Nodes.statement, List.forall_mem_cons] at named
      rw [Relabel.statement, Rename.statement, Rename.statement]
      apply (declarators answers entries named.2).bind
      intro given given' same
      apply pure
      rw [Relabel.statement, Relabel.statement, same]
      rfl
  | .assign pos target value, named => by
      simp only [Relabel.statement, Nodes.statement, List.forall_mem_cons,
        List.forall_mem_append] at named
      rw [Relabel.statement, Rename.statement, Rename.statement]
      apply (expr answers target named.2.1).bind
      intro place place' samePlace
      apply (expr answers value named.2.2).bind
      intro given given' sameValue
      apply pure
      rw [Relabel.statement, Relabel.statement, samePlace, sameValue]
      rfl
  | .tryCatch pos body name handler, named => by
      simp only [Relabel.statement, Nodes.statement, List.forall_mem_cons,
        List.forall_mem_append] at named
      rw [Relabel.statement, Rename.statement, Rename.statement]
      apply (block answers body named.2.2.1).bind
      intro guarded guarded' sameBody
      apply (binding answers named.2.1).bind
      intro given given' same
      apply (block answers handler named.2.2.2).bind
      intro caught caught' sameHandler
      apply pure
      rw [Relabel.statement, Relabel.statement, sameBody, same, sameHandler]
      rfl
  | .classDef pos name (some initialiser) bodyPos members, named => by
      simp only [Relabel.statement, Nodes.statement, List.forall_mem_cons,
        List.forall_mem_append] at named
      rw [Relabel.statement, Rename.statement, Rename.statement]
      apply (binding answers named.2.1).bind
      intro given given' same
      apply (constructor answers initialiser named.2.2.1).bind_some
      intro opening opening' sameOpening
      apply (methods answers members named.2.2.2).bind
      intro rest rest' sameRest
      apply pure
      rw [Relabel.statement, Relabel.statement, same, sameOpening, sameRest]
      rfl
  | .classDef pos name none bodyPos members, named => by
      simp only [Relabel.statement, Nodes.statement, List.forall_mem_cons] at named
      rw [Relabel.statement, Rename.statement, Rename.statement]
      apply (binding answers named.2.1).bind
      intro given given' same
      simp only [pure_bind]
      apply (methods answers members named.2.2).bind
      intro rest rest' sameRest
      apply pure
      rw [Relabel.statement, Relabel.statement, same, sameRest]
      rfl
  | .function (.mk pos name params body), named => by
      simp only [Relabel.statement, Relabel.function, Nodes.statement, Nodes.function,
        List.forall_mem_cons, List.forall_mem_append] at named
      rw [Relabel.statement, Relabel.function, Rename.statement, Rename.statement]
      apply (binding answers named.2.2.1).bind
      intro called called' same
      apply (parameters answers params named.2.2.2.1).bind
      intro given given' sameParams
      apply (block answers body named.2.2.2.2).bind
      intro inside inside' sameBody
      apply pure
      rw [Relabel.statement, Relabel.statement, Relabel.function, Relabel.function, same,
        sameParams, sameBody]
      rfl
  | .ifElse pos alternatives (some otherwise), named => by
      simp only [Relabel.statement, Nodes.statement, List.forall_mem_cons,
        List.forall_mem_append] at named
      rw [Relabel.statement, Rename.statement, Rename.statement]
      apply (arms answers alternatives named.2.1).bind
      intro given given' same
      apply (block answers otherwise named.2.2).bind_some
      intro last last' sameLast
      apply pure
      rw [Relabel.statement, Relabel.statement, same, sameLast]
      rfl
  | .ifElse pos alternatives none, named => by
      rw [Relabel.statement, Nodes.statement, List.forall_mem_cons] at named
      rw [Relabel.statement, Rename.statement, Rename.statement]
      apply (arms answers alternatives named.2).bind
      intro given given' same
      apply pure
      rw [Relabel.statement, Relabel.statement, same]
      rfl
  | .whileLoop pos condition body, named => by
      simp only [Relabel.statement, Nodes.statement, List.forall_mem_cons,
        List.forall_mem_append] at named
      rw [Relabel.statement, Rename.statement, Rename.statement]
      apply (expr answers condition named.2.1).bind
      intro test test' sameTest
      apply (block answers body named.2.2).bind
      intro inside inside' sameBody
      apply pure
      rw [Relabel.statement, Relabel.statement, sameTest, sameBody]
      rfl
  | .forLoop pos name init condition step body, named => by
      simp only [Relabel.statement, Nodes.statement, List.forall_mem_cons,
        List.forall_mem_append] at named
      rw [Relabel.statement, Rename.statement, Rename.statement]
      apply (binding answers named.2.1).bind
      intro given given' same
      apply (expr answers init named.2.2.1).bind
      intro first first' sameFirst
      apply (expr answers condition named.2.2.2.1).bind
      intro test test' sameTest
      apply (expr answers step named.2.2.2.2.1).bind
      intro next next' sameNext
      apply (block answers body named.2.2.2.2.2).bind
      intro inside inside' sameBody
      apply pure
      rw [Relabel.statement, Relabel.statement, same, sameFirst, sameTest, sameNext, sameBody]
      rfl
  | .forOf pos name iterable body, named => by
      simp only [Relabel.statement, Nodes.statement, List.forall_mem_cons,
        List.forall_mem_append] at named
      rw [Relabel.statement, Rename.statement, Rename.statement]
      apply (binding answers named.2.1).bind
      intro given given' same
      apply (expr answers iterable named.2.2.1).bind
      intro source source' sameSource
      apply (block answers body named.2.2.2).bind
      intro inside inside' sameBody
      apply pure
      rw [Relabel.statement, Relabel.statement, same, sameSource, sameBody]
      rfl
  | .switch pos selector alternatives (some otherwise), named => by
      simp only [Relabel.statement, Nodes.statement, List.forall_mem_cons,
        List.forall_mem_append] at named
      rw [Relabel.statement, Rename.statement, Rename.statement]
      apply (expr answers selector named.2.1).bind
      intro chosen chosen' sameChosen
      apply (arms answers alternatives named.2.2.1).bind
      intro given given' same
      apply (block answers otherwise named.2.2.2).bind_some
      intro last last' sameLast
      apply pure
      rw [Relabel.statement, Relabel.statement, sameChosen, same, sameLast]
      rfl
  | .switch pos selector alternatives none, named => by
      simp only [Relabel.statement, Nodes.statement, List.forall_mem_cons,
        List.forall_mem_append] at named
      rw [Relabel.statement, Rename.statement, Rename.statement]
      apply (expr answers selector named.2.1).bind
      intro chosen chosen' sameChosen
      apply (arms answers alternatives named.2.2).bind
      intro given given' same
      apply pure
      rw [Relabel.statement, Relabel.statement, sameChosen, same]
      rfl
  | .returns pos value, named => by
      rw [Relabel.statement, Nodes.statement, List.forall_mem_cons] at named
      rw [Relabel.statement, Rename.statement, Rename.statement]
      apply (optional answers value named.2).bind
      intro given given' same
      apply pure
      rw [Relabel.statement, Relabel.statement, same]
      rfl
  | .print pos e, named | .expr pos e, named => by
      rw [Relabel.statement, Nodes.statement, List.forall_mem_cons] at named
      rw [Relabel.statement, Rename.statement, Rename.statement]
      apply (expr answers e named.2).bind
      intro given given' same
      apply pure
      rw [Relabel.statement, Relabel.statement, same]
      rfl
  | .breakLoop pos, _ | .continueLoop pos, _ => pure rfl

theorem statements (answers : Answers relates change names) : ∀ body : List Statement,
    (∀ node ∈ Nodes.statements (strip.statements body), node.NamedIn names) →
    Echoes relates blank.statements (Rename.statements body : Renaming oracle (List Statement))
      (Rename.statements (change.statements body))
  | [], _ => pure rfl
  | first :: others, named => by
      rw [Relabel.statements, Nodes.statements, List.forall_mem_append] at named
      rw [Relabel.statements, Rename.statements, Rename.statements]
      apply (statement answers first named.1).bind
      intro given given' same
      apply (statements answers others named.2).bind
      intro rest rest' sameRest
      apply pure
      rw [Relabel.statements, Relabel.statements, same, sameRest]

theorem block (answers : Answers relates change names) : ∀ body : Block,
    (∀ node ∈ Nodes.block (strip.block body), node.NamedIn names) →
    Echoes relates blank.block (Rename.block body : Renaming oracle Block)
      (Rename.block (change.block body))
  | .mk pos body, named => by
      rw [Relabel.block, Nodes.block, List.forall_mem_cons] at named
      rw [Relabel.block, Rename.block, Rename.block]
      apply (statements answers body named.2).bind
      intro given given' same
      apply pure
      rw [Relabel.block, Relabel.block, same]
      rfl

theorem methods (answers : Answers relates change names) : ∀ members : List Function,
    (∀ node ∈ Nodes.functions (strip.functions members), node.NamedIn names) →
    Echoes relates blank.functions (Rename.methods members : Renaming oracle (List Function))
      (Rename.methods (change.functions members))
  | [], _ => pure rfl
  | .mk pos name params body :: others, named => by
      simp only [Relabel.functions, Relabel.function, Nodes.functions, Nodes.function,
        List.forall_mem_cons, List.forall_mem_append] at named
      rw [Relabel.functions, Relabel.function, Rename.methods, Rename.methods]
      apply (method answers named.1.2.1).bind
      intro called called' same
      apply (parameters answers params named.1.2.2.1).bind
      intro given given' sameParams
      apply (block answers body named.1.2.2.2).bind
      intro inside inside' sameBody
      apply (methods answers others named.2).bind
      intro rest rest' sameRest
      apply pure
      rw [Relabel.functions, Relabel.functions, Relabel.function, Relabel.function, same,
        sameParams, sameBody, sameRest]
      rfl

theorem constructor (answers : Answers relates change names) : ∀ initialiser : Constructor,
    (∀ node ∈ Nodes.constructor (strip.constructor initialiser), node.NamedIn names) →
    Echoes relates blank.constructor (Rename.constructor initialiser : Renaming oracle Constructor)
      (Rename.constructor (change.constructor initialiser))
  | .mk pos params body, named => by
      simp only [Relabel.constructor, Nodes.constructor, List.forall_mem_cons,
        List.forall_mem_append] at named
      rw [Relabel.constructor, Rename.constructor, Rename.constructor]
      apply (parameters answers params named.2.1).bind
      intro given given' sameParams
      apply (block answers body named.2.2).bind
      intro inside inside' sameBody
      apply pure
      rw [Relabel.constructor, Relabel.constructor, sameParams, sameBody]
      rfl

theorem arms (answers : Answers relates change names) : ∀ alternatives : List Arm,
    (∀ node ∈ Nodes.arms (strip.arms alternatives), node.NamedIn names) →
    Echoes relates blank.arms (Rename.arms alternatives : Renaming oracle (List Arm))
      (Rename.arms (change.arms alternatives))
  | [], _ => pure rfl
  | .mk pos test body :: others, named => by
      simp only [Relabel.arms, Relabel.arm, Nodes.arms, Nodes.arm, List.forall_mem_cons,
        List.forall_mem_append] at named
      rw [Relabel.arms, Relabel.arm, Rename.arms, Rename.arms]
      apply (expr answers test named.1.2.1).bind
      intro given given' same
      apply (block answers body named.1.2.2).bind
      intro inside inside' sameBody
      apply (arms answers others named.2).bind
      intro rest rest' sameRest
      apply pure
      rw [Relabel.arms, Relabel.arms, Relabel.arm, Relabel.arm, same, sameBody, sameRest]
      rfl

end

end Echoes

end Naming

/-- A relabelled program is written as the program itself, if all its names are answered alike. -/
theorem Program.generate_relabel {oracle : Naming.Oracle}
    {relates : Naming.Table oracle → Naming.Table oracle → Prop} {change : Relabel}
    {names : List String} (answers : Naming.Answers relates change names)
    (start : relates (.empty oracle) (.empty oracle)) {program : Program}
    (named : ∀ node ∈ (Relabel.strip.program program).nodes, node.NamedIn names) (indent : Nat) :
    (change.program program).generate oracle indent = program.generate oracle indent := by
  obtain ⟨-, echoed⟩ := (Naming.Echoes.statements answers program.statements named).run _ _ start
  have same : Relabel.blank.program ((change.program program).rename oracle) =
      Relabel.blank.program (program.rename oracle) := congrArg Program.mk echoed
  have blanked : ∀ renamed : Program,
      (Relabel.blank.program renamed).javaScript indent = renamed.javaScript indent :=
    fun renamed => congrArg "\n".intercalate (JavaScript.statements_blank _ renamed.statements)
  rw [Program.generate, ← blanked, same, blanked]
  rfl

end Qalam
