/-
# Where names come from

Giving names to a program asks for names and does nothing else with the table, so what is kept by
every request holds of the table in the end. One such fact is the origin of names: a name is what
the oracle has proposed for the spelling, made usable, or has an underscore in it, since both the
numbered names and the suffixes have one.
-/

import Qalam.Naming.Rename
import Qalam.Proofs.Naming.Table

namespace Qalam.Naming

/-- At some time the oracle proposes a word for a spelling, up to what makes it usable. -/
def Oracle.Proposes (oracle : Oracle) (spelling word : String) : Prop :=
  ∃ memory, (oracle.ask memory spelling).1.bind sanitize? = some word

variable {oracle : Oracle} {α β : Type}

/-! ## Renaming by requests -/

/-- A computation that changes the table by requests only. -/
def Asks (action : Renaming oracle α) : Prop :=
  ∀ table : Table oracle, table.Reached → (action.run table).2.Reached

namespace Asks

theorem pure (value : α) : Asks (Pure.pure value : Renaming oracle α) :=
  fun _ reached => reached

/-- One computation after the other. -/
theorem bind {action : Renaming oracle α} {next : α → Renaming oracle β} (here : Asks action)
    (there : ∀ found, Asks (next found)) : Asks (action >>= next) :=
  fun table reached => there (action.run table).1 (action.run table).2 (here table reached)

/-- A computation of which only the result is changed. -/
theorem map {action : Renaming oracle α} (here : Asks action) (change : α → β) :
    Asks (action >>= fun found => Pure.pure (change found)) :=
  here.bind fun found => Asks.pure (change found)

theorem table_field (spelling : String) :
    Asks (Table.field spelling : Renaming oracle String) :=
  fun _ reached => reached.field spelling

theorem identifier (entity : Option EntityId) (spelling : String) :
    Asks (Table.identifier entity spelling : Renaming oracle String) := by
  intro table reached
  cases entity with
  | some id => exact reached.entity id spelling
  | none => exact reached.field spelling

theorem field (name : Field) : Asks (Rename.field name : Renaming oracle Field) :=
  (table_field name.name).map _

theorem binding (name : Binding) : Asks (Rename.binding name : Renaming oracle Binding) :=
  (identifier name.entity name.name).map _

theorem method (name : Binding) : Asks (Rename.method name : Renaming oracle Binding) :=
  (table_field name.name).map _

theorem parameters : ∀ params : List Parameter,
    Asks (Rename.parameters params : Renaming oracle (List Parameter))
  | [] => Asks.pure []
  | param :: others => by
      rw [Rename.parameters]
      exact (identifier param.entity param.name).bind fun _ => (parameters others).map _

mutual

theorem expr : ∀ e : Expr, Asks (Rename.expr e : Renaming oracle Expr)
  | .literal note value => by
      rw [Rename.expr]
      exact Asks.pure _
  | .ident note name entity => by
      rw [Rename.expr]
      exact (identifier entity name).map _
  | .call note base args | .new note base args => by
      rw [Rename.expr]
      exact (expr base).bind fun _ => (exprs args).map _
  | .this note name => by
      rw [Rename.expr]
      exact (field name).map _
  | .typeOf note operand | .unary note op side operand => by
      rw [Rename.expr]
      exact (expr operand).map _
  | .ternary note condition yes no => by
      rw [Rename.expr]
      exact (expr condition).bind fun _ => (expr yes).bind fun _ => (expr no).map _
  | .binary note op left right | .member note left right => by
      rw [Rename.expr]
      exact (expr left).bind fun _ => (expr right).map _
  | .array note elements => by
      rw [Rename.expr]
      exact (exprs elements).map _
  | .object note entries => by
      rw [Rename.expr]
      exact (pairs entries).map _
  | .property note base name => by
      rw [Rename.expr]
      exact (expr base).bind fun _ => (field name).map _

theorem exprs : ∀ es : List Expr, Asks (Rename.exprs es : Renaming oracle (List Expr))
  | [] => Asks.pure []
  | e :: others => by
      rw [Rename.exprs]
      exact (expr e).bind fun _ => (exprs others).map _

theorem pair : ∀ entry : Pair, Asks (Rename.pair entry : Renaming oracle Pair)
  | .mk pos key value canonical => by
      unfold Rename.pair
      dsimp only
      split
      · exact (table_field _).bind fun _ => (Asks.pure _).bind fun _ => (expr value).map _
      · exact (expr key).bind fun _ => (expr value).map _

theorem pairs : ∀ entries : List Pair,
    Asks (Rename.pairs entries : Renaming oracle (List Pair))
  | [] => Asks.pure []
  | entry :: others => by
      rw [Rename.pairs]
      exact (pair entry).bind fun _ => (pairs others).map _

end

theorem optional : ∀ value : Option Expr,
    Asks (Rename.optional value : Renaming oracle (Option Expr))
  | some e => (expr e).map _
  | none => Asks.pure none

theorem declarators : ∀ entries : List (Binding × Option Expr),
    Asks (Rename.declarators entries : Renaming oracle (List (Binding × Option Expr)))
  | [] => Asks.pure []
  | (name, init) :: others =>
      (binding name).bind fun _ => (optional init).bind fun _ => (declarators others).map _

mutual

theorem statement : ∀ s : Statement, Asks (Rename.statement s : Renaming oracle Statement)
  | .declare pos constant name init => by
      rw [Rename.statement]
      exact (binding name).bind fun _ => (optional init).map _
  | .declareAll pos constant entries => by
      rw [Rename.statement]
      exact (declarators entries).map _
  | .assign pos target value => by
      rw [Rename.statement]
      exact (expr target).bind fun _ => (expr value).map _
  | .tryCatch pos body name handler => by
      rw [Rename.statement]
      exact (block body).bind fun _ => (binding name).bind fun _ => (block handler).map _
  | .classDef pos name (some initialiser) bodyPos members => by
      rw [Rename.statement]
      exact (binding name).bind fun _ => ((constructor initialiser).map some).bind
        fun _ => (methods members).map _
  | .classDef pos name none bodyPos members => by
      rw [Rename.statement]
      exact (binding name).bind fun _ => (methods members).map _
  | .function (.mk pos name params body) => by
      rw [Rename.statement]
      exact (binding name).bind fun _ => (parameters params).bind fun _ => (block body).map _
  | .ifElse pos alternatives (some otherwise) => by
      rw [Rename.statement]
      exact (arms alternatives).bind fun _ => ((block otherwise).map some).map _
  | .ifElse pos alternatives none => by
      rw [Rename.statement]
      exact (arms alternatives).map _
  | .whileLoop pos condition body => by
      rw [Rename.statement]
      exact (expr condition).bind fun _ => (block body).map _
  | .forLoop pos name init condition step body => by
      rw [Rename.statement]
      exact (binding name).bind fun _ => (expr init).bind fun _ => (expr condition).bind
        fun _ => (expr step).bind fun _ => (block body).map _
  | .forOf pos name iterable body => by
      rw [Rename.statement]
      exact (binding name).bind fun _ => (expr iterable).bind fun _ => (block body).map _
  | .switch pos selector alternatives (some otherwise) => by
      rw [Rename.statement]
      exact (expr selector).bind fun _ => (arms alternatives).bind
        fun _ => ((block otherwise).map some).map _
  | .switch pos selector alternatives none => by
      rw [Rename.statement]
      exact (expr selector).bind fun _ => (arms alternatives).map _
  | .returns pos value => by
      rw [Rename.statement]
      exact (optional value).map _
  | .print pos argument => by
      rw [Rename.statement]
      exact (expr argument).map _
  | .breakLoop pos | .continueLoop pos => by
      rw [Rename.statement]
      exact Asks.pure _
  | .expr pos e => by
      rw [Rename.statement]
      exact (expr e).map _

theorem statements : ∀ body : List Statement,
    Asks (Rename.statements body : Renaming oracle (List Statement))
  | [] => Asks.pure []
  | first :: others => by
      rw [Rename.statements]
      exact (statement first).bind fun _ => (statements others).map _

theorem block : ∀ body : Block, Asks (Rename.block body : Renaming oracle Block)
  | .mk pos body => by
      rw [Rename.block]
      exact (statements body).map _

theorem methods : ∀ members : List Function,
    Asks (Rename.methods members : Renaming oracle (List Function))
  | [] => Asks.pure []
  | .mk pos name params body :: others => by
      rw [Rename.methods]
      exact (method name).bind fun _ => (parameters params).bind fun _ => (block body).bind
        fun _ => (methods others).map _

theorem constructor : ∀ initialiser : Constructor,
    Asks (Rename.constructor initialiser : Renaming oracle Constructor)
  | .mk pos params body => by
      rw [Rename.constructor]
      exact (parameters params).bind fun _ => (block body).map _

theorem arms : ∀ alternatives : List Arm,
    Asks (Rename.arms alternatives : Renaming oracle (List Arm))
  | [] => Asks.pure []
  | .mk pos test body :: others => by
      rw [Rename.arms]
      exact (expr test).bind fun _ => (block body).bind fun _ => (arms others).map _

end

end Asks

/-! ## The origin of names -/

namespace Table

/-- Every base name is a numbered one or was proposed for its spelling. -/
def Grounded (table : Table oracle) : Prop :=
  ∀ entry ∈ table.candidates,
    (∃ count, entry.2 = "var_" ++ toString (count : Nat)) ∨ oracle.Proposes entry.1 entry.2

/-- Every base name has its origin, and every name of a field is the base name of its spelling
with a suffix. -/
structure Traceable (table : Table oracle) : Prop where
  grounded : Grounded table
  fields : ∀ entry ∈ table.fields, ∃ base suffix,
    (entry.1, base) ∈ table.candidates ∧ entry.2 = suffixed base suffix

/-- Asking for a base name keeps the origins of all others, and leads to one for the spelling. -/
theorem candidate_grounded {table : Table oracle} (grounded : Grounded table)
    (spelling : String) :
    Grounded ((candidate spelling).run table).2 ∧
      (spelling, ((candidate spelling).run table).1) ∈
        ((candidate spelling).run table).2.candidates ∧
      table.candidates ⊆ ((candidate spelling).run table).2.candidates ∧
      ((candidate spelling).run table).2.fields = table.fields := by
  cases known : table.candidates.lookup spelling with
  | some base =>
      rw [candidate_run_known known]
      obtain ⟨before, behind, split, -⟩ := List.lookup_eq_some_iff.mp known
      exact ⟨grounded, by simp [split], List.Subset.refl _, rfl⟩
  | none =>
      simp only [candidate, StateT.run_bind, StateT.run_get, pure_bind, known]
      cases proposed : (oracle.ask table.memory spelling).1.bind sanitize? with
      | some base =>
          have added : ∀ entry ∈ (spelling, base) :: table.candidates,
              (∃ count, entry.2 = "var_" ++ toString (count : Nat)) ∨
                oracle.Proposes entry.1 entry.2 := by
            rw [List.forall_mem_cons]
            exact ⟨.inr ⟨table.memory, proposed⟩, grounded⟩
          exact ⟨added, List.mem_cons_self, List.subset_cons_self _ _, rfl⟩
      | none =>
          have added : ∀ entry ∈
              (spelling, "var_" ++ toString (table.fallbacks + 1)) :: table.candidates,
              (∃ count, entry.2 = "var_" ++ toString (count : Nat)) ∨
                oracle.Proposes entry.1 entry.2 := by
            rw [List.forall_mem_cons]
            exact ⟨.inl ⟨table.fallbacks + 1, rfl⟩, grounded⟩
          exact ⟨added, List.mem_cons_self, List.subset_cons_self _ _, rfl⟩

/-- More base names do not hurt the names of fields. -/
theorem Traceable.candidate {table : Table oracle} (traceable : Traceable table)
    (spelling : String) : Traceable ((candidate spelling).run table).2 := by
  obtain ⟨grounded, -, more, same⟩ := candidate_grounded traceable.grounded spelling
  refine ⟨grounded, fun entry listed => ?_⟩
  rw [same] at listed
  obtain ⟨base, suffix, listed', named⟩ := traceable.fields entry listed
  exact ⟨base, suffix, more listed', named⟩

theorem Traceable.entity {table : Table oracle} (traceable : Traceable table) (id : EntityId)
    (spelling : String) : Traceable ((entity id spelling).run table).2 := by
  cases known : table.entities.lookup id with
  | some name =>
      rw [entity_run_known known]
      exact traceable
  | none =>
      rw [entity_run_new known]
      obtain ⟨grounded, fields⟩ := traceable.candidate spelling
      exact ⟨grounded, fields⟩

theorem Traceable.field {table : Table oracle} (traceable : Traceable table)
    (spelling : String) : Traceable ((field spelling).run table).2 := by
  cases known : table.fields.lookup spelling with
  | some name =>
      rw [field_run_known known]
      exact traceable
  | none =>
      rw [field_run_new known]
      obtain ⟨grounded, fields⟩ := traceable.candidate spelling
      obtain ⟨-, listed, -, -⟩ := candidate_grounded traceable.grounded spelling
      extract_lets asked name
      obtain ⟨-, suffix, named⟩ := fresh_spec asked.1 asked.2.takenFields
      refine ⟨grounded, ?_⟩
      rw [List.forall_mem_cons]
      exact ⟨⟨asked.1, suffix, listed, named⟩, fields⟩

theorem Reached.traceable {table : Table oracle} (reached : Reached table) :
    Traceable table := by
  induction reached with
  | empty => constructor <;> simp [Table.empty, Grounded]
  | entity id spelling _ ih => exact ih.entity id spelling
  | field spelling _ ih => exact ih.field spelling

/-- A name of a field without an underscore was proposed for its spelling. -/
theorem Traceable.proposes {table : Table oracle} (traceable : Traceable table)
    {spelling name : String} (given : table.fields.lookup spelling = some name)
    (plain : '_' ∉ name.toList) : oracle.Proposes spelling name := by
  obtain ⟨before, behind, split, -⟩ := List.lookup_eq_some_iff.mp given
  obtain ⟨base, suffix, listed, rfl⟩ :=
    traceable.fields (spelling, name) (by simp [split])
  -- A suffix comes behind an underscore, and so does the number of a numbered name.
  cases suffix with
  | succ suffix => simp [suffixed] at plain
  | zero =>
      rcases traceable.grounded (spelling, base) listed with ⟨count, rfl⟩ | proposed
      · simp [suffixed] at plain
      · exact proposed

end Table

end Qalam.Naming
