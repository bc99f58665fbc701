/-
# Renaming is a substitution

Names are given one after the other, but what comes out is the program in which every entity and
every field has been replaced by its name. The names are those of the table that is left in the
end, and any completion of it serves as well.
-/

import Qalam.Naming.Rename
import Qalam.Proofs.Naming.Table
import Qalam.Proofs.Structure.Parts

namespace Qalam.Naming

namespace Names

variable (names : Names)

/-- The name of a declared or used identifier. -/
def identifier : Option EntityId → String → String
  | some id, _ => names.entity id
  | none, spelling => names.field spelling

/-- A field under its name. -/
def ofField (field : Field) : Field := { field with name := names.field field.name }

/-- A declaration under its name. -/
def ofBinding (name : Binding) : Binding :=
  { name with name := names.identifier name.entity name.name }

/-- The declaration of a method under its name. -/
def ofMethod (name : Binding) : Binding := { name with name := names.field name.name }

/-- A parameter under its name. -/
def ofParameter (param : Parameter) : Parameter :=
  { param with name := names.identifier param.entity param.name }

mutual

/-- An expression with all names replaced. -/
def expr : Expr → Expr
  | .literal note value => .literal note value
  | .ident note name entity => .ident note (names.identifier entity name) entity
  | .call note callee args => .call note (expr callee) (exprs args)
  | .this note name => .this note (names.ofField name)
  | .new note target args => .new note (expr target) (exprs args)
  | .typeOf note operand => .typeOf note (expr operand)
  | .ternary note condition yes no => .ternary note (expr condition) (expr yes) (expr no)
  | .binary note op left right => .binary note op (expr left) (expr right)
  | .unary note op side operand => .unary note op side (expr operand)
  | .array note elements => .array note (exprs elements)
  | .object note entries => .object note (pairs entries)
  | .member note base index => .member note (expr base) (expr index)
  | .property note base name => .property note (expr base) (names.ofField name)

/-- Expressions with all names replaced. -/
def exprs : List Expr → List Expr
  | [] => []
  | e :: others => expr e :: exprs others

/-- An entry of an object literal with all names replaced. A plain name as a key is a field. -/
def pair : Pair → Pair
  | .mk pos (.ident note name entity) value canonical =>
    .mk pos (.ident note (names.field name) entity) (expr value) canonical
  | .mk pos key value canonical => .mk pos (expr key) (expr value) canonical

/-- The entries of an object literal with all names replaced. -/
def pairs : List Pair → List Pair
  | [] => []
  | entry :: others => pair entry :: pairs others

end

/-- A value, if there is one, with all names replaced. -/
def optional (value : Option Expr) : Option Expr := value.map names.expr

/-- A declaration and its value with all names replaced. -/
def declarator (entry : Binding × Option Expr) : Binding × Option Expr :=
  (names.ofBinding entry.1, names.optional entry.2)

mutual

/-- A statement with all names replaced. -/
def statement : Statement → Statement
  | .declare pos constant name init =>
    .declare pos constant (names.ofBinding name) (names.optional init)
  | .declareAll pos constant entries => .declareAll pos constant (entries.map names.declarator)
  | .assign pos target value => .assign pos (names.expr target) (names.expr value)
  | .tryCatch pos body name handler =>
    .tryCatch pos (block body) (names.ofBinding name) (block handler)
  | .classDef pos name (some initialiser) bodyPos members =>
    .classDef pos (names.ofBinding name) (some (constructor initialiser)) bodyPos
      (methods members)
  | .classDef pos name none bodyPos members =>
    .classDef pos (names.ofBinding name) none bodyPos (methods members)
  | .function (.mk pos name params body) =>
    .function (.mk pos (names.ofBinding name) (params.map names.ofParameter) (block body))
  | .ifElse pos alternatives (some otherwise) =>
    .ifElse pos (arms alternatives) (some (block otherwise))
  | .ifElse pos alternatives none => .ifElse pos (arms alternatives) none
  | .whileLoop pos condition body => .whileLoop pos (names.expr condition) (block body)
  | .forLoop pos name init condition step body =>
    .forLoop pos (names.ofBinding name) (names.expr init) (names.expr condition)
      (names.expr step) (block body)
  | .forOf pos name iterable body =>
    .forOf pos (names.ofBinding name) (names.expr iterable) (block body)
  | .switch pos selector alternatives (some otherwise) =>
    .switch pos (names.expr selector) (arms alternatives) (some (block otherwise))
  | .switch pos selector alternatives none =>
    .switch pos (names.expr selector) (arms alternatives) none
  | .returns pos value => .returns pos (names.optional value)
  | .print pos argument => .print pos (names.expr argument)
  | .breakLoop pos => .breakLoop pos
  | .continueLoop pos => .continueLoop pos
  | .expr pos e => .expr pos (names.expr e)

/-- Statements with all names replaced. -/
def statements : List Statement → List Statement
  | [] => []
  | first :: others => statement first :: statements others

/-- A block with all names replaced. -/
def block : Block → Block
  | .mk pos body => .mk pos (statements body)

/-- Methods with all names replaced. -/
def methods : List Function → List Function
  | [] => []
  | .mk pos name params body :: others =>
    .mk pos (names.ofMethod name) (params.map names.ofParameter) (block body) :: methods others

/-- A constructor with all names replaced. -/
def constructor : Constructor → Constructor
  | .mk pos params body => .mk pos (params.map names.ofParameter) (block body)

/-- Alternatives with all names replaced. -/
def arms : List Arm → List Arm
  | [] => []
  | .mk pos test body :: others => .mk pos (names.expr test) (block body) :: arms others

end

/-! ## The expressions of a renamed program -/

theorem isName_expr (e : Expr) : Parts.isName (names.expr e) = Parts.isName e := by
  cases e <;> simp [expr, Parts.isName]

/-- A key that is no plain name is renamed like any other expression. -/
theorem pair_of_not_isName {pos : Position} {key value : Expr} {canonical : Option String}
    (other : Parts.isName key = false) :
    names.pair (.mk pos key value canonical) =
      .mk pos (names.expr key) (names.expr value) canonical := by
  rw [pair]
  rintro note name entity rfl
  cases other

mutual

theorem parts_expr : ∀ e : Expr, Parts.expr (names.expr e) = (Parts.expr e).map names.expr
  | .literal note value | .ident note name entity | .this note field => by
      simp [expr, Parts.expr]
  | .call note callee args | .new note callee args => by
      simp [expr, Parts.expr, parts_expr callee, parts_exprs args]
  | .typeOf note operand | .unary note op side operand | .property note operand field => by
      simp [expr, Parts.expr, parts_expr operand]
  | .ternary note condition yes no => by
      simp [expr, Parts.expr, parts_expr condition, parts_expr yes, parts_expr no]
  | .binary note op left right | .member note left right => by
      simp [expr, Parts.expr, parts_expr left, parts_expr right]
  | .array note elements => by
      simp [expr, Parts.expr, parts_exprs elements]
  | .object note entries => by
      simp [expr, Parts.expr, parts_pairs entries]

theorem parts_exprs : ∀ es : List Expr,
    Parts.exprs (names.exprs es) = (Parts.exprs es).map names.expr
  | [] => rfl
  | e :: others => by
      simp [exprs, Parts.exprs, parts_expr e, parts_exprs others]

theorem parts_pair : ∀ entry : Pair,
    Parts.pair (names.pair entry) = (Parts.pair entry).map names.expr
  | .mk pos key value canonical => by
      by_cases plain : Parts.isName key = true
      · cases key with
        | ident note name entity => simp [pair, Parts.pair, Parts.isName, parts_expr value]
        | _ => cases plain
      · rw [Bool.not_eq_true] at plain
        rw [pair_of_not_isName names plain]
        simp [Parts.pair, isName_expr, plain, parts_expr key, parts_expr value]

theorem parts_pairs : ∀ entries : List Pair,
    Parts.pairs (names.pairs entries) = (Parts.pairs entries).map names.expr
  | [] => rfl
  | entry :: others => by
      simp [pairs, Parts.pairs, parts_pair entry, parts_pairs others]

end

theorem parts_optional : ∀ value : Option Expr,
    Parts.optional (names.optional value) = (Parts.optional value).map names.expr
  | some e => names.parts_expr e
  | none => rfl

theorem parts_declarators (entries : List (Binding × Option Expr)) :
    ((entries.map names.declarator).flatMap fun entry => Parts.optional entry.2) =
      (entries.flatMap fun entry => Parts.optional entry.2).map names.expr := by
  induction entries with
  | nil => rfl
  | cons entry others ih => simp_all [declarator, parts_optional]

mutual

theorem parts_statement : ∀ s : Statement,
    Parts.statement (names.statement s) = (Parts.statement s).map names.expr
  | .declare pos constant name init => by
      simp [statement, Parts.statement, parts_optional]
  | .declareAll pos constant entries => by
      rw [statement, Parts.statement, Parts.statement, parts_declarators]
  | .assign pos target value => by
      simp [statement, Parts.statement, parts_expr]
  | .tryCatch pos body name handler => by
      simp [statement, Parts.statement, parts_block body, parts_block handler]
  | .classDef pos name (some initialiser) bodyPos members => by
      simp [statement, Parts.statement, parts_constructor initialiser, parts_methods members]
  | .classDef pos name none bodyPos members => by
      simp [statement, Parts.statement, parts_methods members]
  | .function (.mk pos name params body) => by
      simp [statement, Parts.statement, Parts.function, parts_block body]
  | .ifElse pos alternatives (some otherwise) => by
      simp [statement, Parts.statement, parts_arms alternatives, parts_block otherwise]
  | .ifElse pos alternatives none => by
      simp [statement, Parts.statement, parts_arms alternatives]
  | .whileLoop pos condition body => by
      simp [statement, Parts.statement, parts_expr, parts_block body]
  | .forLoop pos name init condition step body => by
      simp [statement, Parts.statement, parts_expr, parts_block body]
  | .forOf pos name iterable body => by
      simp [statement, Parts.statement, parts_expr, parts_block body]
  | .switch pos selector alternatives (some otherwise) => by
      simp [statement, Parts.statement, parts_expr, parts_arms alternatives,
        parts_block otherwise]
  | .switch pos selector alternatives none => by
      simp [statement, Parts.statement, parts_expr, parts_arms alternatives]
  | .returns pos value => by
      simp [statement, Parts.statement, parts_optional]
  | .print pos argument => by
      simp [statement, Parts.statement, parts_expr]
  | .breakLoop pos | .continueLoop pos => by
      simp [statement, Parts.statement]
  | .expr pos e => by
      simp [statement, Parts.statement, parts_expr]

theorem parts_statements : ∀ body : List Statement,
    Parts.statements (names.statements body) = (Parts.statements body).map names.expr
  | [] => rfl
  | first :: others => by
      simp [statements, Parts.statements, parts_statement first, parts_statements others]

theorem parts_block : ∀ body : Block,
    Parts.block (names.block body) = (Parts.block body).map names.expr
  | .mk pos body => by
      simp [block, Parts.block, parts_statements body]

theorem parts_methods : ∀ members : List Function,
    Parts.functions (names.methods members) = (Parts.functions members).map names.expr
  | [] => rfl
  | .mk pos name params body :: others => by
      simp [methods, Parts.functions, Parts.function, parts_block body, parts_methods others]

theorem parts_constructor : ∀ initialiser : Constructor,
    Parts.constructor (names.constructor initialiser) =
      (Parts.constructor initialiser).map names.expr
  | .mk pos params body => by
      simp [constructor, Parts.constructor, parts_block body]

theorem parts_arms : ∀ alternatives : List Arm,
    Parts.arms (names.arms alternatives) = (Parts.arms alternatives).map names.expr
  | [] => rfl
  | .mk pos test body :: others => by
      simp [arms, Parts.arms, Parts.arm, parts_expr, parts_block body, parts_arms others]

end

end Names

/-! ## Every request is answered by the names in the end -/

variable {oracle : Oracle} {α β : Type}

/-- From a sound table a computation reaches a sound table, and gives what all names that agree
with the table reached determine. -/
def Gives (action : Renaming oracle α) (value : Names → α) : Prop :=
  ∀ table : Table oracle, table.Sound →
    (action.run table).2.Sound ∧ ∀ names : Names, names.Agrees (action.run table).2 →
      names.Agrees table ∧ (action.run table).1 = value names

namespace Gives

theorem pure (value : α) : Gives (Pure.pure value : Renaming oracle α) fun _ => value :=
  fun _ sound => ⟨sound, fun _ agrees => ⟨agrees, rfl⟩⟩

/-- One computation after the other. -/
theorem bind {action : Renaming oracle α} {first : Names → α} {next : α → Renaming oracle β}
    {second : α → Names → β} {value : Names → β} (gives : Gives action first)
    (further : ∀ found, Gives (next found) (second found))
    (fits : ∀ names, second (first names) names = value names) :
    Gives (action >>= next) value := by
  intro table sound
  obtain ⟨sound', here⟩ := gives table sound
  obtain ⟨sound'', there⟩ := further (action.run table).1 (action.run table).2 sound'
  refine ⟨sound'', fun names agrees => ?_⟩
  obtain ⟨agrees', result⟩ := there names agrees
  obtain ⟨agrees'', found⟩ := here names agrees'
  refine ⟨agrees'', ?_⟩
  rw [← fits, ← found]
  exact result

/-- A computation of which only the result is changed. -/
theorem map {action : Renaming oracle α} {first : Names → α} (gives : Gives action first)
    (change : α → β) :
    Gives (action >>= fun found => Pure.pure (change found)) fun names => change (first names) :=
  gives.bind (fun found => Gives.pure (change found)) fun _ => rfl

theorem table_field (spelling : String) :
    Gives (Table.field spelling : Renaming oracle String) fun names => names.field spelling :=
  fun _ sound => Table.field_spec sound spelling

theorem identifier (entity : Option EntityId) (spelling : String) :
    Gives (Table.identifier entity spelling : Renaming oracle String)
      fun names => names.identifier entity spelling := by
  intro table sound
  cases entity with
  | some id => exact Table.entity_spec sound id spelling
  | none => exact Table.field_spec sound spelling

theorem field (name : Field) :
    Gives (Rename.field name : Renaming oracle Field) fun names => names.ofField name :=
  (table_field name.name).map _

theorem binding (name : Binding) :
    Gives (Rename.binding name : Renaming oracle Binding) fun names => names.ofBinding name :=
  (identifier name.entity name.name).map _

theorem method (name : Binding) :
    Gives (Rename.method name : Renaming oracle Binding) fun names => names.ofMethod name :=
  (table_field name.name).map _

theorem parameters (params : List Parameter) :
    Gives (Rename.parameters params : Renaming oracle (List Parameter))
      fun names => params.map names.ofParameter := by
  induction params with
  | nil => exact Gives.pure []
  | cons param others ih =>
      exact (identifier param.entity param.name).bind (fun _ => ih.map _) fun _ => rfl

mutual

theorem expr : ∀ e : Expr,
    Gives (Rename.expr e : Renaming oracle Expr) fun names => names.expr e
  | .literal note value => by
      rw [Rename.expr]
      exact Gives.pure _
  | .ident note name entity => by
      rw [Rename.expr]
      exact (identifier entity name).map _
  | .call note callee args => by
      rw [Rename.expr]
      exact (expr callee).bind (fun _ => (exprs args).map _) fun _ => rfl
  | .this note name => by
      rw [Rename.expr]
      exact (field name).map _
  | .new note target args => by
      rw [Rename.expr]
      exact (expr target).bind (fun _ => (exprs args).map _) fun _ => rfl
  | .typeOf note operand => by
      rw [Rename.expr]
      exact (expr operand).map _
  | .ternary note condition yes no => by
      rw [Rename.expr]
      exact (expr condition).bind
        (fun _ => (expr yes).bind (fun _ => (expr no).map _) fun _ => rfl) fun _ => rfl
  | .binary note op left right => by
      rw [Rename.expr]
      exact (expr left).bind (fun _ => (expr right).map _) fun _ => rfl
  | .unary note op side operand => by
      rw [Rename.expr]
      exact (expr operand).map _
  | .array note elements => by
      rw [Rename.expr]
      exact (exprs elements).map _
  | .object note entries => by
      rw [Rename.expr]
      exact (pairs entries).map _
  | .member note base index => by
      rw [Rename.expr]
      exact (expr base).bind (fun _ => (expr index).map _) fun _ => rfl
  | .property note base name => by
      rw [Rename.expr]
      exact (expr base).bind (fun _ => (field name).map _) fun _ => rfl

theorem exprs : ∀ es : List Expr,
    Gives (Rename.exprs es : Renaming oracle (List Expr)) fun names => names.exprs es
  | [] => Gives.pure []
  | e :: others => by
      rw [Rename.exprs]
      exact (expr e).bind (fun _ => (exprs others).map _) fun _ => rfl

theorem pair : ∀ entry : Pair,
    Gives (Rename.pair entry : Renaming oracle Pair) fun names => names.pair entry
  | .mk pos key value canonical => by
      by_cases plain : ∃ note name entity, key = .ident note name entity
      · obtain ⟨note, name, entity, rfl⟩ := plain
        rw [Rename.pair]
        simp only [pure_bind]
        exact (table_field name).bind (fun _ => (expr value).map _) fun _ => rfl
      · have other : ∀ note name entity, key = .ident note name entity → False :=
          fun note name entity same => plain ⟨note, name, entity, same⟩
        rw [Rename.pair]
        · refine (expr key).bind (fun _ => (expr value).map _) fun names => ?_
          rw [Names.pair]
          exact other
        · exact other

theorem pairs : ∀ entries : List Pair,
    Gives (Rename.pairs entries : Renaming oracle (List Pair)) fun names => names.pairs entries
  | [] => Gives.pure []
  | entry :: others => by
      rw [Rename.pairs]
      exact (pair entry).bind (fun _ => (pairs others).map _) fun _ => rfl

end

theorem optional : ∀ value : Option Expr,
    Gives (Rename.optional value : Renaming oracle (Option Expr)) fun names => names.optional value
  | some e => (expr e).map _
  | none => Gives.pure none

theorem declarators : ∀ entries : List (Binding × Option Expr),
    Gives (Rename.declarators entries : Renaming oracle (List (Binding × Option Expr)))
      fun names => entries.map names.declarator
  | [] => Gives.pure []
  | (name, init) :: others =>
      (binding name).bind (fun _ => (optional init).bind
        (fun _ => (declarators others).map _) fun _ => rfl) fun _ => rfl

mutual

theorem statement : ∀ s : Statement,
    Gives (Rename.statement s : Renaming oracle Statement) fun names => names.statement s
  | .declare pos constant name init => by
      rw [Rename.statement]
      exact (binding name).bind (fun _ => (optional init).map _) fun _ => rfl
  | .declareAll pos constant entries => by
      rw [Rename.statement]
      exact (declarators entries).map _
  | .assign pos target value => by
      rw [Rename.statement]
      exact (expr target).bind (fun _ => (expr value).map _) fun _ => rfl
  | .tryCatch pos body name handler => by
      rw [Rename.statement]
      exact (block body).bind (fun _ => (binding name).bind
        (fun _ => (block handler).map _) fun _ => rfl) fun _ => rfl
  | .classDef pos name (some initialiser) bodyPos members => by
      rw [Rename.statement]
      exact (binding name).bind (fun _ => ((constructor initialiser).map some).bind
        (fun _ => (methods members).map _) fun _ => rfl) fun _ => rfl
  | .classDef pos name none bodyPos members => by
      rw [Rename.statement]
      exact (binding name).bind (fun _ => (Gives.pure none).bind
        (fun _ => (methods members).map _) fun _ => rfl) fun _ => rfl
  | .function (.mk pos name params body) => by
      rw [Rename.statement]
      exact (binding name).bind (fun _ => (parameters params).bind
        (fun _ => (block body).map _) fun _ => rfl) fun _ => rfl
  | .ifElse pos alternatives (some otherwise) => by
      rw [Rename.statement]
      exact (arms alternatives).bind
        (fun _ => ((block otherwise).map some).map _) fun _ => rfl
  | .ifElse pos alternatives none => by
      rw [Rename.statement]
      exact (arms alternatives).bind (fun _ => (Gives.pure none).map _) fun _ => rfl
  | .whileLoop pos condition body => by
      rw [Rename.statement]
      exact (expr condition).bind (fun _ => (block body).map _) fun _ => rfl
  | .forLoop pos name init condition step body => by
      rw [Rename.statement]
      exact (binding name).bind (fun _ => (expr init).bind (fun _ => (expr condition).bind
        (fun _ => (expr step).bind (fun _ => (block body).map _) fun _ => rfl) fun _ => rfl)
          fun _ => rfl) fun _ => rfl
  | .forOf pos name iterable body => by
      rw [Rename.statement]
      exact (binding name).bind (fun _ => (expr iterable).bind
        (fun _ => (block body).map _) fun _ => rfl) fun _ => rfl
  | .switch pos selector alternatives (some otherwise) => by
      rw [Rename.statement]
      exact (expr selector).bind (fun _ => (arms alternatives).bind
        (fun _ => ((block otherwise).map some).map _) fun _ => rfl) fun _ => rfl
  | .switch pos selector alternatives none => by
      rw [Rename.statement]
      exact (expr selector).bind (fun _ => (arms alternatives).bind
        (fun _ => (Gives.pure none).map _) fun _ => rfl) fun _ => rfl
  | .returns pos value => by
      rw [Rename.statement]
      exact (optional value).map _
  | .print pos argument => by
      rw [Rename.statement]
      exact (expr argument).map _
  | .breakLoop pos => by
      rw [Rename.statement]
      exact Gives.pure _
  | .continueLoop pos => by
      rw [Rename.statement]
      exact Gives.pure _
  | .expr pos e => by
      rw [Rename.statement]
      exact (expr e).map _

theorem statements : ∀ body : List Statement,
    Gives (Rename.statements body : Renaming oracle (List Statement))
      fun names => names.statements body
  | [] => Gives.pure []
  | first :: others => by
      rw [Rename.statements]
      exact (statement first).bind (fun _ => (statements others).map _) fun _ => rfl

theorem block : ∀ body : Block,
    Gives (Rename.block body : Renaming oracle Block) fun names => names.block body
  | .mk pos body => by
      rw [Rename.block]
      exact (statements body).map _

theorem methods : ∀ members : List Function,
    Gives (Rename.methods members : Renaming oracle (List Function))
      fun names => names.methods members
  | [] => Gives.pure []
  | .mk pos name params body :: others => by
      rw [Rename.methods]
      exact (method name).bind (fun _ => (parameters params).bind (fun _ => (block body).bind
        (fun _ => (methods others).map _) fun _ => rfl) fun _ => rfl) fun _ => rfl

theorem constructor : ∀ initialiser : Constructor,
    Gives (Rename.constructor initialiser : Renaming oracle Constructor)
      fun names => names.constructor initialiser
  | .mk pos params body => by
      rw [Rename.constructor]
      exact (parameters params).bind (fun _ => (block body).map _) fun _ => rfl

theorem arms : ∀ alternatives : List Arm,
    Gives (Rename.arms alternatives : Renaming oracle (List Arm))
      fun names => names.arms alternatives
  | [] => Gives.pure []
  | .mk pos test body :: others => by
      rw [Rename.arms]
      exact (expr test).bind (fun _ => (block body).bind
        (fun _ => (arms others).map _) fun _ => rfl) fun _ => rfl

end

end Gives

end Qalam.Naming

namespace Qalam

/-- The names that an oracle leads to are proper, and the renamed program is the program with all
names replaced by them. -/
theorem Program.rename_eq_substitution (program : Program) (oracle : Naming.Oracle) :
    ∃ names : Naming.Names, names.Proper ∧
      program.rename oracle = ⟨names.statements program.statements⟩ := by
  have gives := @Naming.Gives.statements oracle program.statements
  obtain ⟨sound, determined⟩ := gives (.empty oracle) (Naming.Table.sound_empty oracle)
  obtain ⟨-, same⟩ := determined _ (Naming.Table.agrees_names _)
  exact ⟨_, sound.proper_names, congrArg Program.mk same⟩

end Qalam
