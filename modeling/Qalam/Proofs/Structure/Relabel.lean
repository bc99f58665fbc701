/-
# Changes of names and records

A tree has names, and beside it are recorded positions, and once it is bound also tags, entities and
canonical keys. A relabelling exchanges names and changes some of these records everywhere in a
tree. Its operators, its constants and the number and order of its parts stay as they are. Three
relabellings matter most: a relocation moves positions only, stripping forgets whatever binding has
added, and a respelling exchanges names only.
-/

import Qalam.Fault.Semantic
import Qalam.Proofs.Structure.Written

namespace Qalam

/-- A change of names, of the records beside a tree, and of the texts of keys where a fault mentions
one. What becomes of a recorded key may depend on the text of the key after the change. What is not
mentioned stays as it is. -/
structure Relabel where
  name : String → String := id
  pos : Position → Position := id
  tag : Option Tag → Option Tag := id
  entity : Option EntityId → Option EntityId := id
  key : String → Option String → Option String := fun _ recorded => recorded
  text : String → String := id

namespace Relabel

/-- The relabelling that changes nothing. -/
def identity : Relabel := {}

/-- The relabelling that moves positions. A recorded key may mention one, so it is renewed. -/
def relocate (move : Position → Position) : Relabel where
  pos := move
  key text recorded := recorded.map fun _ => text

/-- The relabelling that forgets what binding adds. -/
def strip : Relabel where
  tag _ := none
  entity _ := none
  key _ _ := none

/-- The relabelling that forgets all records. -/
def blank : Relabel where
  pos _ := .start
  tag _ := none
  entity _ := none
  key _ _ := none

variable (change : Relabel)

/-- The part of a relabelling that concerns names and positions, with another change of recorded
keys. -/
def moved (key : String → Option String → Option String) : Relabel :=
  { name := change.name, pos := change.pos, text := change.text, key }

/-- A relabelling that keeps names and adds nothing to a tree that was never bound. -/
structure Plain : Prop where
  name : ∀ name, change.name name = name
  tag : change.tag none = none
  entity : change.entity none = none
  key : ∀ text, change.key text none = none

theorem plain_relocate (move : Position → Position) : (relocate move).Plain :=
  ⟨fun _ => rfl, rfl, rfl, fun _ => rfl⟩

theorem plain_strip : strip.Plain := ⟨fun _ => rfl, rfl, rfl, fun _ => rfl⟩

theorem plain_blank : blank.Plain := ⟨fun _ => rfl, rfl, rfl, fun _ => rfl⟩

/-! ## Relabelled trees -/

/-- A token, with its position changed. -/
def token (token : Token) : Token := ⟨token.kind, change.pos token.pos⟩

/-- A relabelled note. -/
def note (note : Note) : Note := ⟨change.pos note.pos, change.tag note.tag⟩

/-- A relabelled field. -/
def field (field : Field) : Field := ⟨change.name field.name, change.note field.note⟩

/-- A relabelled declaration. -/
def binding (name : Binding) : Binding :=
  ⟨change.name name.name, change.pos name.pos, change.entity name.entity⟩

/-- A relabelled parameter. -/
def parameter (param : Parameter) : Parameter :=
  ⟨change.name param.name, change.note param.note, change.entity param.entity⟩

mutual

/-- A relabelled expression. -/
def expr : Expr → Expr
  | .literal note value => .literal (change.note note) value
  | .ident note name entity =>
    .ident (change.note note) (change.name name) (change.entity entity)
  | .call note callee args => .call (change.note note) (expr callee) (exprs args)
  | .this note field => .this (change.note note) (change.field field)
  | .new note target args => .new (change.note note) (expr target) (exprs args)
  | .typeOf note operand => .typeOf (change.note note) (expr operand)
  | .ternary note condition yes no =>
    .ternary (change.note note) (expr condition) (expr yes) (expr no)
  | .binary note op left right => .binary (change.note note) op (expr left) (expr right)
  | .unary note op side operand => .unary (change.note note) op side (expr operand)
  | .array note elements => .array (change.note note) (exprs elements)
  | .object note entries => .object (change.note note) (pairs entries)
  | .member note base index => .member (change.note note) (expr base) (expr index)
  | .property note base field => .property (change.note note) (expr base) (change.field field)

/-- Relabelled expressions. -/
def exprs : List Expr → List Expr
  | [] => []
  | e :: others => expr e :: exprs others

/-- A relabelled entry of an object literal. -/
def pair : Pair → Pair
  | .mk pos key value canonical =>
    .mk (change.pos pos) (expr key) (expr value) (change.key (expr key).keyText canonical)

/-- Relabelled entries of an object literal. -/
def pairs : List Pair → List Pair
  | [] => []
  | entry :: others => pair entry :: pairs others

end

/-- A declaration and its value, relabelled. -/
def declarator (entry : Binding × Option Expr) : Binding × Option Expr :=
  (change.binding entry.1, entry.2.map change.expr)

mutual

/-- A relabelled statement. -/
def statement : Statement → Statement
  | .declare pos constant name init =>
    .declare (change.pos pos) constant (change.binding name) (init.map change.expr)
  | .declareAll pos constant entries =>
    .declareAll (change.pos pos) constant (entries.map change.declarator)
  | .assign pos target value =>
    .assign (change.pos pos) (change.expr target) (change.expr value)
  | .tryCatch pos body name handler =>
    .tryCatch (change.pos pos) (block body) (change.binding name) (block handler)
  | .classDef pos name (some initialiser) bodyPos methods =>
    .classDef (change.pos pos) (change.binding name) (some (constructor initialiser))
      (change.pos bodyPos) (functions methods)
  | .classDef pos name none bodyPos methods =>
    .classDef (change.pos pos) (change.binding name) none (change.pos bodyPos) (functions methods)
  | .function declared => .function (function declared)
  | .ifElse pos alternatives (some otherwise) =>
    .ifElse (change.pos pos) (arms alternatives) (some (block otherwise))
  | .ifElse pos alternatives none => .ifElse (change.pos pos) (arms alternatives) none
  | .whileLoop pos condition body =>
    .whileLoop (change.pos pos) (change.expr condition) (block body)
  | .forLoop pos name init condition step body =>
    .forLoop (change.pos pos) (change.binding name) (change.expr init) (change.expr condition)
      (change.expr step) (block body)
  | .forOf pos name iterable body =>
    .forOf (change.pos pos) (change.binding name) (change.expr iterable) (block body)
  | .switch pos selector alternatives (some otherwise) =>
    .switch (change.pos pos) (change.expr selector) (arms alternatives) (some (block otherwise))
  | .switch pos selector alternatives none =>
    .switch (change.pos pos) (change.expr selector) (arms alternatives) none
  | .returns pos value => .returns (change.pos pos) (value.map change.expr)
  | .print pos argument => .print (change.pos pos) (change.expr argument)
  | .breakLoop pos => .breakLoop (change.pos pos)
  | .continueLoop pos => .continueLoop (change.pos pos)
  | .expr pos e => .expr (change.pos pos) (change.expr e)

/-- Relabelled statements. -/
def statements : List Statement → List Statement
  | [] => []
  | first :: others => statement first :: statements others

/-- A relabelled block. -/
def block : Block → Block
  | .mk pos body => .mk (change.pos pos) (statements body)

/-- A relabelled function or method. -/
def function : Function → Function
  | .mk pos name params body =>
    .mk (change.pos pos) (change.binding name) (params.map change.parameter) (block body)

/-- Relabelled functions. -/
def functions : List Function → List Function
  | [] => []
  | first :: others => function first :: functions others

/-- A relabelled constructor. -/
def constructor : Constructor → Constructor
  | .mk pos params body => .mk (change.pos pos) (params.map change.parameter) (block body)

/-- Relabelled alternatives. -/
def arms : List Arm → List Arm
  | [] => []
  | first :: others => arm first :: arms others

/-- A relabelled alternative. -/
def arm : Arm → Arm
  | .mk pos test body => .mk (change.pos pos) (change.expr test) (block body)

end

/-- A relabelled program. -/
def program (program : Program) : Program := ⟨change.statements program.statements⟩

/-- A declared entity, with its name changed. -/
def declared : Entity → Entity
  | .variable name constant tag => .variable (change.name name) constant tag
  | .function name => .function (change.name name)

/-- A table of entities, with their names changed. -/
def entities (entities : Entities) : Entities := ⟨entities.entries.map change.declared⟩

/-- A relabelled bound program. -/
def boundProgram (bound : BoundProgram) : BoundProgram :=
  ⟨change.program bound.program, change.entities bound.entities⟩

/-- A fault, with the name or the key in it changed. -/
def fault : SemanticFault → SemanticFault
  | .alreadyDeclared name => .alreadyDeclared (change.name name)
  | .notDeclared name => .notDeclared (change.name name)
  | .assignToConstant name => .assignToConstant (change.name name)
  | .duplicateKeys key => .duplicateKeys (change.text key)
  | fault => fault

/-- A relabelled fault of meaning. -/
def semanticError (error : SemanticError) : SemanticError :=
  ⟨change.fault error.fault, change.pos error.pos⟩

/-! ## What stays -/

@[simp]
theorem note_expr (e : Expr) : (change.expr e).note = change.note e.note := by
  cases e <;> rfl

@[simp]
theorem pos_expr (e : Expr) : (change.expr e).pos = change.pos e.pos := by
  rw [Expr.pos, note_expr]
  rfl

@[simp]
theorem isAssignable_expr (e : Expr) : (change.expr e).isAssignable = e.isAssignable := by
  cases e <;> rfl

@[simp]
theorem isName_expr (e : Expr) : Parts.isName (change.expr e) = Parts.isName e := by
  cases e <;> rfl

/-- What is no plain name does not become one. -/
theorem expr_ne_ident {e : Expr} (plain : ¬ Parts.isName e = true) :
    ∀ note name entity, change.expr e ≠ .ident note name entity := by
  intro note name entity same
  have shape := congrArg Parts.isName same
  rw [isName_expr] at shape
  exact plain shape

theorem exprs_eq_map (es : List Expr) : change.exprs es = es.map change.expr := by
  induction es with
  | nil => rfl
  | cons e others ih => rw [exprs, ih, List.map_cons]

theorem pairs_eq_map (entries : List Pair) : change.pairs entries = entries.map change.pair := by
  induction entries with
  | nil => rfl
  | cons entry others ih => rw [pairs, ih, List.map_cons]

theorem statements_eq_map (body : List Statement) :
    change.statements body = body.map change.statement := by
  induction body with
  | nil => rfl
  | cons first others ih => rw [statements, ih, List.map_cons]

@[simp]
theorem key_pair (entry : Pair) : (change.pair entry).key = change.expr entry.key := by
  cases entry
  rfl

@[simp]
theorem name_declared (entity : Entity) :
    (change.declared entity).name = change.name entity.name := by
  cases entity <;> rfl

@[simp]
theorem tag_declared (entity : Entity) : (change.declared entity).tag = entity.tag := by
  cases entity <;> rfl

@[simp]
theorem isConstant_declared (entity : Entity) :
    (change.declared entity).isConstant = entity.isConstant := by
  cases entity <;> rfl

variable {change} in
/-- The table of entities says nothing but names that could be changed. -/
theorem entities_of_name (same : change.name = id) (entities : Entities) :
    change.entities entities = entities := by
  have still : change.declared = id := by
    funext entity
    cases entity <;> simp [declared, same]
  simp [Relabel.entities, still]

variable {change} in
/-- A fault stays the same if names and texts of keys do. -/
theorem fault_of_name (same : change.name = id) (same' : change.text = id)
    (fault : SemanticFault) : change.fault fault = fault := by
  cases fault <;> simp [Relabel.fault, same, same']

/-! ## Relabelling by nothing -/

mutual

theorem expr_identity : ∀ e : Expr, identity.expr e = e
  | .literal .. | .ident .. | .this .. => rfl
  | .call note callee args => by
      rw [expr, expr_identity callee, exprs_identity args]
      rfl
  | .new note target args => by
      rw [expr, expr_identity target, exprs_identity args]
      rfl
  | .typeOf note operand => by
      rw [expr, expr_identity operand]
      rfl
  | .ternary note condition yes no => by
      rw [expr, expr_identity condition, expr_identity yes, expr_identity no]
      rfl
  | .binary note op left right => by
      rw [expr, expr_identity left, expr_identity right]
      rfl
  | .unary note op side operand => by
      rw [expr, expr_identity operand]
      rfl
  | .array note elements => by
      rw [expr, exprs_identity elements]
      rfl
  | .object note entries => by
      rw [expr, pairs_identity entries]
      rfl
  | .member note base index => by
      rw [expr, expr_identity base, expr_identity index]
      rfl
  | .property note base field => by
      rw [expr, expr_identity base]
      rfl

theorem exprs_identity : ∀ es : List Expr, identity.exprs es = es
  | [] => rfl
  | e :: others => by rw [exprs, expr_identity e, exprs_identity others]

theorem pair_identity : ∀ entry : Pair, identity.pair entry = entry
  | .mk pos key value canonical => by
      rw [pair, expr_identity key, expr_identity value]
      rfl

theorem pairs_identity : ∀ entries : List Pair, identity.pairs entries = entries
  | [] => rfl
  | entry :: others => by rw [pairs, pair_identity entry, pairs_identity others]

end

theorem map_expr_identity (value : Option Expr) : value.map identity.expr = value := by
  rw [funext expr_identity]
  exact Option.map_id'

theorem map_declarator_identity (entries : List (Binding × Option Expr)) :
    entries.map identity.declarator = entries := by
  have same : identity.declarator = id := by
    funext entry
    rw [declarator, map_expr_identity]
    rfl
  rw [same, List.map_id]

theorem map_parameter_identity (params : List Parameter) :
    params.map identity.parameter = params :=
  List.map_id params

mutual

theorem statement_identity : ∀ s : Statement, identity.statement s = s
  | .declare pos constant name init => by
      rw [statement, map_expr_identity]
      rfl
  | .declareAll pos constant entries => by
      rw [statement, map_declarator_identity]
      rfl
  | .assign pos target value => by
      rw [statement, expr_identity, expr_identity]
      rfl
  | .tryCatch pos body name handler => by
      rw [statement, block_identity body, block_identity handler]
      rfl
  | .classDef pos name (some initialiser) bodyPos methods => by
      rw [statement, constructor_identity initialiser, functions_identity methods]
      rfl
  | .classDef pos name none bodyPos methods => by
      rw [statement, functions_identity methods]
      rfl
  | .function declared => by rw [statement, function_identity declared]
  | .ifElse pos alternatives (some otherwise) => by
      rw [statement, arms_identity alternatives, block_identity otherwise]
      rfl
  | .ifElse pos alternatives none => by
      rw [statement, arms_identity alternatives]
      rfl
  | .whileLoop pos condition body => by
      rw [statement, expr_identity, block_identity body]
      rfl
  | .forLoop pos name init condition step body => by
      rw [statement, expr_identity, expr_identity, expr_identity, block_identity body]
      rfl
  | .forOf pos name iterable body => by
      rw [statement, expr_identity, block_identity body]
      rfl
  | .switch pos selector alternatives (some otherwise) => by
      rw [statement, expr_identity, arms_identity alternatives, block_identity otherwise]
      rfl
  | .switch pos selector alternatives none => by
      rw [statement, expr_identity, arms_identity alternatives]
      rfl
  | .returns pos value => by
      rw [statement, map_expr_identity]
      rfl
  | .print pos e | .expr pos e => by
      rw [statement, expr_identity]
      rfl
  | .breakLoop pos | .continueLoop pos => rfl

theorem statements_identity : ∀ body : List Statement, identity.statements body = body
  | [] => rfl
  | first :: others => by rw [statements, statement_identity first, statements_identity others]

theorem block_identity : ∀ body : Block, identity.block body = body
  | .mk pos body => by
      rw [block, statements_identity body]
      rfl

theorem function_identity : ∀ declared : Function, identity.function declared = declared
  | .mk pos name params body => by
      rw [function, map_parameter_identity, block_identity body]
      rfl

theorem functions_identity : ∀ members : List Function, identity.functions members = members
  | [] => rfl
  | first :: others => by rw [functions, function_identity first, functions_identity others]

theorem constructor_identity : ∀ initialiser : Constructor,
    identity.constructor initialiser = initialiser
  | .mk pos params body => by
      rw [constructor, map_parameter_identity, block_identity body]
      rfl

theorem arms_identity : ∀ alternatives : List Arm, identity.arms alternatives = alternatives
  | [] => rfl
  | first :: others => by rw [arms, arm_identity first, arms_identity others]

theorem arm_identity : ∀ alternative : Arm, identity.arm alternative = alternative
  | .mk pos test body => by
      rw [arm, expr_identity, block_identity body]
      rfl

end

end Relabel

end Qalam
