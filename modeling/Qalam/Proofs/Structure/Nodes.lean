/-
# The nodes of a program

Everything in a tree that has a place of its own in the source: statements, blocks, alternatives,
functions and constructors, expressions with the keys of object literals, the entries of these, and
the names that are declared or stand for fields.
-/

import Qalam.Proofs.Structure.Parts

namespace Qalam

/-- A part of a program that has a place in the source. -/
inductive Node
  | statement (s : Statement)
  | block (body : Block)
  | arm (alternative : Arm)
  | function (declared : Function)
  | constructor (initialiser : Constructor)
  | expr (e : Expr)
  | pair (entry : Pair)
  | binding (name : Binding)
  | parameter (param : Parameter)
  | field (name : Field)

/-- The position of a function. -/
def Function.pos : Function → Position
  | .mk pos _ _ _ => pos

/-- The position of a statement. -/
def Statement.pos : Statement → Position
  | .declare pos _ _ _ | .declareAll pos _ _ | .assign pos _ _ | .tryCatch pos _ _ _
  | .classDef pos _ _ _ _ | .ifElse pos _ _ | .whileLoop pos _ _ | .forLoop pos _ _ _ _ _
  | .forOf pos _ _ _ | .switch pos _ _ _ | .returns pos _ | .print pos _ | .breakLoop pos
  | .continueLoop pos | .expr pos _ => pos
  | .function declared => declared.pos

/-- The positions that a node records itself. A class also has that of its body. -/
def Node.positions : Node → List Position
  | statement (.classDef pos _ _ bodyPos _) => [pos, bodyPos]
  | statement s => [s.pos]
  | block (.mk pos _) => [pos]
  | arm (.mk pos _ _) => [pos]
  | function declared => [declared.pos]
  | constructor (.mk pos _ _) => [pos]
  | expr e => [e.pos]
  | pair (.mk pos _ _ _) => [pos]
  | binding name => [name.pos]
  | parameter param => [param.note.pos]
  | field name => [name.note.pos]

namespace Nodes

mutual

/-- An expression and the nodes inside it. -/
def expr : Expr → List Node
  | .literal note value => [.expr (.literal note value)]
  | .ident note name entity => [.expr (.ident note name entity)]
  | .call note callee args => .expr (.call note callee args) :: (expr callee ++ exprs args)
  | .this note name => [.expr (.this note name), .field name]
  | .new note target args => .expr (.new note target args) :: (expr target ++ exprs args)
  | .typeOf note operand => .expr (.typeOf note operand) :: expr operand
  | .ternary note condition yes no =>
    .expr (.ternary note condition yes no) :: (expr condition ++ (expr yes ++ expr no))
  | .binary note op left right => .expr (.binary note op left right) :: (expr left ++ expr right)
  | .unary note op side operand => .expr (.unary note op side operand) :: expr operand
  | .array note elements => .expr (.array note elements) :: exprs elements
  | .object note entries => .expr (.object note entries) :: pairs entries
  | .member note base index => .expr (.member note base index) :: (expr base ++ expr index)
  | .property note base name => .expr (.property note base name) :: .field name :: expr base

/-- The nodes of several expressions. -/
def exprs : List Expr → List Node
  | [] => []
  | e :: others => expr e ++ exprs others

/-- An entry of an object literal and the nodes inside it. -/
def pair : Pair → List Node
  | .mk pos key value canonical => .pair (.mk pos key value canonical) :: (expr key ++ expr value)

/-- The nodes of the entries of an object literal. -/
def pairs : List Pair → List Node
  | [] => []
  | entry :: others => pair entry ++ pairs others

end

/-- The nodes of a value that may be missing. -/
def optional : Option Expr → List Node
  | some e => expr e
  | none => []

/-- The nodes of a declared name with its value. -/
def declarator (entry : Binding × Option Expr) : List Node := .binding entry.1 :: optional entry.2

mutual

/-- A statement and the nodes inside it. -/
def statement : Statement → List Node
  | .declare pos constant name init =>
    .statement (.declare pos constant name init) :: declarator (name, init)
  | .declareAll pos constant entries =>
    .statement (.declareAll pos constant entries) :: entries.flatMap declarator
  | .assign pos target value => .statement (.assign pos target value) :: (expr target ++ expr value)
  | .tryCatch pos body name handler =>
    .statement (.tryCatch pos body name handler) :: .binding name :: (block body ++ block handler)
  | .classDef pos name (some initialiser) bodyPos methods =>
    .statement (.classDef pos name (some initialiser) bodyPos methods) :: .binding name ::
      (constructor initialiser ++ functions methods)
  | .classDef pos name none bodyPos methods =>
    .statement (.classDef pos name none bodyPos methods) :: .binding name :: functions methods
  | .function declared => .statement (.function declared) :: function declared
  | .ifElse pos alternatives (some otherwise) =>
    .statement (.ifElse pos alternatives (some otherwise)) ::
      (arms alternatives ++ block otherwise)
  | .ifElse pos alternatives none => .statement (.ifElse pos alternatives none) :: arms alternatives
  | .whileLoop pos condition body =>
    .statement (.whileLoop pos condition body) :: (expr condition ++ block body)
  | .forLoop pos name init condition step body =>
    .statement (.forLoop pos name init condition step body) :: .binding name ::
      (expr init ++ (expr condition ++ (expr step ++ block body)))
  | .forOf pos name iterable body =>
    .statement (.forOf pos name iterable body) :: .binding name :: (expr iterable ++ block body)
  | .switch pos selector alternatives (some otherwise) =>
    .statement (.switch pos selector alternatives (some otherwise)) ::
      (expr selector ++ (arms alternatives ++ block otherwise))
  | .switch pos selector alternatives none =>
    .statement (.switch pos selector alternatives none) :: (expr selector ++ arms alternatives)
  | .returns pos value => .statement (.returns pos value) :: optional value
  | .print pos argument => .statement (.print pos argument) :: expr argument
  | .breakLoop pos => [.statement (.breakLoop pos)]
  | .continueLoop pos => [.statement (.continueLoop pos)]
  | .expr pos e => .statement (.expr pos e) :: expr e

/-- The nodes of several statements. -/
def statements : List Statement → List Node
  | [] => []
  | first :: others => statement first ++ statements others

/-- A block and the nodes inside it. -/
def block : Block → List Node
  | .mk pos body => .block (.mk pos body) :: statements body

/-- A function and the nodes inside it. -/
def function : Function → List Node
  | .mk pos name params body =>
    .function (.mk pos name params body) :: .binding name ::
      (params.map Node.parameter ++ block body)

/-- The nodes of several functions. -/
def functions : List Function → List Node
  | [] => []
  | first :: others => function first ++ functions others

/-- A constructor and the nodes inside it. -/
def constructor : Constructor → List Node
  | .mk pos params body =>
    .constructor (.mk pos params body) :: (params.map Node.parameter ++ block body)

/-- The nodes of the alternatives of an `if` or `switch`. -/
def arms : List Arm → List Node
  | [] => []
  | first :: others => arm first ++ arms others

/-- An alternative and the nodes inside it. -/
def arm : Arm → List Node
  | .mk pos test body => .arm (.mk pos test body) :: (expr test ++ block body)

end

end Nodes

/-- All nodes of a program. -/
def Program.nodes (program : Program) : List Node := Nodes.statements program.statements

/-! ## The names of a program -/

/-- The name that a node consists of. -/
def Node.name? : Node → Option String
  | .expr (.ident _ name _) => some name
  | .binding name => some name.name
  | .parameter param => some param.name
  | .field name => some name.name
  | _ => none

/-- The name of a node, if it has one, is among the given ones. -/
def Node.NamedIn (names : List String) (node : Node) : Prop :=
  ∀ name, node.name? = some name → name ∈ names

/-- The names of a program, as often as they stand there. -/
def Program.names (program : Program) : List String := program.nodes.filterMap Node.name?

theorem Program.namedIn_names (program : Program) :
    ∀ node ∈ program.nodes, node.NamedIn program.names :=
  fun node mem _ named => List.mem_filterMap.mpr ⟨node, mem, named⟩

/-! ## Nodes and the expressions in them -/

/-- The expressions in a node, if it is a statement or an expression. A name may stand as a key of
an object literal, where it is no expression. -/
def Node.parts : Node → List Expr
  | statement s => Parts.statement s
  | expr (.ident ..) => []
  | expr e => Parts.expr e
  | _ => []

namespace Nodes

/-- Some nodes have no other expressions in them than the given ones. -/
def Covered (nodes : List Node) (parts : List Expr) : Prop := ∀ node ∈ nodes, node.parts ⊆ parts

namespace Covered

variable {node : Node} {nodes others : List Node} {parts more : List Expr}

theorem nil : Covered [] parts := fun _ mem => by cases mem

theorem append (first : Covered nodes parts) (second : Covered others more) :
    Covered (nodes ++ others) (parts ++ more) := by
  intro node mem
  rcases List.mem_append.mp mem with inside | inside
  · exact List.subset_append_of_subset_left _ (first node inside)
  · exact List.subset_append_of_subset_right _ (second node inside)

theorem cons (here : node.parts ⊆ parts) (covered : Covered nodes parts) :
    Covered (node :: nodes) parts :=
  List.forall_mem_cons.mpr ⟨here, covered⟩

/-- A node in front of what is inside it. -/
theorem own (inside : Covered nodes node.parts) : Covered (node :: nodes) node.parts :=
  .cons (List.Subset.refl _) inside

/-- A node without expressions in front of others. -/
theorem skip (none : node.parts = []) (covered : Covered nodes parts) :
    Covered (node :: nodes) parts :=
  .cons (none ▸ List.nil_subset _) covered

/-- An expression in front of what is inside it. -/
theorem around {e : Expr} (whole : Parts.expr e = e :: parts) (inside : Covered nodes parts) :
    Covered (.expr e :: nodes) (Parts.expr e) := by
  apply cons
  · cases e with
    | ident => exact List.nil_subset _
    | _ => exact List.Subset.refl _
  · intro node mem
    rw [whole]
    exact List.subset_cons_of_subset _ (inside node mem)

theorem parameters (params : List Parameter) (covered : Covered nodes parts) :
    Covered (params.map Node.parameter ++ nodes) parts := by
  induction params with
  | nil => exact covered
  | cons param others ih => exact skip rfl ih

end Covered

mutual

theorem covered_expr : ∀ e : Expr, Covered (expr e) (Parts.expr e)
  | .literal .. | .ident .. => .around rfl .nil
  | .this .. => .around rfl (.skip rfl .nil)
  | .call _ callee args => .around rfl ((covered_expr callee).append (covered_exprs args))
  | .new _ target args => .around rfl ((covered_expr target).append (covered_exprs args))
  | .typeOf _ operand | .unary _ _ _ operand => .around rfl (covered_expr operand)
  | .ternary _ condition yes no =>
      .around rfl ((covered_expr condition).append ((covered_expr yes).append (covered_expr no)))
  | .binary _ _ left right => .around rfl ((covered_expr left).append (covered_expr right))
  | .array _ elements => .around rfl (covered_exprs elements)
  | .object _ entries => .around rfl (covered_pairs entries)
  | .member _ base index => .around rfl ((covered_expr base).append (covered_expr index))
  | .property _ base _ => .around rfl (.skip rfl (covered_expr base))

theorem covered_exprs : ∀ es : List Expr, Covered (exprs es) (Parts.exprs es)
  | [] => .nil
  | e :: others => (covered_expr e).append (covered_exprs others)

theorem covered_pair : ∀ entry : Pair, Covered (pair entry) (Parts.pair entry)
  | .mk _ key value _ => by
      rw [pair, Parts.pair]
      apply Covered.skip rfl
      split
      · rename_i plain
        cases key with
        | ident => exact .skip rfl (covered_expr value)
        | _ => cases plain
      · exact (covered_expr key).append (covered_expr value)

theorem covered_pairs : ∀ entries : List Pair, Covered (pairs entries) (Parts.pairs entries)
  | [] => .nil
  | entry :: others => (covered_pair entry).append (covered_pairs others)

end

theorem covered_optional : ∀ value : Option Expr, Covered (optional value) (Parts.optional value)
  | some e => covered_expr e
  | none => .nil

theorem covered_declarator (entry : Binding × Option Expr) :
    Covered (declarator entry) (Parts.optional entry.2) :=
  .skip rfl (covered_optional entry.2)

theorem covered_declarators (entries : List (Binding × Option Expr)) :
    Covered (entries.flatMap declarator) (entries.flatMap fun entry => Parts.optional entry.2) := by
  induction entries with
  | nil => exact .nil
  | cons entry others ih =>
      rw [List.flatMap_cons, List.flatMap_cons]
      exact (covered_declarator entry).append ih

mutual

/-- The expressions of a node are expressions of what it stands in. -/
theorem covered_statement : ∀ s : Statement, Covered (statement s) (Parts.statement s)
  | .declare _ _ name init => .own (covered_declarator (name, init))
  | .declareAll _ _ entries => .own (covered_declarators entries)
  | .assign _ target value => .own ((covered_expr target).append (covered_expr value))
  | .tryCatch _ body _ handler =>
      .own (.skip rfl ((covered_block body).append (covered_block handler)))
  | .classDef _ _ (some initialiser) _ members =>
      .own (.skip rfl ((covered_constructor initialiser).append (covered_functions members)))
  | .classDef _ _ none _ members => .own (.skip rfl (covered_functions members))
  | .function declared => .own (covered_function declared)
  | .ifElse _ alternatives (some otherwise) =>
      .own ((covered_arms alternatives).append (covered_block otherwise))
  | .ifElse _ alternatives none => .own (covered_arms alternatives)
  | .whileLoop _ condition body => .own ((covered_expr condition).append (covered_block body))
  | .forLoop _ _ init condition step body =>
      .own (.skip rfl ((covered_expr init).append ((covered_expr condition).append
        ((covered_expr step).append (covered_block body)))))
  | .forOf _ _ iterable body =>
      .own (.skip rfl ((covered_expr iterable).append (covered_block body)))
  | .switch _ selector alternatives (some otherwise) =>
      .own ((covered_expr selector).append
        ((covered_arms alternatives).append (covered_block otherwise)))
  | .switch _ selector alternatives none =>
      .own ((covered_expr selector).append (covered_arms alternatives))
  | .returns _ value => .own (covered_optional value)
  | .print _ argument => .own (covered_expr argument)
  | .breakLoop _ => .own .nil
  | .continueLoop _ => .own .nil
  | .expr _ e => .own (covered_expr e)

theorem covered_statements : ∀ body : List Statement,
    Covered (statements body) (Parts.statements body)
  | [] => .nil
  | first :: others => (covered_statement first).append (covered_statements others)

theorem covered_block : ∀ body : Block, Covered (block body) (Parts.block body)
  | .mk _ body => .skip rfl (covered_statements body)

theorem covered_function : ∀ declared : Function,
    Covered (function declared) (Parts.function declared)
  | .mk _ _ params body =>
      .skip rfl (.skip rfl (.parameters params (covered_block body)))

theorem covered_functions : ∀ members : List Function,
    Covered (functions members) (Parts.functions members)
  | [] => .nil
  | first :: others => (covered_function first).append (covered_functions others)

theorem covered_constructor : ∀ initialiser : Constructor,
    Covered (constructor initialiser) (Parts.constructor initialiser)
  | .mk _ params body => .skip rfl (.parameters params (covered_block body))

theorem covered_arms : ∀ alternatives : List Arm,
    Covered (arms alternatives) (Parts.arms alternatives)
  | [] => .nil
  | first :: others => (covered_arm first).append (covered_arms others)

theorem covered_arm : ∀ alternative : Arm, Covered (arm alternative) (Parts.arm alternative)
  | .mk _ test body => .skip rfl ((covered_expr test).append (covered_block body))

end

end Nodes

end Qalam
