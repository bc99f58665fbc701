/-
# The expressions of a program

All expressions that stand anywhere in a tree, those inside other expressions included. A plain
name as the key of an object is not an expression: it names a field.
-/

import Qalam.Tree

namespace Qalam.Parts

/-- Whether an expression is nothing but a name. -/
def isName : Expr → Bool
  | .ident .. => true
  | _ => false

mutual

/-- An expression and all expressions inside it. -/
def expr : Expr → List Expr
  | .literal note value => [.literal note value]
  | .ident note name entity => [.ident note name entity]
  | .call note callee args => .call note callee args :: (expr callee ++ exprs args)
  | .this note field => [.this note field]
  | .new note target args => .new note target args :: (expr target ++ exprs args)
  | .typeOf note operand => .typeOf note operand :: expr operand
  | .ternary note condition yes no =>
    .ternary note condition yes no :: (expr condition ++ (expr yes ++ expr no))
  | .binary note op left right => .binary note op left right :: (expr left ++ expr right)
  | .unary note op side operand => .unary note op side operand :: expr operand
  | .array note elements => .array note elements :: exprs elements
  | .object note entries => .object note entries :: pairs entries
  | .member note base index => .member note base index :: (expr base ++ expr index)
  | .property note base field => .property note base field :: expr base

/-- The expressions in several expressions. -/
def exprs : List Expr → List Expr
  | [] => []
  | e :: others => expr e ++ exprs others

/-- The expressions in an entry of an object literal. -/
def pair : Pair → List Expr
  | .mk _ key value _ => if isName key then expr value else expr key ++ expr value

/-- The expressions in the entries of an object literal. -/
def pairs : List Pair → List Expr
  | [] => []
  | entry :: others => pair entry ++ pairs others

end

/-- The expressions in a value that may be missing. -/
def optional : Option Expr → List Expr
  | some e => expr e
  | none => []

mutual

/-- The expressions in a statement. -/
def statement : Statement → List Expr
  | .declare _ _ _ init => optional init
  | .declareAll _ _ entries => entries.flatMap fun entry => optional entry.2
  | .assign _ target value => expr target ++ expr value
  | .tryCatch _ body _ handler => block body ++ block handler
  | .classDef _ _ (some initialiser) _ methods => constructor initialiser ++ functions methods
  | .classDef _ _ none _ methods => functions methods
  | .function declared => function declared
  | .ifElse _ alternatives (some otherwise) => arms alternatives ++ block otherwise
  | .ifElse _ alternatives none => arms alternatives
  | .whileLoop _ condition body => expr condition ++ block body
  | .forLoop _ _ init condition step body =>
    expr init ++ (expr condition ++ (expr step ++ block body))
  | .forOf _ _ iterable body => expr iterable ++ block body
  | .switch _ selector alternatives (some otherwise) =>
    expr selector ++ (arms alternatives ++ block otherwise)
  | .switch _ selector alternatives none => expr selector ++ arms alternatives
  | .returns _ value => optional value
  | .print _ argument => expr argument
  | .breakLoop _ => []
  | .continueLoop _ => []
  | .expr _ e => expr e

/-- The expressions in several statements. -/
def statements : List Statement → List Expr
  | [] => []
  | first :: others => statement first ++ statements others

/-- The expressions in a block. -/
def block : Block → List Expr
  | .mk _ body => statements body

/-- The expressions in a function. -/
def function : Function → List Expr
  | .mk _ _ _ body => block body

/-- The expressions in several functions. -/
def functions : List Function → List Expr
  | [] => []
  | first :: others => function first ++ functions others

/-- The expressions in a constructor. -/
def constructor : Constructor → List Expr
  | .mk _ _ body => block body

/-- The expressions in the alternatives of an `if` or `switch`. -/
def arms : List Arm → List Expr
  | [] => []
  | first :: others => arm first ++ arms others

/-- The expressions in one alternative. -/
def arm : Arm → List Expr
  | .mk _ test body => expr test ++ block body

end

theorem mem_self (e : Expr) : e ∈ expr e := by
  cases e <;> simp [expr]

/-! ## What is inside a part is inside the whole -/

/-- Lists that hold whatever is inside one of their expressions. -/
def Closed (parts : List Expr) : Prop := ∀ x ∈ parts, expr x ⊆ parts

theorem closed_nil : Closed [] := fun _ mem => by cases mem

theorem Closed.append {first second : List Expr} (closed : Closed first)
    (closed' : Closed second) : Closed (first ++ second) := by
  intro x mem
  rcases List.mem_append.mp mem with inside | inside
  · exact List.subset_append_of_subset_left _ (closed x inside)
  · exact List.subset_append_of_subset_right _ (closed' x inside)

theorem closed_of_inside {e : Expr} {inside : List Expr} (parts : expr e = e :: inside)
    (closed : Closed inside) : Closed (expr e) := by
  intro x mem
  rw [parts, List.mem_cons] at mem
  rcases mem with rfl | mem
  · exact List.Subset.refl _
  · rw [parts]
    exact List.subset_cons_of_subset _ (closed x mem)

mutual

theorem closed_expr : ∀ e : Expr, Closed (expr e)
  | .literal _ _ => closed_of_inside rfl closed_nil
  | .ident _ _ _ => closed_of_inside rfl closed_nil
  | .call _ callee args => closed_of_inside rfl ((closed_expr callee).append (closed_exprs args))
  | .this _ _ => closed_of_inside rfl closed_nil
  | .new _ target args => closed_of_inside rfl ((closed_expr target).append (closed_exprs args))
  | .typeOf _ operand => closed_of_inside rfl (closed_expr operand)
  | .ternary _ condition yes no =>
      closed_of_inside rfl
        ((closed_expr condition).append ((closed_expr yes).append (closed_expr no)))
  | .binary _ _ left right =>
      closed_of_inside rfl ((closed_expr left).append (closed_expr right))
  | .unary _ _ _ operand => closed_of_inside rfl (closed_expr operand)
  | .array _ elements => closed_of_inside rfl (closed_exprs elements)
  | .object _ entries => closed_of_inside rfl (closed_pairs entries)
  | .member _ base index =>
      closed_of_inside rfl ((closed_expr base).append (closed_expr index))
  | .property _ base _ => closed_of_inside rfl (closed_expr base)

theorem closed_exprs : ∀ es : List Expr, Closed (exprs es)
  | [] => closed_nil
  | e :: others => (closed_expr e).append (closed_exprs others)

theorem closed_pair : ∀ entry : Pair, Closed (pair entry)
  | .mk _ key value _ => by
      rw [pair]
      split
      · exact closed_expr value
      · exact (closed_expr key).append (closed_expr value)

theorem closed_pairs : ∀ entries : List Pair, Closed (pairs entries)
  | [] => closed_nil
  | entry :: others => (closed_pair entry).append (closed_pairs others)

end

theorem closed_optional : ∀ value : Option Expr, Closed (optional value)
  | some e => closed_expr e
  | none => closed_nil

theorem closed_declarators (entries : List (Binding × Option Expr)) :
    Closed (entries.flatMap fun entry => optional entry.2) := by
  induction entries with
  | nil => exact closed_nil
  | cons entry others ih =>
      rw [List.flatMap_cons]
      exact (closed_optional entry.2).append ih

mutual

theorem closed_statement : ∀ s : Statement, Closed (statement s)
  | .declare _ _ _ init => closed_optional init
  | .declareAll _ _ entries => closed_declarators entries
  | .assign _ target value => (closed_expr target).append (closed_expr value)
  | .tryCatch _ body _ handler => (closed_block body).append (closed_block handler)
  | .classDef _ _ (some initialiser) _ methods =>
      (closed_constructor initialiser).append (closed_functions methods)
  | .classDef _ _ none _ methods => closed_functions methods
  | .function declared => closed_function declared
  | .ifElse _ alternatives (some otherwise) =>
      (closed_arms alternatives).append (closed_block otherwise)
  | .ifElse _ alternatives none => closed_arms alternatives
  | .whileLoop _ condition body => (closed_expr condition).append (closed_block body)
  | .forLoop _ _ init condition step body =>
      (closed_expr init).append ((closed_expr condition).append
        ((closed_expr step).append (closed_block body)))
  | .forOf _ _ iterable body => (closed_expr iterable).append (closed_block body)
  | .switch _ selector alternatives (some otherwise) =>
      (closed_expr selector).append ((closed_arms alternatives).append (closed_block otherwise))
  | .switch _ selector alternatives none =>
      (closed_expr selector).append (closed_arms alternatives)
  | .returns _ value => closed_optional value
  | .print _ argument => closed_expr argument
  | .breakLoop _ => closed_nil
  | .continueLoop _ => closed_nil
  | .expr _ e => closed_expr e

theorem closed_statements : ∀ body : List Statement, Closed (statements body)
  | [] => closed_nil
  | first :: others => (closed_statement first).append (closed_statements others)

theorem closed_block : ∀ body : Block, Closed (block body)
  | .mk _ body => closed_statements body

theorem closed_function : ∀ declared : Function, Closed (function declared)
  | .mk _ _ _ body => closed_block body

theorem closed_functions : ∀ members : List Function, Closed (functions members)
  | [] => closed_nil
  | first :: others => (closed_function first).append (closed_functions others)

theorem closed_constructor : ∀ initialiser : Constructor, Closed (constructor initialiser)
  | .mk _ _ body => closed_block body

theorem closed_arms : ∀ alternatives : List Arm, Closed (arms alternatives)
  | [] => closed_nil
  | first :: others => (closed_arm first).append (closed_arms others)

theorem closed_arm : ∀ alternative : Arm, Closed (arm alternative)
  | .mk _ test body => (closed_expr test).append (closed_block body)

end

end Qalam.Parts

namespace Qalam

/-- All expressions of a program. -/
def Program.parts (program : Program) : List Expr := Parts.statements program.statements

end Qalam
