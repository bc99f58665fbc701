/-
# The walk over a program in the order of analysis

The names and frames of a tree as a sequence of events. A value is walked before the name that
it is given to, and a function or class is declared before what is inside it. Frames are: the
program; each body of an `if`, `while` or `try` and each case; the name and body of a handler, of
a loop over items, of a function and of a constructor; the members of a class; and the header of
a counting loop, with one more for its body. Fields and plain keys of objects are not names in
this sense.
-/

import Qalam.Proofs.Scoping.Event

namespace Qalam.Scoping.Walk

/-- A frame around some events. -/
def framed (events : List (Event Mark)) : List (Event Mark) := .opens :: events ++ [.closes]

/-- The declaration of a binding. -/
def binding (name : Binding) : Event Mark := .declares name.name ⟨name.pos, name.entity⟩

/-- The declarations of parameters. -/
def parameters (params : List Parameter) : List (Event Mark) :=
  params.map fun param => .declares param.name ⟨param.note.pos, param.entity⟩

/-- Whether an expression is nothing but a name. -/
def isName : Expr → Bool
  | .ident .. => true
  | _ => false

mutual

/-- The names mentioned in an expression. -/
def expr : Expr → List (Event Mark)
  | .literal _ _ => []
  | .ident note name entity => [.mentions name ⟨note.pos, entity⟩]
  | .call _ callee args => expr callee ++ exprs args
  | .this _ _ => []
  | .new _ target args => expr target ++ exprs args
  | .typeOf _ operand => expr operand
  | .ternary _ condition yes no => expr condition ++ (expr yes ++ expr no)
  | .binary _ _ left right => expr left ++ expr right
  | .unary _ _ _ operand => expr operand
  | .array _ elements => exprs elements
  | .object _ entries => pairs entries
  | .member _ base index => expr base ++ expr index
  | .property _ base _ => expr base

/-- The names mentioned in several expressions. -/
def exprs : List Expr → List (Event Mark)
  | [] => []
  | e :: others => expr e ++ exprs others

/-- The names mentioned in an entry of an object literal. A plain name as a key is none. -/
def pair : Pair → List (Event Mark)
  | .mk _ key value _ => if isName key then expr value else expr key ++ expr value

/-- The names mentioned in the entries of an object literal. -/
def pairs : List Pair → List (Event Mark)
  | [] => []
  | entry :: others => pair entry ++ pairs others

end

/-- The names mentioned in a value that may be missing. -/
def optional : Option Expr → List (Event Mark)
  | some e => expr e
  | none => []

/-- A declared name behind its value. -/
def declarator (entry : Binding × Option Expr) : List (Event Mark) :=
  optional entry.2 ++ [binding entry.1]

mutual

/-- The events of a statement. -/
def statement : Statement → List (Event Mark)
  | .declare _ _ name init => declarator (name, init)
  | .declareAll _ _ entries => entries.flatMap declarator
  | .assign _ target value => expr target ++ expr value
  | .tryCatch _ body name handler =>
    framed (block body) ++ framed (binding name :: block handler)
  | .classDef _ name (some initialiser) _ methods =>
    binding name :: framed (constructor initialiser ++ functions methods)
  | .classDef _ name none _ methods => binding name :: framed (functions methods)
  | .function declared => function declared
  | .ifElse _ alternatives (some otherwise) => arms alternatives ++ framed (block otherwise)
  | .ifElse _ alternatives none => arms alternatives
  | .whileLoop _ condition body => expr condition ++ framed (block body)
  | .forLoop _ name init condition step body =>
    framed (expr init ++ binding name :: (expr condition ++ (expr step ++ framed (block body))))
  | .forOf _ name iterable body => expr iterable ++ framed (binding name :: block body)
  | .switch _ selector alternatives (some otherwise) =>
    expr selector ++ (arms alternatives ++ framed (block otherwise))
  | .switch _ selector alternatives none => expr selector ++ arms alternatives
  | .returns _ value => optional value
  | .print _ argument => expr argument
  | .breakLoop _ => []
  | .continueLoop _ => []
  | .expr _ e => expr e

/-- The events of several statements. -/
def statements : List Statement → List (Event Mark)
  | [] => []
  | first :: others => statement first ++ statements others

/-- The events of the statements of a block. -/
def block : Block → List (Event Mark)
  | .mk _ body => statements body

/-- The events of a function. -/
def function : Function → List (Event Mark)
  | .mk _ name params body => binding name :: framed (parameters params ++ block body)

/-- The events of several functions. -/
def functions : List Function → List (Event Mark)
  | [] => []
  | first :: others => function first ++ functions others

/-- The events of a constructor. -/
def constructor : Constructor → List (Event Mark)
  | .mk _ params body => framed (parameters params ++ block body)

/-- The events of the alternatives of an `if` or `switch`. -/
def arms : List Arm → List (Event Mark)
  | [] => []
  | first :: others => arm first ++ arms others

/-- The events of one alternative. -/
def arm : Arm → List (Event Mark)
  | .mk _ test body => expr test ++ framed (block body)

end

end Qalam.Scoping.Walk

namespace Qalam

/-- The events of a program. -/
def Program.events (program : Program) : List (Scoping.Event Scoping.Mark) :=
  Scoping.Walk.statements program.statements

end Qalam
