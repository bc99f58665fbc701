/-
# Drawings of programs

The outline of a program names each construct and its parts. Without a table of entities it
shows the tree as it was parsed; with the table it also shows tags, entity numbers and, at each
declaration, what has become of the entity by the end of the program.
-/

import Qalam.Tree
import Qalam.Tree.Outline

namespace Qalam

namespace Drawing

/-- The name of a declaration and, in a bound tree, its entity. -/
def binding (entities : Option Entities) (binding : Binding) : String :=
  match entities, binding.entity with
  | some entities, some id =>
    binding.name ++ " (" ++ id.text ++ " " ++ ((entities.get? id).map Entity.text).getD "" ++ ")"
  | _, _ => binding.name

/-- The label of an expression and, in a bound tree, its tag. -/
def typed (entities : Option Entities) (label : String) (note : Note) : String :=
  match entities, note.tag with
  | some _, some tag => label ++ ": " ++ tag.text
  | _, _ => label

/-- The label of a name. -/
def named (entities : Option Entities) (name : String) (entity : Option EntityId)
    (note : Note) : Outline :=
  let label := match entities, entity with
    | some _, some id => "Ident(" ++ name ++ " " ++ id.text ++ ")"
    | _, _ => "Ident(" ++ name ++ ")"
  .leaf (typed entities label note)

/-- The label of a constant. -/
def literal : Literal → String
  | .bool value => "Bool(" ++ (if value then "true" else "false") ++ ")"
  | .number value => "Number(" ++ value.text ++ ")"
  | .int value => "Int(" ++ Decimal.digitText value ++ ")"
  | .str value => "Str(" ++ Text.display value ++ ")"
  | .null => "Null"
  | .undefined => "Undefined"

/-- The word for the side on which a unary operator stands. -/
def fixity : Fixity → String
  | .before => "prefix"
  | .behind => "postfix"

mutual

/-- The outline of an expression. -/
def expr (entities : Option Entities) : Expr → Outline
  | .literal note value => .leaf (typed entities (literal value) note)
  | .ident note name entity => named entities name entity note
  | .call note callee args =>
    .node (typed entities "Call" note)
      [(expr entities callee).labelled "callee: ", .node "args" (exprs entities args)]
  | .this note field =>
    .node (typed entities "This" note) [named entities field.name none field.note]
  | .new note target args =>
    .node (typed entities "New" note)
      [(expr entities target).labelled "class: ", .node "args" (exprs entities args)]
  | .typeOf note operand => .node (typed entities "TypeOf" note) [expr entities operand]
  | .ternary note condition yes no =>
    .node (typed entities "Ternary" note)
      [(expr entities condition).labelled "condition: ", (expr entities yes).labelled "then: ",
        (expr entities no).labelled "else: "]
  | .binary note op left right =>
    .node (typed entities ("Binary(" ++ op.text ++ ")") note)
      [expr entities left, expr entities right]
  | .unary note op side operand =>
    .node (typed entities ("Unary(" ++ fixity side ++ " " ++ op.text ++ ")") note)
      [expr entities operand]
  | .array note elements => .node (typed entities "Array" note) (exprs entities elements)
  | .object note entries => .node (typed entities "Object" note) (pairs entities entries)
  | .member note base index =>
    .node (typed entities "Member" note)
      [(expr entities base).labelled "object: ", (expr entities index).labelled "index: "]
  | .property note base field =>
    .node (typed entities "Property" note)
      [(expr entities base).labelled "object: ",
        (named entities field.name none field.note).labelled "field: "]

/-- The outlines of several expressions. -/
def exprs (entities : Option Entities) : List Expr → List Outline
  | [] => []
  | e :: others => expr entities e :: exprs entities others

/-- The outline of an entry of an object literal. -/
def pair (entities : Option Entities) : Pair → Outline
  | .mk _ key value _ =>
    .node "pair" [(expr entities key).labelled "key: ", (expr entities value).labelled "value: "]

/-- The outlines of the entries of an object literal. -/
def pairs (entities : Option Entities) : List Pair → List Outline
  | [] => []
  | entry :: others => pair entities entry :: pairs entities others

end

/-- The word for a declaration. -/
def declarationKind (constant : Bool) : String := if constant then "Const" else "Let"

/-- The outline of one of several declared names. -/
def declarator (entities : Option Entities) (entry : Binding × Option Expr) : Outline :=
  .node (binding entities entry.1) (entry.2.toList.map (expr entities))

/-- The outline of a parameter list. -/
def params (entities : Option Entities) (params : List Parameter) : Outline :=
  .node "params" (params.map fun param => named entities param.name param.entity param.note)

mutual

/-- The outline of a statement. -/
def statement (entities : Option Entities) : Statement → Outline
  | .declare _ constant name init =>
    .node (declarationKind constant ++ ": " ++ binding entities name)
      (init.toList.map (expr entities))
  | .declareAll _ constant entries =>
    .node ("Multi" ++ declarationKind constant) (entries.map (declarator entities))
  | .assign _ target value =>
    .node "Assign"
      [(expr entities target).labelled "target: ", (expr entities value).labelled "value: "]
  | .tryCatch _ body name handler =>
    .node "TryCatch"
      [block entities "try" body, block entities ("catch " ++ binding entities name) handler]
  | .classDef _ name (some initialiser) _ methods =>
    .node ("Class: " ++ binding entities name)
      (constructor entities initialiser :: functions entities methods)
  | .classDef _ name none _ methods =>
    .node ("Class: " ++ binding entities name) (functions entities methods)
  | .function declared => function entities "FnDecl" declared
  | .ifElse _ alternatives (some otherwise) =>
    .node "If" (arms entities "condition: " "then" alternatives ++
      [block entities "else" otherwise])
  | .ifElse _ alternatives none => .node "If" (arms entities "condition: " "then" alternatives)
  | .whileLoop _ condition body =>
    .node "While" [(expr entities condition).labelled "condition: ", block entities "body" body]
  | .forLoop _ name init condition step body =>
    .node ("For: " ++ binding entities name)
      [(expr entities init).labelled "init: ", (expr entities condition).labelled "condition: ",
        (expr entities step).labelled "step: ", block entities "body" body]
  | .forOf _ name iterable body =>
    .node ("ForOf: " ++ binding entities name)
      [(expr entities iterable).labelled "iterable: ", block entities "body" body]
  | .switch _ selector alternatives (some otherwise) =>
    .node "Switch" ((expr entities selector).labelled "selector: " ::
      arms entities "test: " "body" alternatives ++ [block entities "default" otherwise])
  | .switch _ selector alternatives none =>
    .node "Switch" ((expr entities selector).labelled "selector: " ::
      arms entities "test: " "body" alternatives)
  | .returns _ value => .node "Return" (value.toList.map (expr entities))
  | .print _ argument => .node "Print" [expr entities argument]
  | .breakLoop _ => .leaf "Break"
  | .continueLoop _ => .leaf "Continue"
  | .expr _ e => .node "ExprStmt" [expr entities e]

/-- The outlines of several statements. -/
def statements (entities : Option Entities) : List Statement → List Outline
  | [] => []
  | first :: others => statement entities first :: statements entities others

/-- The outline of a block under a label. -/
def block (entities : Option Entities) (label : String) : Block → Outline
  | .mk _ body => .node label (statements entities body)

/-- The outline of a function of some kind. -/
def function (entities : Option Entities) (kind : String) : Function → Outline
  | .mk _ name parameters body =>
    .node (kind ++ ": " ++ binding entities name)
      [params entities parameters, block entities "body" body]

/-- The outlines of the methods of a class. -/
def functions (entities : Option Entities) : List Function → List Outline
  | [] => []
  | first :: others => function entities "Method" first :: functions entities others

/-- The outline of a constructor. -/
def constructor (entities : Option Entities) : Constructor → Outline
  | .mk _ parameters body =>
    .node "Constructor" [params entities parameters, block entities "body" body]

/-- The outlines of the alternatives of an `if` or `switch`, with the words for their parts. -/
def arms (entities : Option Entities) (test body : String) : List Arm → List Outline
  | [] => []
  | first :: others => arm entities test body first :: arms entities test body others

/-- The outline of an alternative. -/
def arm (entities : Option Entities) (testWord bodyWord : String) : Arm → Outline
  | .mk _ test body =>
    .node "case" [(expr entities test).labelled testWord, block entities bodyWord body]

end

/-- The drawing of a sequence of statements. -/
def program (entities : Option Entities) (body : List Statement) : String :=
  "Program\n" ++ Outline.drawAll "" (statements entities body)

end Drawing

/-- The drawing of a program as it was parsed. -/
def Program.drawing (program : Program) : String :=
  Drawing.program none program.statements

/-- The drawing of a bound program, followed by the table of its entities. -/
def BoundProgram.drawing (bound : BoundProgram) : String :=
  Drawing.program (some bound.entities) bound.program.statements ++ "\nEntities\n" ++
    String.join (bound.entities.toList.map fun (id, entity) =>
      "  " ++ id.text ++ " " ++ entity.text ++ "\n")

end Qalam
