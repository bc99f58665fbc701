/-
# The nodes of a tree, one by one

A listing names every node of a tree in preorder: its kind, what is recorded at it, and its
position. It shows the annotations of a bound tree in place, and is the shortest way to compare
two trees node by node.
-/

import Qalam.Tree

namespace Qalam

namespace Listing

/-- The line of a node. -/
def line (label : String) (pos : Position) : String := label ++ "@" ++ pos.text

/-- The number of an entity, if there is one. -/
def entityText (entity : Option EntityId) : String := (entity.map EntityId.text).getD ""

/-- The tag of a node, if it has one. -/
def tagText (tag : Option Tag) : String := (tag.map fun tag => ":" ++ tag.text).getD ""

/-- The line of an expression of a kind. -/
def noted (label : String) (note : Note) : String := line (label ++ tagText note.tag) note.pos

/-- The line of a name. -/
def named (name : String) (entity : Option EntityId) (note : Note) : String :=
  noted ("Ident " ++ name ++ entityText entity) note

/-- The kind of a constant. -/
def literalKind : Literal → String
  | .bool _ => "Bool"
  | .number _ => "Number"
  | .int _ => "BigInt"
  | .str _ => "Str"
  | .null => "Null"
  | .undefined => "Undefined"

/-- The line of a field name. -/
def field (field : Field) : String := named field.name none field.note

/-- The line of a declared name. -/
def binding (binding : Binding) : String :=
  line ("Binding " ++ binding.name ++ entityText binding.entity) binding.pos

/-- The line of a parameter. -/
def parameter (param : Parameter) : String := named param.name param.entity param.note

mutual

/-- The lines of an expression. -/
def expr : Expr → List String
  | .literal note value => [noted (literalKind value) note]
  | .ident note name entity => [named name entity note]
  | .call note callee args => noted "Call" note :: expr callee ++ exprs args
  | .this note name => [noted "This" note, field name]
  | .new note target args => noted "New" note :: expr target ++ exprs args
  | .typeOf note operand => noted "TypeOf" note :: expr operand
  | .ternary note condition yes no =>
    noted "Ternary" note :: expr condition ++ expr yes ++ expr no
  | .binary note _ left right => noted "Binary" note :: expr left ++ expr right
  | .unary note _ _ operand => noted "Unary" note :: expr operand
  | .array note elements => noted "Array" note :: exprs elements
  | .object note entries => noted "Object" note :: pairs entries
  | .member note base index => noted "Member" note :: expr base ++ expr index
  | .property note base name => noted "Property" note :: expr base ++ [field name]

/-- The lines of several expressions. -/
def exprs : List Expr → List String
  | [] => []
  | e :: others => expr e ++ exprs others

/-- The lines of an entry of an object literal. -/
def pair : Pair → List String
  | .mk pos key value canonical =>
    line ("ObjPair " ++ canonical.getD "") pos :: expr key ++ expr value

/-- The lines of the entries of an object literal. -/
def pairs : List Pair → List String
  | [] => []
  | entry :: others => pair entry ++ pairs others

end

/-- The lines of an expression that may be missing. -/
def optional : Option Expr → List String
  | some e => expr e
  | none => []

/-- The lines of declared names with their values. -/
def declarators (entries : List (Binding × Option Expr)) : List String :=
  entries.flatMap fun (name, init) => binding name :: optional init

mutual

/-- The lines of a statement. -/
def statement : Statement → List String
  | .declare pos _ name (some init) => line "VarDecInit" pos :: binding name :: expr init
  | .declare pos _ name none => [line "VarDec" pos, binding name]
  | .declareAll pos _ entries => line "MultiDec" pos :: declarators entries
  | .assign pos target value => line "Assign" pos :: expr target ++ expr value
  | .tryCatch pos body name handler =>
    line "TryCatch" pos :: block body ++ binding name :: block handler
  | .classDef pos name (some initialiser) bodyPos methods =>
    line "Class" pos :: binding name :: constructor initialiser ++
      line "Block" bodyPos :: functions methods
  | .classDef pos name none bodyPos methods =>
    line "Class" pos :: binding name :: line "Block" bodyPos :: functions methods
  | .function declared => function declared
  | .ifElse pos alternatives (some otherwise) =>
    line "If" pos :: arms "IfCase" alternatives ++ block otherwise
  | .ifElse pos alternatives none => line "If" pos :: arms "IfCase" alternatives
  | .whileLoop pos condition body => line "While" pos :: expr condition ++ block body
  | .forLoop pos name init condition step body =>
    line "For" pos :: binding name :: expr init ++ expr condition ++ expr step ++ block body
  | .forOf pos name iterable body =>
    line "ForOf" pos :: binding name :: expr iterable ++ block body
  | .switch pos selector alternatives (some otherwise) =>
    line "Switch" pos :: expr selector ++ arms "SwitchCase" alternatives ++ block otherwise
  | .switch pos selector alternatives none =>
    line "Switch" pos :: expr selector ++ arms "SwitchCase" alternatives
  | .returns pos (some value) => line "Return" pos :: expr value
  | .returns pos none => [line "ShortReturn" pos]
  | .print pos argument => line "Print" pos :: expr argument
  | .breakLoop pos => [line "Break" pos]
  | .continueLoop pos => [line "Continue" pos]
  | .expr pos e => line "Expr" pos :: expr e

/-- The lines of several statements. -/
def statements : List Statement → List String
  | [] => []
  | first :: others => statement first ++ statements others

/-- The lines of a block. -/
def block : Block → List String
  | .mk pos body => line "Block" pos :: statements body

/-- The lines of a function. -/
def function : Function → List String
  | .mk pos name params body =>
    line "FnDecl" pos :: binding name :: params.map parameter ++ block body

/-- The lines of several functions. -/
def functions : List Function → List String
  | [] => []
  | first :: others => function first ++ functions others

/-- The lines of a constructor. -/
def constructor : Constructor → List String
  | .mk pos params body => line "Constructor" pos :: params.map parameter ++ block body

/-- The lines of the alternatives of an `if` or `switch`. -/
def arms (label : String) : List Arm → List String
  | [] => []
  | first :: others => arm label first ++ arms label others

/-- The lines of an alternative. -/
def arm (label : String) : Arm → List String
  | .mk pos test body => line label pos :: expr test ++ block body

end

end Listing

/-- The lines of a program. -/
def Program.listing (program : Program) : List String :=
  Listing.statements program.statements

end Qalam
