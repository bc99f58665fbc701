/-
# Syntax trees

One family of trees serves before and after binding. A tree from the parser has no entity
numbers, no tags and no canonical keys; binding fills these in and changes nothing else. The
shape itself keeps the promises of the grammar: a field or parameter is a plain name, a class
body holds only functions, and an `if` is a list of arms.
-/

import Qalam.Decimal.Layout
import Qalam.Entity
import Qalam.Position
import Qalam.Text.Quoted

namespace Qalam

/-- Operators between two operands. -/
inductive BinaryOp
  | add | sub | mul | div | mod | pow
  | eq | ne | lt | le | gt | ge
  | and | or
  | addAssign | subAssign
  deriving DecidableEq

/-- The spelling of a binary operator. -/
def BinaryOp.text : BinaryOp → String
  | add => "+"
  | sub => "-"
  | mul => "*"
  | div => "/"
  | mod => "%"
  | pow => "**"
  | eq => "=="
  | ne => "!="
  | lt => "<"
  | le => "<="
  | gt => ">"
  | ge => ">="
  | and => "&&"
  | or => "||"
  | addAssign => "+="
  | subAssign => "-="

/-- Whether an operator stores its result in its left operand. -/
def BinaryOp.isCompoundAssignment : BinaryOp → Bool
  | addAssign | subAssign => true
  | _ => false

/-- Operators on one operand. -/
inductive UnaryOp
  | neg | not | increment | decrement
  deriving DecidableEq

/-- The spelling of a unary operator. -/
def UnaryOp.text : UnaryOp → String
  | neg => "-"
  | not => "!"
  | increment => "++"
  | decrement => "--"

/-- Whether a unary operator stores its result in its operand. -/
def UnaryOp.isMutation : UnaryOp → Bool
  | increment | decrement => true
  | _ => false

/-- The side of the operand on which a unary operator stands. -/
inductive Fixity
  | before | behind
  deriving DecidableEq

/-- Constants of the language. Integers are exact at any length. -/
inductive Literal
  | bool (value : Bool)
  | number (value : Binary64)
  | int (value : Nat)
  | str (value : String)
  | null
  | undefined
  deriving DecidableEq

/-- The tag of a constant. -/
def Literal.tag : Literal → Tag
  | bool _ => .boolean
  | number _ => .number
  | int _ => .int
  | str _ => .string
  | null | undefined => .none

/-- What every expression carries: its position and, once bound, its tag. -/
structure Note where
  pos : Position
  tag : Option Tag
  deriving DecidableEq

/-- The note of an expression that is not bound yet. -/
def Note.at (pos : Position) : Note := ⟨pos, none⟩

/-- A name that belongs to an object and is not looked up in any scope. -/
structure Field where
  name : String
  note : Note
  deriving DecidableEq

/-- A name introduced by a declaration, with its entity once bound. -/
structure Binding where
  name : String
  pos : Position
  entity : Option EntityId
  deriving DecidableEq

/-- A parameter: a name that is both a declaration and an expression with a tag. -/
structure Parameter where
  name : String
  note : Note
  entity : Option EntityId
  deriving DecidableEq

mutual

/-- Expressions. -/
inductive Expr
  | literal (note : Note) (value : Literal)
  | ident (note : Note) (name : String) (entity : Option EntityId)
  | call (note : Note) (callee : Expr) (args : List Expr)
  | this (note : Note) (field : Field)
  | new (note : Note) (target : Expr) (args : List Expr)
  | typeOf (note : Note) (operand : Expr)
  | ternary (note : Note) (condition yes no : Expr)
  | binary (note : Note) (op : BinaryOp) (left right : Expr)
  | unary (note : Note) (op : UnaryOp) (fixity : Fixity) (operand : Expr)
  | array (note : Note) (elements : List Expr)
  | object (note : Note) (pairs : List Pair)
  | member (note : Note) (base index : Expr)
  | property (note : Note) (base : Expr) (field : Field)

/-- An entry of an object literal, with the canonical text of its key once bound. -/
inductive Pair
  | mk (pos : Position) (key value : Expr) (canonical : Option String)

end

namespace Expr

/-- The note of an expression. -/
def note : Expr → Note
  | literal note _ | ident note _ _ | call note _ _ | this note _ | new note _ _
  | typeOf note _ | ternary note _ _ _ | binary note _ _ _ | unary note _ _ _
  | array note _ | object note _ | member note _ _ | property note _ _ => note

/-- The position of an expression. -/
def pos (e : Expr) : Position := e.note.pos

/-- The tag of an expression; `any` if it is not bound yet. -/
def tag (e : Expr) : Tag := e.note.tag.getD .any

/-- The same expression with another tag. -/
def withTag (tag : Tag) : Expr → Expr
  | literal note value => literal { note with tag } value
  | ident note name entity => ident { note with tag } name entity
  | call note callee args => call { note with tag } callee args
  | this note field => this { note with tag } field
  | new note target args => new { note with tag } target args
  | typeOf note operand => typeOf { note with tag } operand
  | ternary note condition yes no => ternary { note with tag } condition yes no
  | binary note op left right => binary { note with tag } op left right
  | unary note op fixity operand => unary { note with tag } op fixity operand
  | array note elements => array { note with tag } elements
  | object note pairs => object { note with tag } pairs
  | member note base index => member { note with tag } base index
  | property note base field => property { note with tag } base field

/-- Whether a value can be stored in an expression. -/
def isAssignable : Expr → Bool
  | ident .. | this .. | property .. | member .. => true
  | _ => false

/-- The text by which two keys of an object literal are compared. Constants are compared by
their written form, names by their spelling, and any other key by its position. -/
def keyText : Expr → String
  | literal _ (.int value) => Decimal.digitText value
  | literal _ (.number value) => value.text
  | literal _ (.str value) => Text.display value
  | literal _ (.bool value) => if value then "true" else "false"
  | literal _ .null => "null"
  | literal _ .undefined => "undefined"
  | ident _ name _ => name
  | e => "<expr@" ++ e.pos.text ++ ">"

end Expr

mutual

/-- Statements. A declaration without a value leaves it undefined. -/
inductive Statement
  | declare (pos : Position) (constant : Bool) (binding : Binding) (init : Option Expr)
  | declareAll (pos : Position) (constant : Bool) (declarators : List (Binding × Option Expr))
  | assign (pos : Position) (target value : Expr)
  | tryCatch (pos : Position) (body : Block) (binding : Binding) (handler : Block)
  | classDef (pos : Position) (binding : Binding) (constructor : Option Constructor)
      (bodyPos : Position) (methods : List Function)
  | function (function : Function)
  | ifElse (pos : Position) (arms : List Arm) (otherwise : Option Block)
  | whileLoop (pos : Position) (condition : Expr) (body : Block)
  | forLoop (pos : Position) (binding : Binding) (init condition step : Expr) (body : Block)
  | forOf (pos : Position) (binding : Binding) (iterable : Expr) (body : Block)
  | switch (pos : Position) (selector : Expr) (arms : List Arm) (otherwise : Option Block)
  | returns (pos : Position) (value : Option Expr)
  | print (pos : Position) (argument : Expr)
  | breakLoop (pos : Position)
  | continueLoop (pos : Position)
  | expr (pos : Position) (expr : Expr)

/-- A sequence of statements in braces, or after a case label. -/
inductive Block
  | mk (pos : Position) (statements : List Statement)

/-- A function, or a method when it stands in a class. -/
inductive Function
  | mk (pos : Position) (binding : Binding) (params : List Parameter) (body : Block)

/-- The function that initialises the objects of a class. -/
inductive Constructor
  | mk (pos : Position) (params : List Parameter) (body : Block)

/-- An alternative of an `if` or `switch`: an expression to test and what to do. -/
inductive Arm
  | mk (pos : Position) (test : Expr) (body : Block)

end

/-- A program is a sequence of statements. -/
structure Program where
  statements : List Statement

/-- A bound program: the annotated tree and the entities it refers to. -/
structure BoundProgram where
  program : Program
  entities : Entities

end Qalam
