/-
# Expressions as JavaScript

Expressions are written with the names they carry. A binary expression always gets parentheses
of its own, and so does the operand of a prefix operator; a conditional or a compound assignment
gets them where it is the operand of something else. Equality is written in its strict form.
-/

import Qalam.Tree

namespace Qalam.JavaScript

/-- The written form of a constant. -/
def literal : Literal → String
  | .bool value => if value then "true" else "false"
  | .number value => value.text
  | .int value => Decimal.digitText value
  | .str value => Text.dataLiteral value
  | .null => "null"
  | .undefined => "undefined"

/-- The written form of a binary operator. -/
def operator : BinaryOp → String
  | .eq => "==="
  | .ne => "!=="
  | op => op.text

/-- Whether an expression needs parentheses as an operand. -/
def isLoose : Expr → Bool
  | .ternary .. => true
  | .binary _ op _ _ => op.isCompoundAssignment
  | _ => false

/-- A text in parentheses. -/
def parenthesized (text : String) : String := "(" ++ text ++ ")"

/-- The text of an expression where it is an operand. -/
def asOperand (e : Expr) (text : String) : String :=
  if isLoose e then parenthesized text else text

mutual

/-- The written form of an expression. -/
def expr : Expr → String
  | .literal _ value => literal value
  | .ident _ name _ => name
  | .call _ callee args => asOperand callee (expr callee) ++ parenthesized (list ", " args)
  | .this _ field => "this." ++ field.name
  | .new _ target args =>
    "new " ++ asOperand target (expr target) ++ parenthesized (list ", " args)
  | .typeOf _ operand => "typeof " ++ asOperand operand (expr operand)
  | .ternary _ condition yes no =>
    asOperand condition (expr condition) ++ " ? " ++ asOperand yes (expr yes) ++ " : " ++
      asOperand no (expr no)
  | .binary _ op left right =>
    let text := asOperand left (expr left) ++ " " ++ operator op ++ " " ++
      asOperand right (expr right)
    if op.isCompoundAssignment then text else parenthesized text
  | .unary _ op .before operand =>
    op.text ++ parenthesized (asOperand operand (expr operand))
  | .unary _ op .behind operand => asOperand operand (expr operand) ++ op.text
  | .array _ elements => "[" ++ list "," elements ++ "]"
  | .object _ entries => "\x7b" ++ pairs entries ++ "\x7d"
  | .member _ base index => asOperand base (expr base) ++ "[" ++ expr index ++ "]"
  | .property _ base field => asOperand base (expr base) ++ "." ++ field.name

/-- The written form of several expressions. -/
def list (separator : String) : List Expr → String
  | [] => ""
  | [last] => expr last
  | first :: others => expr first ++ separator ++ list separator others

/-- The written form of an entry of an object literal. -/
def pair : Pair → String
  | .mk _ key value _ => expr key ++ ": " ++ expr value

/-- The written form of the entries of an object literal. -/
def pairs : List Pair → String
  | [] => ""
  | [last] => pair last
  | first :: others => pair first ++ ", " ++ pairs others

end

end Qalam.JavaScript
