/-
# The grammar of expressions

From the loosest to the tightest: compound assignment, the conditional, the logical operators,
comparisons, sums, products, prefix operators, powers, and suffixes such as calls and member
access. The operators of one level associate to the left, powers and compound assignments to
the right. `this` and `new` are written after what they apply to.

A nested expression is read only after a token has been consumed, so the levels can be built
one upon another: the parsers for texts of at most `n + 1` tokens use those for `n` tokens.
With no token left, every expression is missing.
-/

import Qalam.Parse.Basic

namespace Qalam.Parser

/-- The parsers available for what is nested inside an expression. -/
structure Nested where
  expression : Parser Expr
  ternary : Parser Expr
  unary : Parser Expr

/-- Logical operators. -/
def logicOp? : TokenKind → Option BinaryOp
  | .symbol .andAnd => some .and
  | .symbol .orOr => some .or
  | _ => none

/-- Comparisons. -/
def relationOp? : TokenKind → Option BinaryOp
  | .symbol .eqEq => some .eq
  | .symbol .notEq => some .ne
  | .symbol .lt => some .lt
  | .symbol .le => some .le
  | .symbol .gt => some .gt
  | .symbol .ge => some .ge
  | _ => none

/-- Operators of sums. -/
def sumOp? : TokenKind → Option BinaryOp
  | .symbol .plus => some .add
  | .symbol .minus => some .sub
  | _ => none

/-- Operators of products. -/
def productOp? : TokenKind → Option BinaryOp
  | .symbol .star => some .mul
  | .symbol .slash => some .div
  | .symbol .percent => some .mod
  | _ => none

/-- Compound assignments. -/
def compoundOp? : TokenKind → Option BinaryOp
  | .symbol .plusEq => some .addAssign
  | .symbol .minusEq => some .subAssign
  | _ => none

/-- Prefix operators. -/
def unaryOp? : TokenKind → Option UnaryOp
  | .symbol .minus => some .neg
  | .symbol .bang => some .not
  | .symbol .plusPlus => some .increment
  | .symbol .minusMinus => some .decrement
  | _ => none

/-- Constants that are a single token. -/
def literal? : TokenKind → Option Literal
  | .int value => some (.int value)
  | .float value => some (.number value)
  | .str value => some (.str value)
  | .keyword .trueKw => some (.bool true)
  | .keyword .falseKw => some (.bool false)
  | .keyword .nullKw => some .null
  | .keyword .undefinedKw => some .undefined
  | _ => none

/-- Continue a chain of operators of one level to the right of its first operand. -/
def chainRest (op? : TokenKind → Option BinaryOp) (operand : Parser Expr) :
    Nat → Expr → Parser Expr
  | 0, left => return left
  | budget + 1, left => do
    match op? (← peek) with
    | some op =>
      skip
      let right ← operand
      chainRest op? operand budget (.binary (.at left.pos) op left right)
    | none => return left

/-- Read operands with operators of one level between them. -/
def chain (op? : TokenKind → Option BinaryOp) (operand : Parser Expr) (budget : Nat) :
    Parser Expr := do
  let first ← operand
  chainRest op? operand budget first

/-- The access to a field of the current object; the expression before `this` names it. -/
def thisAccess : Expr → Parser Expr
  | .ident note name _ => return .this (.at note.pos) ⟨name, note⟩
  | e => failAt .noFieldBeforeThis e.pos

/-- An entry of an object literal. The key ends before a conditional, so that the colon after
it is not taken for the second branch. -/
def pair (key value : Parser Expr) : Parser Pair := do
  let pos ← here
  let key ← key
  sign .colon
  let value ← value
  return .mk pos key value none

/-- Read a constant, a name, or an expression in brackets of some kind. -/
def primary (nested : Nested) (key : Parser Expr) (budget : Nat) : Parser Expr := do
  let pos ← here
  let kind ← peek
  match kind with
  | .ident name =>
    skip
    return .ident (.at pos) name none
  | .symbol .lparen =>
    skip
    let e ← nested.expression
    sign .rparen
    return e
  | .symbol .lbracket =>
    skip
    let elements ← listUntil .rbracket nested.expression budget
    return .array (.at pos) elements
  | .symbol .lbrace =>
    skip
    let pairs ← listUntil .rbrace (pair key nested.expression) budget
    return .object (.at pos) pairs
  | _ =>
    match literal? kind with
    | some value =>
      skip
      return .literal (.at pos) value
    | none => fail .expression

/-- Apply the suffixes that follow an expression. -/
def suffixes (nested : Nested) : Nat → Expr → Parser Expr
  | 0, e => return e
  | budget + 1, e => do
    match ← peek with
    | .symbol .lparen =>
      skip
      let args ← listUntil .rparen nested.expression budget
      suffixes nested budget (.call (.at e.pos) e args)
    | .symbol .dot =>
      skip
      if ← accept (.keyword .thisKw) then
        let access ← thisAccess e
        suffixes nested budget access
      else
        let name ← field
        suffixes nested budget (.property (.at e.pos) e name)
    | .symbol .lbracket =>
      skip
      let index ← nested.expression
      sign .rbracket
      suffixes nested budget (.member (.at e.pos) e index)
    | .keyword .thisKw =>
      skip
      let access ← thisAccess e
      suffixes nested budget access
    | .keyword .newKw =>
      match e with
      | .call note callee args =>
        skip
        suffixes nested budget (.new (.at note.pos) callee args)
      | _ => fail .constructorCall
    | .symbol .plusPlus =>
      checkAssignable e .increment
      skip
      suffixes nested budget (.unary (.at e.pos) .increment .behind e)
    | .symbol .minusMinus =>
      checkAssignable e .increment
      skip
      suffixes nested budget (.unary (.at e.pos) .decrement .behind e)
    | _ => return e

/-- Read an expression with its suffixes, and an exponent if one follows. -/
def power (nested : Nested) (key : Parser Expr) (budget : Nat) : Parser Expr := do
  let first ← primary nested key budget
  let base ← suffixes nested budget first
  if ← accept (.symbol .starStar) then
    let exponent ← nested.unary
    return .binary (.at base.pos) .pow base exponent
  else
    return base

/-- Read prefix operators and what they apply to. -/
def unary (nested : Nested) (key : Parser Expr) (budget : Nat) : Parser Expr := do
  let pos ← here
  let kind ← peek
  if kind = .keyword .typeOfKw then
    skip
    let operand ← nested.unary
    return .typeOf (.at pos) operand
  else
    match unaryOp? kind with
    | some op =>
      skip
      let operand ← nested.unary
      if op.isMutation then checkAssignable operand .increment
      return .unary (.at pos) op .before operand
    | none => power nested key budget

/-- Read a product. -/
def product (operand : Parser Expr) (budget : Nat) : Parser Expr :=
  chain productOp? operand budget

/-- Read a sum. -/
def sum (operand : Parser Expr) (budget : Nat) : Parser Expr :=
  chain sumOp? (product operand budget) budget

/-- Read a comparison. -/
def relation (operand : Parser Expr) (budget : Nat) : Parser Expr :=
  chain relationOp? (sum operand budget) budget

/-- Read a logical expression. -/
def logic (operand : Parser Expr) (budget : Nat) : Parser Expr :=
  chain logicOp? (relation operand budget) budget

/-- Read a conditional. -/
def ternary (nested : Nested) (condition : Parser Expr) : Parser Expr := do
  let condition ← condition
  if ← accept (.symbol .question) then
    let yes ← nested.ternary
    sign .colon
    let no ← nested.ternary
    return .ternary (.at condition.pos) condition yes no
  else
    return condition

/-- Read a compound assignment. -/
def compound (nested : Nested) (left : Parser Expr) : Parser Expr := do
  let left ← left
  match compoundOp? (← peek) with
  | some op =>
    skip
    checkAssignable left .compoundAssignment
    let right ← nested.expression
    return .binary (.at left.pos) op left right
  | none => return left

/-- The parsers for texts of a bounded number of tokens. -/
def nested : Nat → Nested
  | 0 => ⟨fail .expression, fail .expression, fail .expression⟩
  | budget + 1 =>
    let inner := nested budget
    let unary := unary inner (logic inner.unary budget) (budget + 1)
    let ternary := ternary inner (logic unary (budget + 1))
    ⟨compound inner ternary, ternary, unary⟩

end Qalam.Parser
