/-
# Analysis of expressions

Every expression receives a tag, and every name outside field positions the entity it refers
to. Operands come before the checks on them, and checks before the operands that follow, so the
fault reported is the first one in the order of the text.
-/

import Qalam.Analysis.Basic

namespace Qalam.Analysis

/-- The tag of a binary expression, from its bound operands. -/
def binaryTag (op : BinaryOp) (left right : Expr) : Analysis Tag := do
  match op with
  | .and | .or | .eq | .ne | .lt | .le | .gt | .ge => return .boolean
  | .add => return .widen [left.tag, right.tag]
  | .addAssign =>
    requireMutable left
    return .widen [left.tag, right.tag]
  | .sub | .mul | .div | .mod | .pow =>
    require .number left
    require .number right
    return .number
  | .subAssign =>
    requireMutable left
    require .number left
    require .number right
    return .number

/-- The tag of a unary expression, from its bound operand. -/
def unaryTag (op : UnaryOp) (operand : Expr) : Analysis Tag := do
  match op with
  | .increment | .decrement =>
    requireMutable operand
    require .number operand
    return operand.tag
  | .neg =>
    require .number operand
    return operand.tag
  | .not =>
    require .boolean operand
    return .boolean

/-- Demand that a bound expression can be called. -/
def requireCallable (e : Expr) : Analysis Unit := do
  if !e.tag.isCallable then failAt (.notCallable e.tag) e.pos

/-- Demand that a bound expression can name a class. -/
def requireClassReference (e : Expr) : Analysis Unit := do
  if !e.tag.isClassReference then failAt (.notAClass e.tag) e.pos

/-- Demand that the key of an entry differs from the keys before it, and remember it. -/
def distinctKey (seen : List String) : Pair → Analysis (List String)
  | .mk pos key _ _ =>
    if key.keyText ∈ seen then failAt (.duplicateKeys key.keyText) pos
    else return key.keyText :: seen

mutual

/-- Bind an expression. -/
def expr : Expr → Analysis Expr
  | .literal note value => return .literal { note with tag := some value.tag } value
  | .ident note name _ => do
    let (id, tag) ← resolve name note.pos
    return .ident { note with tag := some tag } name (some id)
  | .call note callee args => do
    let callee ← expr callee
    requireCallable callee
    let args ← exprs args
    return .call { note with tag := some .any } callee args
  | .this note name => do
    requireClass note.pos
    return .this { note with tag := some .any } (field name)
  | .new note target args => do
    let target ← expr target
    requireClassReference target
    let args ← exprs args
    return .new { note with tag := some .object } target args
  | .typeOf note operand => do
    let operand ← expr operand
    return .typeOf { note with tag := some .string } operand
  | .ternary note condition yes no => do
    let condition ← expr condition
    require .boolean condition
    let yes ← expr yes
    let no ← expr no
    return .ternary { note with tag := some (.widen [yes.tag, no.tag]) } condition yes no
  | .binary note op left right => do
    let left ← expr left
    let right ← expr right
    let tag ← binaryTag op left right
    return .binary { note with tag := some tag } op left right
  | .unary note op side operand => do
    let operand ← expr operand
    let tag ← unaryTag op operand
    return .unary { note with tag := some tag } op side operand
  | .array note elements => do
    let elements ← exprs elements
    return .array { note with tag := some .array } elements
  | .object note entries => do
    let entries ← pairs [] entries
    return .object { note with tag := some .object } entries
  | .member note base index => do
    let base ← expr base
    require .arrayOrObject base
    let index ← expr index
    if base.tag = .array then require .integer index
    return .member { note with tag := some .any } base index
  | .property note base name => do
    let base ← expr base
    require .object base
    return .property { note with tag := some .any } base (field name)

/-- Bind several expressions in order. -/
def exprs : List Expr → Analysis (List Expr)
  | [] => return []
  | e :: others => do
    let e ← expr e
    let others ← exprs others
    return e :: others

/-- Bind an entry of an object literal. A plain name as a key is a field name. -/
def pair : Pair → Analysis Pair
  | .mk pos key value _ => do
    let key ← match key with
      | .ident note name entity => pure (.ident { note with tag := some .any } name entity)
      | key => expr key
    let value ← expr value
    return .mk pos key value (some key.keyText)

/-- Bind the entries of an object literal after those with the given keys. -/
def pairs (seen : List String) : List Pair → Analysis (List Pair)
  | [] => return []
  | entry :: others => do
    let entry ← pair entry
    let seen ← distinctKey seen entry
    let others ← pairs seen others
    return entry :: others

end

end Qalam.Analysis
