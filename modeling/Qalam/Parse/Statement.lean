/-
# The grammar of statements

A statement is recognised by its first token; anything that no keyword announces is an
expression or an assignment. Blocks nest statements, and a nested statement is read only after
a brace or a colon, so the parsers for statements are built by levels like those for
expressions.
-/

import Qalam.Parse.Expression

namespace Qalam.Parser

/-- The parsers for the parts of a statement, and the budget for its loops. -/
structure Parts where
  expression : Parser Expr
  statement : Parser Statement
  budget : Nat

/-- Tokens at which a block in braces ends. -/
def endsBlock : TokenKind → Bool
  | .symbol .rbrace | .eof => true
  | _ => false

/-- Tokens at which the statements after a case label end. -/
def endsCase : TokenKind → Bool
  | .keyword .caseKw | .keyword .defaultKw | .symbol .rbrace | .eof => true
  | _ => false

/-- A block in braces. -/
def block (parts : Parts) : Parser Block := do
  let pos ← here
  sign .lbrace
  let statements ← manyUntil endsBlock parts.statement parts.budget
  sign .rbrace
  return .mk pos statements

/-- An expression in parentheses. -/
def parenthesized (parts : Parts) : Parser Expr := do
  sign .lparen
  let e ← parts.expression
  sign .rparen
  return e

/-- A declared name with its value, if one is given. -/
def declarator (parts : Parts) : Parser (Binding × Option Expr) := do
  let name ← binding
  if ← accept (.symbol .eq) then
    let init ← parts.expression
    return (name, some init)
  else
    return (name, none)

/-- The declaration of one or more variables or constants, after its keyword. -/
def declaration (parts : Parts) (pos : Position) (constant : Bool) : Parser Statement := do
  let first ← declarator parts
  let others ← commaItems (declarator parts) parts.budget
  sign .semi
  match others with
  | [] => return .declare pos constant first.1 first.2
  | _ :: _ => return .declareAll pos constant (first :: others)

/-- An alternative of an `if`, after its keyword. -/
def ifArm (parts : Parts) (pos : Position) : Parser Arm := do
  let condition ← parenthesized parts
  let body ← block parts
  return .mk pos condition body

/-- The further alternatives of an `if`. -/
def elseIfArms (parts : Parts) : Nat → Parser (List Arm)
  | 0 => return []
  | budget + 1 => do
    let pos ← here
    if ← accept (.keyword .elseIfKw) then
      let first ← ifArm parts pos
      let others ← elseIfArms parts budget
      return first :: others
    else
      return []

/-- An `if` statement, after its keyword. -/
def ifStatement (parts : Parts) (pos : Position) : Parser Statement := do
  let first ← ifArm parts pos
  let others ← elseIfArms parts parts.budget
  if ← accept (.keyword .elseKw) then
    let body ← block parts
    return .ifElse pos (first :: others) (some body)
  else
    return .ifElse pos (first :: others) none

/-- A `while` statement, after its keyword. -/
def whileStatement (parts : Parts) (pos : Position) : Parser Statement := do
  let condition ← parenthesized parts
  let body ← block parts
  return .whileLoop pos condition body

/-- A counting loop or a loop over the items of a value, after its keyword. -/
def forStatement (parts : Parts) (pos : Position) : Parser Statement := do
  sign .lparen
  if ← accept (.keyword .letKw) then
    let name ← binding
    sign .eq
    let init ← parts.expression
    sign .semi
    let condition ← parts.expression
    sign .semi
    let step ← parts.expression
    sign .rparen
    let body ← block parts
    return .forLoop pos name init condition step body
  else
    let name ← binding
    let iterable ← parts.expression
    sign .rparen
    let body ← block parts
    return .forOf pos name iterable body

/-- The statements after a case label. -/
def caseBody (parts : Parts) (pos : Position) : Parser Block := do
  let statements ← manyUntil endsCase parts.statement parts.budget
  return .mk pos statements

/-- The cases of a switch. The default may stand anywhere, but only once. -/
def switchArms (parts : Parts) : Bool → Nat → Parser (List Arm × Option Block)
  | _, 0 => return ([], none)
  | defaultSeen, budget + 1 => do
    if endsBlock (← peek) then return ([], none)
    let pos ← here
    if ← accept (.keyword .caseKw) then
      let test ← parts.expression
      sign .colon
      let body ← caseBody parts pos
      let (arms, otherwise) ← switchArms parts defaultSeen budget
      return (.mk pos test body :: arms, otherwise)
    else if ← accept (.keyword .defaultKw) then
      if defaultSeen then failAt .repeatedDefault pos
      sign .colon
      let body ← caseBody parts pos
      let (arms, _) ← switchArms parts true budget
      return (arms, some body)
    else
      fail .caseLabel

/-- A `switch` statement, after its keyword. -/
def switchStatement (parts : Parts) (pos : Position) : Parser Statement := do
  let selector ← parenthesized parts
  sign .lbrace
  let (arms, otherwise) ← switchArms parts false parts.budget
  sign .rbrace
  return .switch pos selector arms otherwise

/-- A parameter list in parentheses. -/
def parameters (parts : Parts) : Parser (List Parameter) := do
  sign .lparen
  listUntil .rparen parameter parts.budget

/-- A function, after its keyword. -/
def function (parts : Parts) (pos : Position) : Parser Function := do
  let name ← binding
  let params ← parameters parts
  let body ← block parts
  return .mk pos name params body

/-- The members of a class. The constructor may stand anywhere, but only once. -/
def members (parts : Parts) : Bool → Nat → Parser (Option Constructor × List Function)
  | _, 0 => return (none, [])
  | constructorSeen, budget + 1 => do
    if endsBlock (← peek) then return (none, [])
    let pos ← here
    if ← accept (.keyword .constructorKw) then
      if constructorSeen then failAt .repeatedConstructor pos
      let params ← parameters parts
      let body ← block parts
      let (_, methods) ← members parts true budget
      return (some (.mk pos params body), methods)
    else if ← accept (.keyword .functionKw) then
      let method ← function parts pos
      let (constructor, methods) ← members parts constructorSeen budget
      return (constructor, method :: methods)
    else
      fail .classMember

/-- A class, after its keyword. -/
def classStatement (parts : Parts) (pos : Position) : Parser Statement := do
  let name ← binding
  let bodyPos ← here
  sign .lbrace
  let (constructor, methods) ← members parts false parts.budget
  sign .rbrace
  return .classDef pos name constructor bodyPos methods

/-- A `try` statement, after its keyword. -/
def tryStatement (parts : Parts) (pos : Position) : Parser Statement := do
  let body ← block parts
  word .catchKw
  sign .lparen
  let name ← binding
  sign .rparen
  let handler ← block parts
  return .tryCatch pos body name handler

/-- A `return` statement, after its keyword. -/
def returnStatement (parts : Parts) (pos : Position) : Parser Statement := do
  if ← accept (.symbol .semi) then
    return .returns pos none
  else
    let value ← parts.expression
    sign .semi
    return .returns pos (some value)

/-- A `print` statement, after its keyword. -/
def printStatement (parts : Parts) (pos : Position) : Parser Statement := do
  let argument ← parenthesized parts
  sign .semi
  return .print pos argument

/-- An expression, or an assignment to it. -/
def plainStatement (parts : Parts) (pos : Position) : Parser Statement := do
  let e ← parts.expression
  if ← accept (.symbol .eq) then
    checkAssignable e .assignment
    let value ← parts.expression
    sign .semi
    return .assign pos e value
  else
    sign .semi
    return .expr pos e

/-- A statement, recognised by its first token. -/
def statementOf (parts : Parts) : Parser Statement := do
  let pos ← here
  match ← peek with
  | .keyword .letKw => skip; declaration parts pos false
  | .keyword .constKw => skip; declaration parts pos true
  | .keyword .ifKw => skip; ifStatement parts pos
  | .keyword .whileKw => skip; whileStatement parts pos
  | .keyword .forKw => skip; forStatement parts pos
  | .keyword .switchKw => skip; switchStatement parts pos
  | .keyword .functionKw => skip; .function <$> function parts pos
  | .keyword .classKw => skip; classStatement parts pos
  | .keyword .tryKw => skip; tryStatement parts pos
  | .keyword .returnKw => skip; returnStatement parts pos
  | .keyword .printKw => skip; printStatement parts pos
  | .keyword .breakKw => skip; sign .semi; return .breakLoop pos
  | .keyword .continueKw => skip; sign .semi; return .continueLoop pos
  | _ => plainStatement parts pos

/-- The parser for statements of a bounded number of tokens, given the parser for
expressions. -/
def statement (expression : Parser Expr) : Nat → Parser Statement
  | 0 => fail .expression
  | budget + 1 => statementOf ⟨expression, statement expression budget, budget + 1⟩

/-- Tokens at which a program ends. -/
def endsProgram (kind : TokenKind) : Bool := kind = .eof

/-- A program of a bounded number of tokens. -/
def program (budget : Nat) : Parser Program := do
  let expression := (nested budget).expression
  let statements ← manyUntil endsProgram (statement expression budget) budget
  return ⟨statements⟩

end Qalam.Parser

namespace Qalam

/-- The syntax tree of a list of tokens. What follows the first end-of-text token is not
looked at. -/
def Program.ofTokens (tokens : List Token) : Except SyntaxError Program :=
  ((Parser.program tokens.length).run tokens).map Prod.fst

end Qalam
