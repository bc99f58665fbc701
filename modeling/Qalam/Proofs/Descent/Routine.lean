/-
# Reading without budgets

The parser carries budgets, so that it ends by its form. Here the same routines are written without
them: they call one another, and their loops go round, as often as the tokens make them. Such a run
need not end. What a routine does is a script, in which calls stand unperformed, and a relation says
what a script leads to. It relates a script to nothing if the calls go on for ever.

Every routine is named by a value, so what holds of every routine can be said in one statement. A
loop keeps what it has read so far; one round of it reads a little more, or finds that the loop is
over.
-/

import Qalam.Proofs.Grammar.ExpressionSound

namespace Qalam

open Qalam.Parser Qalam.Grammar

namespace Descent

variable {α β : Type}

/-- What stands between commas. -/
inductive Item : Type → Type
  | argument : Item Expr
  | pair : Item Pair
  | parameter : Item Parameter
  | declarator : Item (Binding × Option Expr)

/-- Where a sequence of statements stands. -/
inductive Place
  | program | block | case

/-- Tokens at which a sequence of statements ends. -/
def Place.ends : Place → TokenKind → Bool
  | program => endsProgram
  | block => endsBlock
  | case => endsCase

/-- The loops, by what they gather. -/
inductive Loop : Type → Type 1
  | statements (place : Place) : Loop (List Statement)
  | items {α : Type} (item : Item α) : Loop (List α)
  | chain (tier : Tier) : Loop Expr
  | suffixes : Loop Expr
  | elseIfs : Loop (List Arm)
  | clauses : Loop (List Arm × Option Block)
  | members : Loop (Option Constructor × List Function)

/-- The routines of the parser, by what they read. What a keyword announces is read after that
keyword, whose position is given. A round of a loop gives nothing if the loop is over. -/
inductive Routine : Type → Type 1
  | round {α : Type} (loop : Loop α) (before : α) : Routine (Option α)
  | loop {α : Type} (loop : Loop α) (before : α) : Routine α
  | item {α : Type} (item : Item α) : Routine α
  | listed {α : Type} (close : Symbol) (item : Item α) : Routine (List α)
  | expression : Routine Expr
  | ternary : Routine Expr
  | chain (tier : Tier) : Routine Expr
  | unary : Routine Expr
  | power : Routine Expr
  | primary : Routine Expr
  | parenthesized : Routine Expr
  | block : Routine Block
  | caseBody (pos : Position) : Routine Block
  | parameters : Routine (List Parameter)
  | function (pos : Position) : Routine Function
  | ifArm (pos : Position) : Routine Arm
  | declaration (pos : Position) (constant : Bool) : Routine Statement
  | ifStatement (pos : Position) : Routine Statement
  | whileStatement (pos : Position) : Routine Statement
  | forStatement (pos : Position) : Routine Statement
  | switchStatement (pos : Position) : Routine Statement
  | classStatement (pos : Position) : Routine Statement
  | tryStatement (pos : Position) : Routine Statement
  | returnStatement (pos : Position) : Routine Statement
  | printStatement (pos : Position) : Routine Statement
  | plainStatement (pos : Position) : Routine Statement
  | statement : Routine Statement
  | program : Routine Program

/-- What a routine does: steps that are parsers, each of which ends with every list of tokens, and
calls of routines. -/
inductive Script (α : Type) : Type 1
  | done (value : α)
  | step {β : Type} (parser : Parser β) (next : β → Script α)
  | call {β : Type} (routine : Routine β) (next : β → Script α)

/-- One script after another. -/
def Script.bind : Script α → (α → Script β) → Script β
  | .done value, after => after value
  | .step parser next, after => .step parser fun value => (next value).bind after
  | .call routine next, after => .call routine fun value => (next value).bind after

instance : Monad Script where
  pure := .done
  bind := .bind

theorem Script.bind_done (script : Script α) : script.bind .done = script := by
  induction script with
  | done => rfl
  | step parser next ih => exact congrArg (step parser) (funext ih)
  | call routine next ih => exact congrArg (call routine) (funext ih)

theorem Script.bind_bind {γ : Type} (script : Script α) (next : α → Script β)
    (after : β → Script γ) :
    (script.bind next).bind after = script.bind fun value => (next value).bind after := by
  induction script with
  | done => rfl
  | step parser next ih => exact congrArg (step parser) (funext ih)
  | call routine next ih => exact congrArg (call routine) (funext ih)

instance : LawfulMonad Script :=
  .mk' Script Script.bind_done (fun _ _ => rfl) Script.bind_bind

instance : MonadLift Parser Script := ⟨fun parser => .step parser .done⟩

/-- Call a routine. -/
def run (routine : Routine α) : Script α := .call routine .done

/-- What reads the operands of a level of operators. -/
def operand : Tier → Routine Expr
  | .logic => .chain .relation
  | .relation => .chain .sum
  | .sum => .chain .product
  | .product => .unary

/-- What is made by a constructor instead of called. -/
def construction : Expr → Script Expr
  | .call note callee args => do
    skip
    return .new (.at note.pos) callee args
  | _ => fail .constructorCall

/-- The script of a routine. -/
def body {α : Type} : Routine α → Script α
  | .round (.statements place) before => do
    if place.ends (← peek) then return none
    else
      let next ← run .statement
      return some (before ++ [next])
  | .round (.items item) before => do
    if ← accept (.symbol .comma) then
      let next ← run (.item item)
      return some (before ++ [next])
    else
      return none
  | .round (.chain tier) left => do
    match tier.op? (← peek) with
    | some op =>
      skip
      let right ← run (operand tier)
      return some (.binary (.at left.pos) op left right)
    | none => return none
  | .round .suffixes e => do
    match ← peek with
    | .symbol .lparen =>
      skip
      let args ← run (.listed .rparen .argument)
      return some (.call (.at e.pos) e args)
    | .symbol .dot =>
      skip
      if ← accept (.keyword .thisKw) then
        let access ← thisAccess e
        return some access
      else
        let name ← field
        return some (.property (.at e.pos) e name)
    | .symbol .lbracket =>
      skip
      let index ← run .expression
      sign .rbracket
      return some (.member (.at e.pos) e index)
    | .keyword .thisKw =>
      skip
      let access ← thisAccess e
      return some access
    | .keyword .newKw =>
      let made ← construction e
      return some made
    | .symbol .plusPlus =>
      checkAssignable e .increment
      skip
      return some (.unary (.at e.pos) .increment .behind e)
    | .symbol .minusMinus =>
      checkAssignable e .increment
      skip
      return some (.unary (.at e.pos) .decrement .behind e)
    | _ => return none
  | .round .elseIfs before => do
    let pos ← here
    if ← accept (.keyword .elseIfKw) then
      let next ← run (.ifArm pos)
      return some (before ++ [next])
    else
      return none
  | .round .clauses (arms, otherwise) => do
    if endsBlock (← peek) then return none
    else
      let pos ← here
      if ← accept (.keyword .caseKw) then
        let test ← run .expression
        sign .colon
        let body ← run (.caseBody pos)
        return some (arms ++ [.mk pos test body], otherwise)
      else if ← accept (.keyword .defaultKw) then
        if otherwise.isSome then failAt .repeatedDefault pos
        else
          sign .colon
          let body ← run (.caseBody pos)
          return some (arms, some body)
      else
        fail .caseLabel
  | .round .members (constructor, methods) => do
    if endsBlock (← peek) then return none
    else
      let pos ← here
      if ← accept (.keyword .constructorKw) then
        if constructor.isSome then failAt .repeatedConstructor pos
        else
          let params ← run .parameters
          let body ← run .block
          return some (some (.mk pos params body), methods)
      else if ← accept (.keyword .functionKw) then
        let method ← run (.function pos)
        return some (constructor, methods ++ [method])
      else
        fail .classMember
  | .loop gathers before => do
    match ← run (.round gathers before) with
    | some next => run (.loop gathers next)
    | none => return before
  | .item .argument => run .expression
  | .item .pair => do
    let pos ← here
    let key ← run (.chain .logic)
    sign .colon
    let value ← run .expression
    return .mk pos key value none
  | .item .parameter => parameter
  | .item .declarator => do
    let name ← binding
    if ← accept (.symbol .eq) then
      let init ← run .expression
      return (name, some init)
    else
      return (name, none)
  | .listed close item => do
    if ← accept (.symbol close) then return []
    else
      let first ← run (.item item)
      let all ← run (.loop (.items item) [first])
      sign close
      return all
  | .expression => do
    let left ← run .ternary
    match compoundOp? (← peek) with
    | some op =>
      skip
      checkAssignable left .compoundAssignment
      let right ← run .expression
      return .binary (.at left.pos) op left right
    | none => return left
  | .ternary => do
    let condition ← run (.chain .logic)
    if ← accept (.symbol .question) then
      let yes ← run .ternary
      sign .colon
      let no ← run .ternary
      return .ternary (.at condition.pos) condition yes no
    else
      return condition
  | .chain tier => do
    let first ← run (operand tier)
    run (.loop (.chain tier) first)
  | .unary => do
    let pos ← here
    let kind ← peek
    if kind = .keyword .typeOfKw then
      skip
      let operand ← run .unary
      return .typeOf (.at pos) operand
    else
      match unaryOp? kind with
      | some op =>
        skip
        let operand ← run .unary
        if op.isMutation then checkAssignable operand .increment
        return .unary (.at pos) op .before operand
      | none => run .power
  | .power => do
    let first ← run .primary
    let base ← run (.loop .suffixes first)
    if ← accept (.symbol .starStar) then
      let exponent ← run .unary
      return .binary (.at base.pos) .pow base exponent
    else
      return base
  | .primary => do
    let pos ← here
    let kind ← peek
    match kind with
    | .ident name =>
      skip
      return .ident (.at pos) name none
    | .symbol .lparen =>
      skip
      let e ← run .expression
      sign .rparen
      return e
    | .symbol .lbracket =>
      skip
      let elements ← run (.listed .rbracket .argument)
      return .array (.at pos) elements
    | .symbol .lbrace =>
      skip
      let pairs ← run (.listed .rbrace .pair)
      return .object (.at pos) pairs
    | _ =>
      match literal? kind with
      | some value =>
        skip
        return .literal (.at pos) value
      | none => fail .expression
  | .parenthesized => do
    sign .lparen
    let e ← run .expression
    sign .rparen
    return e
  | .block => do
    let pos ← here
    sign .lbrace
    let statements ← run (.loop (.statements .block) [])
    sign .rbrace
    return .mk pos statements
  | .caseBody pos => do
    let statements ← run (.loop (.statements .case) [])
    return .mk pos statements
  | .parameters => do
    sign .lparen
    run (.listed .rparen .parameter)
  | .function pos => do
    let name ← binding
    let params ← run .parameters
    let body ← run .block
    return .mk pos name params body
  | .ifArm pos => do
    let condition ← run .parenthesized
    let body ← run .block
    return .mk pos condition body
  | .declaration pos constant => do
    let first ← run (.item .declarator)
    let all ← run (.loop (.items .declarator) [first])
    sign .semi
    match all with
    | [only] => return .declare pos constant only.1 only.2
    | _ => return .declareAll pos constant all
  | .ifStatement pos => do
    let first ← run (.ifArm pos)
    let all ← run (.loop .elseIfs [first])
    if ← accept (.keyword .elseKw) then
      let body ← run .block
      return .ifElse pos all (some body)
    else
      return .ifElse pos all none
  | .whileStatement pos => do
    let condition ← run .parenthesized
    let body ← run .block
    return .whileLoop pos condition body
  | .forStatement pos => do
    sign .lparen
    if ← accept (.keyword .letKw) then
      let name ← binding
      sign .eq
      let init ← run .expression
      sign .semi
      let condition ← run .expression
      sign .semi
      let step ← run .expression
      sign .rparen
      let body ← run .block
      return .forLoop pos name init condition step body
    else
      let name ← binding
      let iterable ← run .expression
      sign .rparen
      let body ← run .block
      return .forOf pos name iterable body
  | .switchStatement pos => do
    let selector ← run .parenthesized
    sign .lbrace
    let (arms, otherwise) ← run (.loop .clauses ([], none))
    sign .rbrace
    return .switch pos selector arms otherwise
  | .classStatement pos => do
    let name ← binding
    let bodyPos ← here
    sign .lbrace
    let (constructor, methods) ← run (.loop .members (none, []))
    sign .rbrace
    return .classDef pos name constructor bodyPos methods
  | .tryStatement pos => do
    let body ← run .block
    word .catchKw
    sign .lparen
    let name ← binding
    sign .rparen
    let handler ← run .block
    return .tryCatch pos body name handler
  | .returnStatement pos => do
    if ← accept (.symbol .semi) then
      return .returns pos none
    else
      let value ← run .expression
      sign .semi
      return .returns pos (some value)
  | .printStatement pos => do
    let argument ← run .parenthesized
    sign .semi
    return .print pos argument
  | .plainStatement pos => do
    let e ← run .expression
    if ← accept (.symbol .eq) then
      checkAssignable e .assignment
      let value ← run .expression
      sign .semi
      return .assign pos e value
    else
      sign .semi
      return .expr pos e
  | .statement => do
    let pos ← here
    match ← peek with
    | .keyword .letKw => skip; run (.declaration pos false)
    | .keyword .constKw => skip; run (.declaration pos true)
    | .keyword .ifKw => skip; run (.ifStatement pos)
    | .keyword .whileKw => skip; run (.whileStatement pos)
    | .keyword .forKw => skip; run (.forStatement pos)
    | .keyword .switchKw => skip; run (.switchStatement pos)
    | .keyword .functionKw => do
      skip
      let declared ← run (.function pos)
      return .function declared
    | .keyword .classKw => skip; run (.classStatement pos)
    | .keyword .tryKw => skip; run (.tryStatement pos)
    | .keyword .returnKw => skip; run (.returnStatement pos)
    | .keyword .printKw => skip; run (.printStatement pos)
    | .keyword .breakKw => do
      skip
      sign .semi
      return .breakLoop pos
    | .keyword .continueKw => do
      skip
      sign .semi
      return .continueLoop pos
    | _ => run (.plainStatement pos)
  | .program => do
    let statements ← run (.loop (.statements .program) [])
    return ⟨statements⟩

/-- What a script leads to from a list of tokens: a value with the tokens that are left, or an
error. -/
inductive Runs : {α : Type} → Script α → List Token → Except SyntaxError (α × List Token) → Prop
  | done {α : Type} {value : α} {tokens : List Token} :
      Runs (.done value) tokens (.ok (value, tokens))
  | step {α β : Type} {parser : Parser β} {next : β → Script α} {tokens rest : List Token}
      {value : β} {outcome : Except SyntaxError (α × List Token)}
      (reads : parser tokens = .ok (value, rest)) (further : Runs (next value) rest outcome) :
      Runs (.step parser next) tokens outcome
  | stepFails {α β : Type} {parser : Parser β} {next : β → Script α} {tokens : List Token}
      {error : SyntaxError} (fails : parser tokens = .error error) :
      Runs (.step parser next) tokens (.error error)
  | call {α β : Type} {routine : Routine β} {next : β → Script α} {tokens rest : List Token}
      {value : β} {outcome : Except SyntaxError (α × List Token)}
      (inner : Runs (body routine) tokens (.ok (value, rest)))
      (further : Runs (next value) rest outcome) : Runs (.call routine next) tokens outcome
  | callFails {α β : Type} {routine : Routine β} {next : β → Script α} {tokens : List Token}
      {error : SyntaxError} (inner : Runs (body routine) tokens (.error error)) :
      Runs (.call routine next) tokens (.error error)

/-- Whether a routine with a certain result has to consume a token. A loop may go round not at all,
and its last round consumes nothing. -/
def Routine.moves : {α : Type} → Routine α → α → Bool
  | _, .round _ _, next => next.isSome
  | _, .loop _ _, _ => false
  | _, .caseBody _, _ => false
  | _, .program, _ => false
  | _, _, _ => true

end Descent

end Qalam
