/-
# Reading tokens

A parser consumes tokens from the front of a list. The end-of-text token and the end of the
list are the same to it, except that nothing is known about the position of the latter, which
is then given as the first position of a text.

Loops carry a budget: a bound on the number of tokens still to come. Each round consumes a
token, so a budget as large as the number of tokens is never felt, and with the budget used up
there is no token left to read.
-/

import Qalam.Fault.Syntax
import Qalam.Tree

namespace Qalam

/-- A computation that consumes tokens or fails. -/
abbrev Parser (α : Type) : Type := StateT (List Token) (Except SyntaxError) α

namespace Parser

/-- The kind of the next token. -/
def peek : Parser TokenKind := fun tokens =>
  match tokens with
  | token :: _ => .ok (token.kind, tokens)
  | [] => .ok (.eof, tokens)

/-- The position of the next token. -/
def here : Parser Position := fun tokens =>
  match tokens with
  | token :: _ => .ok (token.pos, tokens)
  | [] => .ok (.start, tokens)

/-- Consume the next token. -/
def skip : Parser Unit := fun tokens => .ok ((), tokens.tail)

/-- Report a fault at a position. -/
def failAt {α : Type} (fault : SyntaxFault) (pos : Position) : Parser α :=
  throw ⟨fault, pos⟩

/-- Report that something else was wanted in place of the next token. -/
def fail {α : Type} (wanted : Wanted) : Parser α := do
  let found ← peek
  let pos ← here
  failAt (.expected wanted found) pos

/-- Consume the next token if it is of the given kind, and tell whether it was. -/
def accept (kind : TokenKind) : Parser Bool := do
  if (← peek) = kind then
    skip
    return true
  else
    return false

/-- Consume the next token, which has to be of the given kind. -/
def expect (kind : TokenKind) : Parser Unit := do
  if (← peek) = kind then skip else fail (.token kind)

/-- Consume a symbol. -/
def sign (symbol : Symbol) : Parser Unit := expect (.symbol symbol)

/-- Consume a keyword. -/
def word (keyword : Keyword) : Parser Unit := expect (.keyword keyword)

/-- Consume an identifier. -/
def identifier : Parser String := do
  match ← peek with
  | .ident name =>
    skip
    return name
  | _ => fail .identifier

/-- Consume the name of a declaration. -/
def binding : Parser Binding := do
  let pos ← here
  let name ← identifier
  return ⟨name, pos, none⟩

/-- Consume the name of a field. -/
def field : Parser Field := do
  let pos ← here
  let name ← identifier
  return ⟨name, .at pos⟩

/-- Consume the name of a parameter. -/
def parameter : Parser Parameter := do
  let pos ← here
  let name ← identifier
  return ⟨name, .at pos, none⟩

/-- Read items until the next token is of a kind that ends the sequence. -/
def manyUntil {α : Type} (stop : TokenKind → Bool) (item : Parser α) : Nat → Parser (List α)
  | 0 => return []
  | budget + 1 => do
    if stop (← peek) then return []
    let first ← item
    let others ← manyUntil stop item budget
    return first :: others

/-- Read further items, each after a comma. -/
def commaItems {α : Type} (item : Parser α) : Nat → Parser (List α)
  | 0 => return []
  | budget + 1 => do
    if ← accept (.symbol .comma) then
      let first ← item
      let others ← commaItems item budget
      return first :: others
    else
      return []

/-- Read items with commas between them, up to a closing symbol. -/
def listUntil {α : Type} (close : Symbol) (item : Parser α) (budget : Nat) :
    Parser (List α) := do
  if ← accept (.symbol close) then return []
  let first ← item
  let others ← commaItems item budget
  sign close
  return first :: others

/-- Refuse an expression in which nothing can be stored. -/
def checkAssignable (e : Expr) (mutation : Mutation) : Parser Unit := do
  if !e.isAssignable then failAt (.invalidTarget mutation) e.pos

end Parser

end Qalam
