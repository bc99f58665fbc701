/-
# Integer expressions

A shell calculates with integers of 64 bits. An expression is read with the usual precedence
and then evaluated; a variable stands for the number that its text writes, an empty one for
zero, and an expression can also give variables new values. A branch that does not count is not
evaluated.
-/

import Qalam.Command.Print

namespace Qalam.Command

/-- Integer expressions. -/
inductive Sum
  | number (value : Int)
  | variable (name : String)
  | unary (op : String) (operand : Sum)
  | binary (op : String) (left right : Sum)
  | choice (condition yes no : Sum)
  | assign (name op : String) (value : Sum)

namespace Sum

/-- The parts of an expression. -/
inductive Token
  | number (value : Int)
  | name (text : String)
  | sign (text : String)
  deriving DecidableEq

/-- The signs of expressions; of two that fit, the longer one stands first. -/
def signs : List String :=
  ["<<=", ">>=", "<<", ">>", "<=", ">=", "==", "!=", "&&", "||", "+=", "-=", "*=", "/=", "%=",
    "&=", "^=", "|=", "+", "-", "*", "/", "%", "<", ">", "=", "!", "~", "&", "^", "|", "?", ":",
    "(", ")"]

/-- Cut an expression into parts. A character without a meaning is a sign that fits nowhere. The
budget is more than the length of the expression. -/
def tokens : Nat → List Char → List Token
  | 0, _ => []
  | _, [] => []
  | budget + 1, c :: rest =>
    if isSpace c then tokens budget rest
    else if isDigit c then
      let (value, rest) := leadingNumber (c :: rest)
      .number (clamp value) :: tokens budget rest
    else if isLetter c || c = '_' then
      let isNameChar (c : Char) : Bool := isLetter c || isDigit c || c = '_'
      .name (String.ofList (c :: rest.takeWhile isNameChar)) ::
        tokens budget (rest.dropWhile isNameChar)
    else
      let sign := (signs.find? fun sign => sign.toList.isPrefixOf (c :: rest)).getD
        (String.ofList [c])
      .sign sign :: tokens budget ((c :: rest).drop sign.length)

/-- Why an expression has no value: something else was expected in it, it divides by zero, or a
variable does not hold a number. -/
inductive Fault
  | expecting (part : String)
  | zeroDivision
  | illegal (text : String)

/-- What is said about the fault of an expression. -/
def Fault.text (expression : String) : Fault → String
  | expecting part => "arithmetic expression: expecting " ++ part ++ ": \"" ++ expression ++ "\""
  | zeroDivision => "arithmetic expression: division by zero: \"" ++ expression ++ "\""
  | illegal text => "Illegal number: " ++ text

/-- Operators between two operands, from those that bind least to those that bind most. -/
def levels : List (List String) :=
  [["||"], ["&&"], ["|"], ["^"], ["&"], ["==", "!="], ["<", "<=", ">", ">="], ["<<", ">>"],
    ["+", "-"], ["*", "/", "%"]]

/-- Operators that give a variable a value, with the operation they carry out before. -/
def assignments : List (String × String) :=
  [("=", ""), ("+=", "+"), ("-=", "-"), ("*=", "*"), ("/=", "/"), ("%=", "%"), ("&=", "&"),
    ("^=", "^"), ("|=", "|"), ("<<=", "<<"), (">>=", ">>")]

/-- A reading of parts: what was read and what is left. -/
abbrev Reading : Type := Except Fault (Sum × List Token)

/-- A reading that finds something else than it expects. -/
def expecting (part : String) : Reading := .error (.expecting part)

mutual

/-- An assignment or a choice. -/
def whole : Nat → List Token → Reading
  | 0, _ => expecting "primary"
  | budget + 1, .name name :: .sign sign :: rest =>
    match assignments.lookup sign with
    | some op => do
      let (value, rest) ← whole budget rest
      return (.assign name op value, rest)
    | none => choices budget (.name name :: .sign sign :: rest)
  | budget + 1, parts => choices budget parts

/-- A choice between two values. -/
def choices : Nat → List Token → Reading
  | 0, _ => expecting "primary"
  | budget + 1, parts => do
    let (condition, rest) ← operands budget levels parts
    match rest with
    | .sign "?" :: rest =>
      let (yes, rest) ← whole budget rest
      match rest with
      | .sign ":" :: rest =>
        let (no, rest) ← choices budget rest
        return (.choice condition yes no, rest)
      | _ => expecting "':'"
    | _ => return (condition, rest)

/-- Operands connected by the operators of one level or of those that bind more. -/
def operands : Nat → List (List String) → List Token → Reading
  | 0, _, _ => expecting "primary"
  | budget + 1, [], parts => single budget parts
  | budget + 1, level :: tighter, parts => do
    let (first, rest) ← operands budget tighter parts
    chain budget level tighter first rest

/-- The operands that follow a first one on the same level. -/
def chain : Nat → List String → List (List String) → Sum → List Token → Reading
  | 0, _, _, _, _ => expecting "primary"
  | budget + 1, level, tighter, first, .sign op :: rest =>
    if level.contains op then do
      let (second, rest) ← operands budget tighter rest
      chain budget level tighter (.binary op first second) rest
    else .ok (first, .sign op :: rest)
  | _ + 1, _, _, first, parts => .ok (first, parts)

/-- A number, a variable, a parenthesis, or one of these behind a sign. -/
def single : Nat → List Token → Reading
  | 0, _ => expecting "primary"
  | _ + 1, .number value :: rest => .ok (.number value, rest)
  | _ + 1, .name name :: rest => .ok (.variable name, rest)
  | budget + 1, .sign sign :: rest =>
    if sign = "(" then do
      let (inner, rest) ← whole budget rest
      match rest with
      | .sign ")" :: rest => return (inner, rest)
      | _ => expecting "')'"
    else if ["-", "+", "!", "~"].contains sign then do
      let (operand, rest) ← single budget rest
      return (.unary sign operand, rest)
    else expecting "primary"
  | _ + 1, [] => expecting "primary"

end

/-- Read an expression. -/
def parse (text : List Char) : Except Fault Sum := do
  let parts := tokens (text.length + 1) text
  match ← whole (16 * (parts.length + 2)) parts with
  | (expression, []) => return expression
  | _ => throw (.expecting "EOF")

/-- Keep the last 64 bits of an integer. -/
def wrap (value : Int) : Int := Int.bmod value 18446744073709551616

/-- The 64 bits of an integer. -/
def bits (value : Int) : Nat := (value % 18446744073709551616).toNat

/-- The number of a truth value. -/
def truth (value : Bool) : Int := if value then 1 else 0

/-- The value of an operation. -/
def operate (op : String) (left right : Int) : Except Fault Int :=
  match op with
  | "+" => .ok (wrap (left + right))
  | "-" => .ok (wrap (left - right))
  | "*" => .ok (wrap (left * right))
  | "/" => if right = 0 then .error .zeroDivision else .ok (wrap (left.tdiv right))
  | "%" => if right = 0 then .error .zeroDivision else .ok (wrap (left.tmod right))
  | "<<" => .ok (wrap (left * Int.ofNat (Nat.pow 2 (bits right % 64))))
  | ">>" => .ok (left.fdiv (Int.ofNat (Nat.pow 2 (bits right % 64))))
  | "&" => .ok (wrap (Nat.land (bits left) (bits right)))
  | "|" => .ok (wrap (Nat.lor (bits left) (bits right)))
  | "^" => .ok (wrap (Nat.xor (bits left) (bits right)))
  | "==" => .ok (truth (left = right))
  | "!=" => .ok (truth (left ≠ right))
  | "<" => .ok (truth (left < right))
  | "<=" => .ok (truth (left ≤ right))
  | ">" => .ok (truth (left > right))
  | ">=" => .ok (truth (left ≥ right))
  | _ => .ok right

/-- The number that the text of a variable writes; none if it is not a number. -/
def ofText? (text : String) : Option Int :=
  let (value, rest) := leadingNumber text.toList
  if (text.toList.all isSpace) then some 0
  else if rest.length < text.length && rest.all isSpace then some (clamp value)
  else none

/-- The value of a variable, after changes to some of them. -/
def current (lookup : String → String) (changes : List (String × Int)) (name : String) :
    Except Fault Int :=
  match changes.lookup name with
  | some value => .ok value
  | none =>
    match ofText? (lookup name) with
    | some value => .ok value
    | none => .error (.illegal (lookup name))

/-- The value of an expression and the variables it changes, the latest change first. -/
def value (lookup : String → String) :
    Sum → List (String × Int) → Except Fault (Int × List (String × Int))
  | .number value, changes => .ok (value, changes)
  | .variable name, changes => do return ((← current lookup changes name), changes)
  | .unary op operand, changes => do
    let (inner, changes) ← value lookup operand changes
    match op with
    | "-" => return (wrap (-inner), changes)
    | "!" => return (truth (inner = 0), changes)
    | "~" => return (wrap (-inner - 1), changes)
    | _ => return (inner, changes)
  | .binary op left right, changes => do
    let (first, changes) ← value lookup left changes
    if op = "&&" && first = 0 then return (0, changes)
    if op = "||" && first ≠ 0 then return (1, changes)
    let (second, changes) ← value lookup right changes
    if op = "&&" || op = "||" then return (truth (second ≠ 0), changes)
    let result ← operate op first second
    return (result, changes)
  | .choice condition yes no, changes => do
    let (condition, changes) ← value lookup condition changes
    if condition ≠ 0 then value lookup yes changes else value lookup no changes
  | .assign name op right, changes => do
    let (second, changes) ← value lookup right changes
    let first ← if op = "" then pure 0 else current lookup changes name
    let result ← operate op first second
    return (result, (name, result) :: changes)

end Sum

end Qalam.Command
