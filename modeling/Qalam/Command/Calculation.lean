/-
# Calculations with arguments

`expr` reads its arguments as an expression. Values are texts; those that look like integers can
be calculated with. A text can also be compared, measured, and matched against a regular
expression from its beginning on.
-/

import Qalam.Command.Regex

namespace Qalam.Command

namespace Calculation

/-- The integer that a text writes, if it writes nothing else. -/
def integer? (text : String) : Option Int :=
  match text.toList with
  | '-' :: unsigned => (number? (String.ofList unsigned)).map fun value => -(value : Int)
  | unsigned => (number? (String.ofList unsigned)).map fun value => (value : Int)

/-- Whether a text counts as nothing. -/
def isNull (text : String) : Bool := text = "" || integer? text = some 0

/-- A truth value. -/
def truth (value : Bool) : String := if value then "1" else "0"

/-- Compare two texts, as integers if both are. -/
def compare (op left right : String) : String :=
  let order (less equal : Bool) : Bool :=
    match op with
    | "<" => less
    | "<=" => less || equal
    | "=" | "==" => equal
    | "!=" => !equal
    | ">=" => !less
    | _ => !less && !equal
  match integer? left, integer? right with
  | some left, some right => truth (order (left < right) (left = right))
  | _, _ => truth (order (left < right) (left = right))

/-- Calculate with two texts, which have to be integers. -/
def arithmetic? (op left right : String) : Option String := do
  let left ← integer? left
  let right ← integer? right
  match op with
  | "+" => return toString (left + right)
  | "-" => return toString (left - right)
  | "*" => return toString (left * right)
  | "/" => if right = 0 then none else return toString (left.tdiv right)
  | _ => if right = 0 then none else return toString (left.tmod right)

/-- Match a regular expression from the beginning of a text on: the stretch of the first group,
or the length of the match. -/
def matched? (text pattern : String) : Option String := do
  let regex ← Regex.parse? false pattern.toList
  let chars := text.toList
  let grouped := regex.hasGroup
  match regex.matchAt? false chars 0 with
  | some place =>
    match place.groups.lookup 1 with
    | some (first, last) => return String.ofList ((chars.take last).drop first)
    | none => return if grouped then "" else toString place.position
  | none => return if grouped then "" else "0"

/-- The value of an operation. -/
def operate? (op left right : String) : Option String :=
  if op = "|" then
    some (if !isNull left then left else if !isNull right then right else "0")
  else if op = "&" then some (if isNull left || isNull right then "0" else left)
  else if op = ":" then matched? left right
  else if ["<", "<=", "=", "==", "!=", ">=", ">"].contains op then some (compare op left right)
  else arithmetic? op left right

/-- Operators, from those that bind least to those that bind most. -/
def levels : List (List String) :=
  [["|"], ["&"], ["<", "<=", "=", "==", "!=", ">=", ">"], ["+", "-"], ["*", "/", "%"], [":"]]

mutual

/-- Operands connected by the operators of one level or of those that bind more. -/
def operands : Nat → List (List String) → List String → Option (String × List String)
  | 0, _, _ => none
  | budget + 1, [], args => single budget args
  | budget + 1, level :: tighter, args => do
    let (first, rest) ← operands budget tighter args
    chain budget level tighter first rest

/-- The operands that follow a first one on the same level. -/
def chain : Nat → List String → List (List String) → String → List String →
    Option (String × List String)
  | 0, _, _, _, _ => none
  | _ + 1, _, _, first, [] => some (first, [])
  | budget + 1, level, tighter, first, op :: rest =>
    if level.contains op then do
      let (second, rest) ← operands budget tighter rest
      let value ← operate? op first second
      chain budget level tighter value rest
    else some (first, op :: rest)

/-- A text, an expression in parentheses, or a measure of texts. -/
def single : Nat → List String → Option (String × List String)
  | 0, _ => none
  | _ + 1, [] => none
  | budget + 1, word :: rest =>
    if word = "(" then do
      let (value, rest) ← operands budget levels rest
      match rest with
      | ")" :: rest => return (value, rest)
      | _ => none
    else if word = ")" then none
    else if word = "+" then
      match rest with
      | value :: rest => some (value, rest)
      | [] => none
    else if rest.isEmpty then some (word, [])
    else if word = "length" then do
      let (text, rest) ← single budget rest
      return (toString text.length, rest)
    else if word = "match" then do
      let (text, rest) ← single budget rest
      let (pattern, rest) ← single budget rest
      return ((← matched? text pattern), rest)
    else if word = "index" then do
      let (text, rest) ← single budget rest
      let (chars, rest) ← single budget rest
      let place := text.toList.findIdx? chars.toList.contains
      return (toString ((place.map (· + 1)).getD 0), rest)
    else if word = "substr" then do
      let (text, rest) ← single budget rest
      let (first, rest) ← single budget rest
      let (count, rest) ← single budget rest
      match integer? first, integer? count with
      | some (.ofNat (first + 1)), some (.ofNat count) =>
        return (String.ofList ((text.toList.drop first).take count), rest)
      | _, _ => return ("", rest)
    else some (word, rest)

end

end Calculation

/-- The program `expr`. -/
def expr (args : List String) : Outcome :=
  let args := if args.head? = some "--" then args.tail else args
  match Calculation.operands (16 * (args.length + 2)) Calculation.levels args with
  | some (value, []) =>
    { Outcome.printed (value.toList ++ ['\n']) with
      status := if Calculation.isNull value then 1 else 0 }
  | _ => .failed 2 ["expr: invalid argument"]

end Qalam.Command
