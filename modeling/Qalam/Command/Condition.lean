/-
# Conditions

The arguments of `test` form a condition: comparisons of texts and of integers, tests of a
single text, negation, and connections of these. With three or four arguments it is decided
first whether one of them is an operator or a parenthesis; more arguments are read from left to
right. What lies at a path is asked of the caller. A condition that is malformed has a reason
instead of a value.
-/

import Qalam.Command.Print

namespace Qalam.Command

/-- What lies at a path. A file can be empty. -/
inductive Kind
  | directory
  | device
  | program
  | file (filled : Bool)
  deriving DecidableEq

namespace Condition

/-- Tests of a single argument. -/
def isUnary (word : String) : Bool :=
  ["-n", "-z", "-r", "-w", "-x", "-e", "-f", "-d", "-c", "-b", "-p", "-u", "-g", "-k", "-s",
    "-t", "-h", "-L", "-O", "-G", "-S"].contains word

/-- Comparisons of two arguments. -/
def isBinary (word : String) : Bool :=
  ["=", "!=", "<", ">", "-eq", "-ne", "-gt", "-ge", "-lt", "-le", "-nt", "-ot",
    "-ef"].contains word

/-- Whether a test of one argument succeeds. -/
def unary (find : String → Option Kind) (operator argument : String) : Bool :=
  let kind := find argument
  match operator with
  | "-n" => !argument.isEmpty
  | "-z" => argument.isEmpty
  | "-e" | "-r" | "-w" => kind.isSome
  | "-d" => kind = some .directory
  | "-f" => kind = some (.file true) || kind = some (.file false) || kind = some .program
  | "-c" => kind = some .device
  | "-x" => kind = some .directory || kind = some .program
  | "-s" => kind = some .directory || kind = some (.file true) || kind = some .program
  | _ => false

/-- An integer in decimal digits, with blanks around it. -/
def integer? (text : String) : Option Int :=
  let blankless := (text.toList.reverse.dropWhile isSpace).reverse.dropWhile isSpace
  let (negative, unsigned) := match blankless with
    | '-' :: rest => (true, rest)
    | '+' :: rest => (false, rest)
    | rest => (false, rest)
  match number? (String.ofList unsigned) with
  | some value => some (if negative then -(value : Int) else (value : Int))
  | none => none

/-- An integer of 64 bits, or the reason why there is none. -/
def integer (text : String) : Except String Int :=
  match integer? text with
  | some value => if clamp value = value then .ok value else .error s!"Illegal number: {text}"
  | none => .error s!"Illegal number: {text}"

/-- Whether a comparison holds. -/
def binary (left operator right : String) : Except String Bool :=
  match operator with
  | "=" => .ok (left = right)
  | "!=" => .ok (left ≠ right)
  | "<" => .ok (left < right)
  | ">" => .ok (right < left)
  | "-nt" | "-ot" | "-ef" => .ok false
  | _ => do
    let left ← integer left
    let right ← integer right
    match operator with
    | "-eq" => return left = right
    | "-ne" => return left ≠ right
    | "-gt" => return left > right
    | "-ge" => return left ≥ right
    | "-lt" => return left < right
    | _ => return left ≤ right

/-- What an argument is where a condition could begin. -/
inductive Role
  | finish
  | negation
  | opening
  | closing
  | both
  | either
  | unary
  | binary
  | operand
  deriving DecidableEq

/-- The role of the first argument. A test of one argument needs that argument, and is itself
an operand in front of a comparison; a single parenthesis is an operand. -/
def role : List String → Role
  | [] => .finish
  | word :: rest =>
    if word = "!" then .negation
    else if word = "(" then if rest.isEmpty then .operand else .opening
    else if word = ")" then .closing
    else if word = "-a" then .both
    else if word = "-o" then .either
    else if isBinary word then .binary
    else if isUnary word then
      match rest with
      | [] => .operand
      | [_] => .unary
      | next :: _ => if isBinary next then .operand else .unary
    else .operand

/-- The value of a condition and the arguments from its last one on, or the reason why there is
none. -/
abbrev Reading : Type := Except String (Bool × List String)

/-- A condition that is nested too deeply. -/
def tooDeep : Reading := .error "argument expected"

mutual

/-- A condition of which one part has to hold. -/
def anyOf (find : String → Option Kind) : Nat → List String → Reading
  | 0, _ => tooDeep
  | budget + 1, words => do
    let (first, rest) ← allOf find budget words
    if role rest.tail = .either then
      let (others, rest) ← anyOf find budget (rest.drop 2)
      return (first || others, rest)
    else return (first, rest)

/-- A condition of which every part has to hold. -/
def allOf (find : String → Option Kind) : Nat → List String → Reading
  | 0, _ => tooDeep
  | budget + 1, words => do
    let (first, rest) ← negated find budget words
    if role rest.tail = .both then
      let (others, rest) ← allOf find budget (rest.drop 2)
      return (first && others, rest)
    else return (first, rest)

/-- A condition, possibly negated. -/
def negated (find : String → Option Kind) : Nat → List String → Reading
  | 0, _ => tooDeep
  | budget + 1, words =>
    if role words = .negation then
      if words.tail.isEmpty then .ok (true, words)
      else do
        let (value, rest) ← negated find budget words.tail
        return (!value, rest)
    else single find budget words

/-- A comparison, a test of one argument, or a condition in parentheses. -/
def single (find : String → Option Kind) : Nat → List String → Reading
  | 0, _ => tooDeep
  | budget + 1, words =>
    match role words, words with
    | .finish, words => .ok (false, words)
    | .opening, _ :: rest =>
      if role rest = .closing then .ok (false, rest)
      else do
        let (value, rest) ← anyOf find budget rest
        if role rest.tail = .closing then return (value, rest.tail)
        else throw "closing paren expected"
    | .unary, operator :: argument :: rest =>
      .ok (unary find operator argument, argument :: rest)
    | _, left :: operator :: right :: rest =>
      if isBinary operator then do
        let value ← binary left operator right
        return (value, right :: rest)
      else .ok (!left.isEmpty, words)
    | _, [left, operator] =>
      if isBinary operator then .error s!"{operator}: argument expected"
      else .ok (!left.isEmpty, words)
    | _, [left] => .ok (!left.isEmpty, words)
    | _, [] => tooDeep

end

/-- Read a whole condition. Arguments that are left over are a fault. -/
def whole (find : String → Option Kind) (words : List String) : Except String Bool := do
  let (value, rest) ← anyOf find (4 * words.length + 8) words
  match rest with
  | last :: _ :: _ =>
    throw (if last.isEmpty then "unexpected operator" else s!"{last}: unexpected operator")
  | _ => return value

/-- Decide a condition. -/
def decide (find : String → Option Kind) : List String → Except String Bool
  | [] => .ok false
  | [a, operator, b] =>
    if isBinary operator then binary a operator b
    else if a = "(" && b = ")" then whole find [operator]
    else if a = "!" then (decide find [operator, b]).map (!·)
    else whole find [a, operator, b]
  | [a, b, c, d] =>
    if a = "(" && d = ")" then whole find [b, c]
    else if a = "!" then (decide find [b, c, d]).map (!·)
    else whole find [a, b, c, d]
  | words => whole find words

end Condition

/-- The command `test`. -/
def test (find : String → Option Kind) (words : List String) : Outcome :=
  match Condition.decide find words with
  | .ok true => .ended 0
  | .ok false => .ended 1
  | .error reason => .failed 2 [reason]

/-- The command `[`, which demands a closing bracket. -/
def bracket (find : String → Option Kind) (words : List String) : Outcome :=
  if words.getLast? = some "]" then test find words.dropLast else .failed 2 ["missing ]"]

end Qalam.Command
