/-
# Text as commands see it

A command knows octets and no characters: lengths count octets, and a pattern for one character
matches one octet. Inside a command a text is therefore a list of octets, each of them written as
the character with that number.
-/

import Qalam.Text.Utf8

namespace Qalam.Command

/-- A text as a command sees it. -/
def seen (text : String) : String :=
  String.ofList ((Text.toUtf8 text).map fun octet => Char.ofNat octet.toNat)

/-- The octets that a command has written. -/
def written (text : List Char) : List UInt8 := text.map fun c => UInt8.ofNat c.toNat

/-- The text of a command as it is spelled outside. -/
def spelled (text : String) : String := Text.ofUtf8Lenient (written text.toList)

/-- The value of a digit in a base up to sixteen. -/
def digit? (base : Nat) (c : Char) : Option Nat :=
  let value :=
    if '0' ≤ c ∧ c ≤ '9' then c.toNat - 0x30
    else if 'a' ≤ c ∧ c ≤ 'f' then c.toNat - 0x61 + 10
    else if 'A' ≤ c ∧ c ≤ 'F' then c.toNat - 0x41 + 10
    else 16
  if value < base then some value else none

/-- Read at most a number of digits; what they write and what follows them. -/
def digits (base : Nat) : Nat → Nat → List Char → Nat × List Char
  | 0, value, text => (value, text)
  | _, value, [] => (value, [])
  | count + 1, value, c :: rest =>
    match digit? base c with
    | some digit => digits base count (base * value + digit) rest
    | none => (value, c :: rest)

/-- The number written by decimal digits alone. -/
def number? (text : String) : Option Nat :=
  match digits 10 text.length 0 text.toList with
  | (value, []) => if text.isEmpty then none else some value
  | _ => none

/-- Decimal digits. -/
def isDigit (c : Char) : Bool := '0' ≤ c && c ≤ '9'

/-- Letters. -/
def isLetter (c : Char) : Bool := ('a' ≤ c && c ≤ 'z') || ('A' ≤ c && c ≤ 'Z')

/-- Blanks, line ends and the like. -/
def isSpace (c : Char) : Bool := c = ' ' || ('\t' ≤ c && c ≤ '\r')

/-- The lines of a text, without their line ends. -/
def lines (text : List Char) : List (List Char) :=
  let add (c : Char) (lines : List (List Char)) : List (List Char) :=
    if c = '\n' then [] :: lines
    else match lines with
      | [] => [[c]]
      | line :: others => (c :: line) :: others
  text.foldr add []

/-- What a program leaves behind: its output, the lines of what it says about errors, its exit
status, how long it took, and the part of its input that it did not read. -/
structure Outcome where
  output : List Char
  complaints : List String
  status : Nat
  milliseconds : Nat
  unread : List Char

/-- The outcome of a program that prints and succeeds at once. -/
def Outcome.printed (output : List Char) : Outcome := ⟨output, [], 0, 0, []⟩

/-- The outcome of a program that ends with a status and prints nothing. -/
def Outcome.ended (status : Nat) : Outcome := ⟨[], [], status, 0, []⟩

/-- The outcome of a program that complains and fails. -/
def Outcome.failed (status : Nat) (complaints : List String) : Outcome :=
  ⟨[], complaints, status, 0, []⟩

end Qalam.Command
