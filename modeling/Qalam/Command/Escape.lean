/-
# Backslash escapes in arguments

Programs that print their arguments give a meaning to backslashes in them. They agree on the
letters and differ in the rest: whether hexadecimal digits are read, whether a zero in front of
octal digits is one of them, and whether a letter can end the output. The strict ones also know
characters by their code points and refuse escapes that are not complete.
-/

import Qalam.Command.Octets

namespace Qalam.Command

/-- How escapes are read. -/
structure EscapeRules where
  hexadecimal : Bool
  skipsZero : Bool
  ends : Bool
  strict : Bool
  deriving DecidableEq

namespace EscapeRules

/-- Escapes in the arguments of `echo`. -/
def echo : EscapeRules := ⟨true, true, true, false⟩

/-- Escapes in the arguments of a shell's `echo` and `printf`. -/
def shellText : EscapeRules := ⟨false, true, true, false⟩

/-- Escapes in the format of a shell's `printf`, and in the sets of `tr`. -/
def shellFormat : EscapeRules := ⟨false, false, false, false⟩

/-- Escapes in the format of `printf`. -/
def format : EscapeRules := ⟨true, false, true, true⟩

/-- Escapes in the arguments of `printf`. -/
def argument : EscapeRules := ⟨true, true, true, true⟩

end EscapeRules

/-- What an escape does: it stands for a text, ends the output, or is refused. -/
inductive Escaped
  | text (text : List Char)
  | ending
  | fault
  deriving DecidableEq

/-- The character named by the letter of an escape. -/
def control? (c : Char) : Option Char :=
  if c = 'a' then some '\x07'
  else if c = 'b' then some '\x08'
  else if c = 'e' then some '\x1b'
  else if c = 'f' then some '\x0c'
  else if c = 'n' then some '\n'
  else if c = 'r' then some '\r'
  else if c = 't' then some '\t'
  else if c = 'v' then some '\x0b'
  else if c = '\\' then some '\\'
  else none

/-- The octet that digits write; only its last eight bits count. -/
def octet (value : Nat) : Char := Char.ofNat (value % 256)

/-- The digits of a number in capital letters, with zeros in front up to a width. -/
def capitalDigits (width value : Nat) : List Char :=
  let digits := (Nat.toDigits 16 value).map Char.toUpper
  List.replicate (width - digits.length) '0' ++ digits

/-- A character by its code point. One that has no octet of its own stays an escape, and
surrogates are refused. -/
def codePoint (value : Nat) : Escaped :=
  if 0xd800 ≤ value && value ≤ 0xdfff then .fault
  else if value < 0x80 then .text [Char.ofNat value]
  else if value < 0x10000 then .text ('\\' :: 'u' :: capitalDigits 4 value)
  else .text ('\\' :: 'U' :: capitalDigits 8 value)

/-- Read a code point with a number of digits. -/
def escapedCodePoint (width : Nat) (rest : List Char) : Escaped × List Char :=
  let (value, after) := digits 16 width 0 rest
  if rest.length - after.length = width then (codePoint value, after) else (.fault, [])

/-- Read the escape after a backslash: what it does and what follows it. An unknown escape stands
for itself. -/
def escape (rules : EscapeRules) : List Char → Escaped × List Char
  | [] => (.text ['\\'], [])
  | c :: rest =>
    if c = 'c' && rules.ends then (.ending, [])
    else if rules.hexadecimal && c = 'x' && (rest.head?.bind (digit? 16)).isSome then
      let (value, rest) := digits 16 2 0 rest
      (.text [octet value], rest)
    else if rules.skipsZero && c = '0' then
      let (value, rest) := digits 8 3 0 rest
      (.text [octet value], rest)
    else if (digit? 8 c).isSome then
      let (value, rest) := digits 8 3 0 (c :: rest)
      (.text [octet value], rest)
    else match control? c with
      | some octet => (.text [octet], rest)
      | none =>
        if !rules.strict then (.text ['\\'], c :: rest)
        else if c = '"' then (.text [c], rest)
        else if c = 'x' then (.fault, [])
        else if c = 'u' then escapedCodePoint 4 rest
        else if c = 'U' then escapedCodePoint 8 rest
        else (.text ['\\', c], rest)

/-- Replace the escapes of a text, and tell what the last one did. The budget is the length of the
text. -/
def unescape (rules : EscapeRules) : Nat → List Char → List Char × Escaped
  | 0, _ => ([], .text [])
  | _, [] => ([], .text [])
  | budget + 1, c :: rest =>
    if c = '\\' then
      match escape rules rest with
      | (.text first, rest) =>
        let (others, last) := unescape rules budget rest
        (first ++ others, last)
      | (last, _) => ([], last)
    else
      let (others, last) := unescape rules budget rest
      (c :: others, last)

end Qalam.Command
