/-
# Quoted text

Two written forms of a string. The display form is meant for readers: characters without a
visible shape and combining characters become escapes that name their code point. The data
form is the string literal of the generated code: only the quote, the backslash and control
characters are escaped, and everything else stands for itself.
-/

import Qalam.Text.Combining
import Qalam.Text.Invisible

namespace Qalam.Text

/-- A code point in lower-case hexadecimal digits without leading zeros. -/
def hexDigits (code : Nat) : List Char := Nat.toDigits 16 code

/-- The display form of one character. -/
def displayChar (c : Char) : List Char :=
  if c = '\x00' then ['\\', '0']
  else if c = '\t' then ['\\', 't']
  else if c = '\r' then ['\\', 'r']
  else if c = '\n' then ['\\', 'n']
  else if c = '\\' then ['\\', '\\']
  else if c = '"' then ['\\', '"']
  else if isCombining c || isInvisible c then
    ['\\', 'u', '\x7b'] ++ hexDigits c.toNat ++ ['\x7d']
  else [c]

/-- The display form of a string, in double quotes. -/
def display (text : String) : String :=
  String.ofList ('"' :: text.toList.flatMap displayChar ++ ['"'])

/-- Four hexadecimal digits of a code point below 65536. -/
def hexFour (code : Nat) : List Char :=
  let digits := hexDigits code
  List.replicate (4 - digits.length) '0' ++ digits

/-- The data form of one character. -/
def dataChar (c : Char) : List Char :=
  if c = '"' then ['\\', '"']
  else if c = '\\' then ['\\', '\\']
  else if c = '\x08' then ['\\', 'b']
  else if c = '\x0c' then ['\\', 'f']
  else if c = '\n' then ['\\', 'n']
  else if c = '\r' then ['\\', 'r']
  else if c = '\t' then ['\\', 't']
  else if c.toNat < 32 then ['\\', 'u'] ++ hexFour c.toNat
  else [c]

/-- The data form of a string, in double quotes. -/
def dataLiteral (text : String) : String :=
  String.ofList ('"' :: text.toList.flatMap dataChar ++ ['"'])

end Qalam.Text
