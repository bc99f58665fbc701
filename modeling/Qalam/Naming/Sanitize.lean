/-
# Usable names

A proposed name may be any text. It becomes usable by lower-casing its ASCII letters and
turning blanks and hyphens inside it into underscores. A proposal with any other character, an
empty one and one that begins with a digit cannot be used.
-/

import Qalam.Text.Blank

namespace Qalam.Naming

/-- A text without the blanks at its two ends. -/
def trim (text : List Char) : List Char :=
  ((text.dropWhile Text.isBlank).reverse.dropWhile Text.isBlank).reverse

/-- Characters of usable names. -/
def isNameChar (c : Char) : Bool :=
  ('a' ≤ c && c ≤ 'z') || ('0' ≤ c && c ≤ '9') || c = '_'

/-- The character of the usable name for a character of the proposal. -/
def nameChar? (c : Char) : Option Char :=
  let lower := c.toLower
  if isNameChar lower then some lower
  else if Text.isBlank c || c = '-' then some '_'
  else none

/-- Whether a name begins with an ASCII digit. -/
def beginsWithDigit : List Char → Bool
  | [] => false
  | c :: _ => '0' ≤ c && c ≤ '9'

/-- The usable name for a proposal. -/
def sanitizeChars? (proposal : List Char) : Option (List Char) :=
  match (trim proposal).mapM nameChar? with
  | some name => if name.isEmpty || beginsWithDigit name then none else some name
  | none => none

/-- The usable name for a proposal. -/
def sanitize? (proposal : String) : Option String :=
  (sanitizeChars? proposal.toList).map String.ofList

end Qalam.Naming
