/-
# Patterns

A pattern describes texts. A star stands for any text, a question mark for any character, and
brackets for a character out of a set; all else stands for itself, and so does everything that
was quoted. Patterns choose between alternatives and cut off an end of a text.
-/

import Qalam.Command.Octets

namespace Qalam.Command

/-- A member of a set in brackets. -/
inductive Member
  | range (low high : Char)
  | family (name : String)
  deriving DecidableEq

/-- A part of a pattern. -/
inductive Mold
  | text
  | char
  | exactly (c : Char)
  | among (negated : Bool) (members : List Member)
  deriving DecidableEq

/-- A pattern is a sequence of parts. -/
abbrev Pattern : Type := List Mold

/-- Whether a character is in a named family. -/
def isInFamily (name : String) (c : Char) : Bool :=
  match name with
  | "alpha" => isLetter c
  | "digit" => isDigit c
  | "alnum" => isLetter c || isDigit c
  | "upper" => 'A' ≤ c && c ≤ 'Z'
  | "lower" => 'a' ≤ c && c ≤ 'z'
  | "space" => isSpace c
  | "blank" => c = ' ' || c = '\t'
  | "xdigit" => (digit? 16 c).isSome
  | "cntrl" => c.toNat < 32 || c.toNat = 127
  | "print" => 32 ≤ c.toNat && c.toNat < 127
  | "graph" => 32 < c.toNat && c.toNat < 127
  | "punct" => 32 < c.toNat && c.toNat < 127 && !isLetter c && !isDigit c
  | _ => false

/-- Whether a character is a member. -/
def Member.holds (c : Char) : Member → Bool
  | range low high => low ≤ c && c ≤ high
  | family name => isInFamily name c

namespace Pattern

/-- The members of a set, up to the closing bracket, and what follows it. The first character
closes nothing. Without a closing bracket there is no set. -/
def members : Nat → Bool → List (Char × Bool) → Option (List Member × List (Char × Bool))
  | 0, _, _ => none
  | _, _, [] => none
  | budget + 1, isFirst, (c, quoted) :: rest =>
    if c = ']' && !quoted && !isFirst then some ([], rest)
    else if c = '[' && !quoted && rest.head? = some (':', false) &&
        ((rest.tail.dropWhile fun (c, _) => c ≠ ':').drop 1).head?.map Prod.fst = some ']' then
      let name := (rest.tail.takeWhile fun (c, _) => c ≠ ':').map Prod.fst
      let rest := (rest.tail.dropWhile fun (c, _) => c ≠ ':').drop 2
      (members budget false rest).map fun (others, rest) =>
        (.family (String.ofList name) :: others, rest)
    else match rest with
      | ('-', false) :: (high, isQuoted) :: behind =>
        if high = ']' && !isQuoted then
          (members budget false rest).map fun (others, rest) => (.range c c :: others, rest)
        else
          (members budget false behind).map fun (others, rest) =>
            (.range c high :: others, rest)
      | rest =>
        (members budget false rest).map fun (others, rest) => (.range c c :: others, rest)

/-- Read a pattern from characters that say whether they are quoted. The budget is the number of
characters. -/
def parse : Nat → List (Char × Bool) → Pattern
  | 0, _ => []
  | _, [] => []
  | budget + 1, (c, quoted) :: rest =>
    if quoted then .exactly c :: parse budget rest
    else if c = '*' then .text :: parse budget rest
    else if c = '?' then .char :: parse budget rest
    else if c = '\\' then
      match rest with
      | (escaped, _) :: rest => .exactly escaped :: parse budget rest
      | [] => [.exactly c]
    else if c = '[' then
      let (negated, body) := match rest with
        | ('!', false) :: body => (true, body)
        | body => (false, body)
      match members (body.length + 1) true body with
      | some (members, rest) => .among negated members :: parse budget rest
      | none => .exactly c :: parse budget rest
    else .exactly c :: parse budget rest

/-- The pattern of characters that say whether they are quoted. -/
def ofChars (chars : List (Char × Bool)) : Pattern := parse chars.length chars

/-- Whether a text matches a pattern. -/
def isMatch : Pattern → List Char → Bool
  | [], text => text.isEmpty
  | .text :: pattern, text =>
    (List.range (text.length + 1)).any fun skipped => isMatch pattern (text.drop skipped)
  | .char :: pattern, text =>
    match text with
    | _ :: rest => isMatch pattern rest
    | [] => false
  | .exactly c :: pattern, text =>
    match text with
    | d :: rest => c = d && isMatch pattern rest
    | [] => false
  | .among negated members :: pattern, text =>
    match text with
    | c :: rest => (members.any (Member.holds c) != negated) && isMatch pattern rest
    | [] => false

/-- Cut the shortest or the longest matching stretch off an end of a text. -/
def strip (pattern : Pattern) (front longest : Bool) (text : List Char) : List Char :=
  let places := List.range (text.length + 1)
  let places := if front = longest then places.reverse else places
  if front then
    match places.find? fun place => pattern.isMatch (text.take place) with
    | some place => text.drop place
    | none => text
  else
    match places.find? fun place => pattern.isMatch (text.drop place) with
    | some place => text.take place
    | none => text

end Pattern

end Qalam.Command
