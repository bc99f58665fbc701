/-
# Regular expressions

A regular expression describes stretches of a text. All ways to match it from a place are
listed, those that take more first, and of several that begin at the same place the longest one
counts. There are two spellings: in the plain one most operators need a backslash, in the
extended one they do without.
-/

import Qalam.Command.Pattern

namespace Qalam.Command

/-- Regular expressions. Groups are numbered from one. -/
inductive Regex
  | empty
  | one (mold : Mold)
  | start
  | finish
  | group (index : Nat) (body : Regex)
  | again (index : Nat)
  | sequence (first second : Regex)
  | either (first second : Regex)
  | repeated (body : Regex) (least : Nat) (most : Option Nat)

namespace Regex

/-- A place in a text that a match has reached, with the stretches of the groups so far. -/
structure Place where
  position : Nat
  groups : List (Nat × Nat × Nat)

/-- Whether a character fits a part of a pattern. -/
def fits (folded : Bool) (mold : Mold) (c : Char) : Bool :=
  let variants := if folded then [c, c.toLower, c.toUpper] else [c]
  match mold with
  | .exactly d => variants.contains d || (folded && variants.contains d.toLower)
  | .char => c ≠ '\n'
  | .text => true
  | .among negated members => variants.any (fun c => members.any (Member.holds c)) != negated

/-- All places where a match that begins at a place can end. The fuel bounds the nesting and the
repetitions. -/
def ends (folded : Bool) (text : List Char) : Nat → Regex → Place → List Place
  | 0, _, _ => []
  | _ + 1, empty, place => [place]
  | _ + 1, one mold, place =>
    match (text.drop place.position).head? with
    | some c => if fits folded mold c then [{ place with position := place.position + 1 }] else []
    | none => []
  | _ + 1, start, place => if place.position = 0 then [place] else []
  | _ + 1, finish, place => if place.position = text.length then [place] else []
  | fuel + 1, group index body, place =>
    (ends folded text fuel body place).map fun after =>
      { after with groups := (index, place.position, after.position) :: after.groups }
  | _ + 1, again index, place =>
    match place.groups.lookup index with
    | some (first, last) =>
      let stretch := (text.take last).drop first
      if stretch.isPrefixOf (text.drop place.position) then
        [{ place with position := place.position + stretch.length }]
      else []
    | none => []
  | fuel + 1, sequence first second, place =>
    (ends folded text fuel first place).flatMap (ends folded text fuel second)
  | fuel + 1, either first second, place =>
    ends folded text fuel first place ++ ends folded text fuel second place
  | fuel + 1, repeated body least most, place =>
    let further := if most = some 0 then []
      else
        let rest := repeated body (least - 1) (most.map (· - 1))
        ((ends folded text fuel body place).filter fun after =>
          place.position < after.position || 0 < least).flatMap (ends folded text fuel rest)
    if least = 0 then further ++ [place] else further

/-- The longest of several matches; the first one of equals. -/
def longest : List Place → Option Place
  | [] => none
  | first :: others =>
    match longest others with
    | some other => if first.position < other.position then some other else some first
    | none => some first

/-- The longest match that begins at a position. -/
def matchAt? (regex : Regex) (folded : Bool) (text : List Char) (position : Nat) :
    Option Place :=
  longest (ends folded text (2 * text.length + 100) regex ⟨position, []⟩)

/-- The first position from a given one on where a match begins, and the match. -/
def search? (regex : Regex) (folded : Bool) (text : List Char) (position : Nat) :
    Option (Nat × Place) :=
  ((List.range (text.length + 1 - position)).map (position + ·)).findSome? fun begin =>
    (regex.matchAt? folded text begin).map (begin, ·)

/-- Whether a regular expression has groups. -/
def hasGroup : Regex → Bool
  | group _ _ => true
  | sequence first second | either first second => first.hasGroup || second.hasGroup
  | repeated body _ _ => body.hasGroup
  | _ => false

/-- What is read of a regular expression: its tree, the number of groups and what is left. -/
abbrev Reading : Type := Option (Regex × Nat × List Char)

/-- The operator that comes next, whatever the spelling, and what is behind it. -/
def operator? (extended : Bool) : List Char → Option (Char × List Char)
  | '\\' :: c :: rest =>
    if !extended && ['(', ')', '\x7b', '\x7d', '|', '+', '?'].contains c then some (c, rest)
    else none
  | c :: rest =>
    if c = '*' || (extended && ['(', ')', '\x7b', '|', '+', '?'].contains c) then some (c, rest)
    else none
  | [] => none

/-- The bounds of a repetition, after the opening brace. -/
def bounds? (extended : Bool) (text : List Char) : Option (Nat × Option Nat × List Char) :=
  let first := text.takeWhile isDigit
  let least := (number? (String.ofList first)).getD 0
  let close (rest : List Char) : Option (List Char) :=
    match extended, rest with
    | true, '\x7d' :: rest => some rest
    | false, '\\' :: '\x7d' :: rest => some rest
    | _, _ => none
  match text.drop first.length with
  | ',' :: rest =>
    let second := rest.takeWhile isDigit
    (close (rest.drop second.length)).map fun rest =>
      (least, number? (String.ofList second), rest)
  | rest => (close rest).map fun rest => (least, some least, rest)

/-- Whether a dollar sign at this place stands for the end of the text. -/
def endsHere (extended : Bool) (rest : List Char) : Bool :=
  extended || rest.isEmpty || ((operator? false rest).any fun (c, _) => c = ')' || c = '|')

/-- One character that is, or is not, among the members of a set. -/
def family (negated : Bool) (members : List Member) : Regex := .one (.among negated members)

/-- Characters of words. -/
def wordMembers : List Member := [.family "alnum", .range '_' '_']

/-- A character behind a backslash. -/
def escaped (c : Char) : Regex :=
  if c = 'n' then .one (.exactly '\n')
  else if c = 't' then .one (.exactly '\t')
  else if c = 'w' then family false wordMembers
  else if c = 'W' then family true wordMembers
  else if c = 's' then family false [.family "space"]
  else if c = 'S' then family true [.family "space"]
  else match digit? 10 c with
    | some index => if index = 0 then .one (.exactly c) else .again index
    | none => .one (.exactly c)

mutual

/-- Alternatives with bars between them. -/
def alternatives (extended : Bool) : Nat → Nat → List Char → Reading
  | 0, _, _ => none
  | fuel + 1, count, text => do
    let (first, count, rest) ← branch extended fuel true count text
    match operator? extended rest with
    | some ('|', rest) =>
      let (second, count, rest) ← alternatives extended fuel count rest
      return (.either first second, count, rest)
    | _ => return (first, count, rest)

/-- A sequence of repeated parts. -/
def branch (extended : Bool) : Nat → Bool → Nat → List Char → Reading
  | 0, _, _, _ => none
  | fuel + 1, isFirst, count, text =>
    match operator? extended text with
    | some (')', _) | some ('|', _) => some (.empty, count, text)
    | _ =>
      if text.isEmpty then some (.empty, count, [])
      else do
        let (part, count, rest) ← single extended fuel isFirst count text
        let (part, rest) ← repetitions extended fuel part rest
        let stillFirst := isFirst && (match part with
          | .start => !extended
          | _ => false)
        let (others, count, rest) ← branch extended fuel stillFirst count rest
        return (.sequence part others, count, rest)

/-- The repetitions behind a part. -/
def repetitions (extended : Bool) : Nat → Regex → List Char → Option (Regex × List Char)
  | 0, _, _ => none
  | fuel + 1, part, text =>
    match part, operator? extended text with
    | .start, some ('*', _) => some (part, text)
    | part, some ('*', rest) => repetitions extended fuel (.repeated part 0 none) rest
    | part, some ('+', rest) => repetitions extended fuel (.repeated part 1 none) rest
    | part, some ('?', rest) => repetitions extended fuel (.repeated part 0 (some 1)) rest
    | part, some ('\x7b', rest) => do
      let (least, most, rest) ← bounds? extended rest
      repetitions extended fuel (.repeated part least most) rest
    | part, _ => some (part, text)

/-- A part without its repetitions. -/
def single (extended : Bool) : Nat → Bool → Nat → List Char → Reading
  | 0, _, _, _ => none
  | fuel + 1, isFirst, count, text =>
    match operator? extended text with
    | some ('(', rest) => do
      let (body, inner, rest) ← alternatives extended fuel (count + 1) rest
      match operator? extended rest with
      | some (')', rest) => return (.group (count + 1) body, inner, rest)
      | _ => none
    | some ('*', rest) => if isFirst then some (.one (.exactly '*'), count, rest) else none
    | some _ => none
    | none =>
      match text with
      | '\\' :: c :: rest => some (escaped c, count, rest)
      | '.' :: rest => some (.one .char, count, rest)
      | '^' :: rest =>
        if isFirst || extended then some (.start, count, rest)
        else some (.one (.exactly '^'), count, rest)
      | '$' :: rest =>
        if endsHere extended rest then some (.finish, count, rest)
        else some (.one (.exactly '$'), count, rest)
      | '[' :: rest =>
        let (negated, body) := match rest with
          | '^' :: body => (true, body)
          | body => (false, body)
        match Pattern.members (body.length + 1) true (body.map (·, false)) with
        | some (members, rest) => some (family negated members, count, rest.map Prod.fst)
        | none => none
      | c :: rest => if c = '\\' then none else some (.one (.exactly c), count, rest)
      | [] => some (.empty, count, [])

end

/-- Read a regular expression. -/
def parse? (extended : Bool) (text : List Char) : Option Regex := do
  let (regex, _, rest) ← alternatives extended (4 * text.length + 8) 0 text
  if rest.isEmpty then return regex else none

end Regex

end Qalam.Command
