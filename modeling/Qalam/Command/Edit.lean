/-
# Line editing

`sed` reads its input line by line and applies commands to each line: it replaces what a regular
expression matches, exchanges characters, and deletes, prints or quits. A command can be limited
to some lines. `grep` prints the lines that match.
-/

import Qalam.Command.Filter
import Qalam.Command.Regex

namespace Qalam.Command

namespace Edit

/-- How letters of a replacement are changed. -/
inductive Case
  | same
  | upper
  | lower
  deriving DecidableEq

/-- A part of a replacement. -/
inductive Part
  | char (c : Char)
  | group (index : Nat)
  | all (letters : Case)
  | next (letters : Case)
  deriving DecidableEq

/-- The lines a command is for. -/
inductive Address
  | number (line : Nat)
  | last
  | matching (regex : Regex) (folded : Bool)

/-- What a command does. -/
inductive Action
  | substitute (regex : Regex) (parts : List Part) (every print folded : Bool) (place : Nat)
  | exchange (first second : List Char)
  | delete
  | print
  | quit
  | number

/-- A command with the lines it is for. -/
structure Rule where
  first : Option Address
  last : Option Address
  negated : Bool
  action : Action

/-- Split a text at a delimiter that is not behind a backslash. A backslash in front of the
delimiter is dropped, unless the delimiter would then stand for something else. The budget is
more than the length of the text. -/
def delimited : Nat → Char → List Char → Option (List Char × List Char)
  | 0, _, _ => none
  | _, _, [] => none
  | budget + 1, delimiter, c :: rest =>
    if c = delimiter then some ([], rest)
    else match c, rest with
      | '\\', escaped :: rest =>
        (delimited budget delimiter rest).map fun (inner, rest) =>
          if escaped = delimiter then (escaped :: inner, rest)
          else ('\\' :: escaped :: inner, rest)
      | '[', rest =>
        (delimited budget delimiter rest).map fun (inner, rest) => ('[' :: inner, rest)
      | c, rest => (delimited budget delimiter rest).map fun (inner, rest) => (c :: inner, rest)

/-- The parts of a replacement. -/
def parts : List Char → List Part
  | [] => []
  | '&' :: rest => .group 0 :: parts rest
  | '\\' :: c :: rest =>
    let part : Part := match c with
      | 'n' => .char '\n'
      | 't' => .char '\t'
      | 'U' => .all .upper
      | 'L' => .all .lower
      | 'E' => .all .same
      | 'u' => .next .upper
      | 'l' => .next .lower
      | c =>
        match digit? 10 c with
        | some index => .group index
        | none => .char c
    part :: parts rest
  | c :: rest => .char c :: parts rest

/-- Read an address, if there is one. -/
def address? (extended : Bool) (text : List Char) : Option (Option Address × List Char) :=
  match text with
  | '$' :: rest => some (some .last, rest)
  | '/' :: rest => do
    let (inner, rest) ← delimited (rest.length + 1) '/' rest
    let regex ← Regex.parse? extended inner
    match rest with
    | 'I' :: rest => return (some (.matching regex true), rest)
    | rest => return (some (.matching regex false), rest)
  | text =>
    let number := text.takeWhile isDigit
    match number? (String.ofList number) with
    | some line => some (some (.number line), text.drop number.length)
    | none => some (none, text)

/-- Read what a command does. -/
def action? (extended : Bool) : List Char → Option (Action × List Char)
  | 's' :: delimiter :: rest => do
    let (pattern, rest) ← delimited (rest.length + 1) delimiter rest
    let (replacement, rest) ← delimited (rest.length + 1) delimiter rest
    let regex ← Regex.parse? extended pattern
    let isFlag (c : Char) : Bool := c = 'g' || c = 'p' || c = 'i' || c = 'I' || isDigit c
    let flags := rest.takeWhile isFlag
    let place := (number? (String.ofList (flags.filter isDigit))).getD 1
    let folded := flags.contains 'i' || flags.contains 'I'
    return (.substitute regex (parts replacement) (flags.contains 'g') (flags.contains 'p') folded
      place, rest.drop flags.length)
  | 'y' :: delimiter :: rest => do
    let (first, rest) ← delimited (rest.length + 1) delimiter rest
    let (second, rest) ← delimited (rest.length + 1) delimiter rest
    if first.length = second.length then return (.exchange first second, rest) else none
  | 'd' :: rest => some (.delete, rest)
  | 'p' :: rest => some (.print, rest)
  | 'q' :: rest => some (.quit, rest)
  | '=' :: rest => some (.number, rest)
  | _ => none

/-- Read commands. The budget is more than the length of the text. -/
def commands? (extended : Bool) : Nat → List Char → Option (List Rule)
  | 0, _ => none
  | budget + 1, text => do
    let isGap (c : Char) : Bool := isSpace c || c = ';'
    match text.dropWhile isGap with
    | [] => return []
    | text =>
      let (first, rest) ← address? extended text
      let (last, rest) ← match rest with
        | ',' :: rest => do
          let (last, rest) ← address? extended rest
          if last.isNone then none else some (last, rest)
        | rest => some (none, rest)
      let rest := rest.dropWhile isSpace
      let (negated, rest) := match rest with
        | '!' :: rest => (true, rest.dropWhile isSpace)
        | rest => (false, rest)
      let (action, rest) ← action? extended rest
      let others ← commands? extended budget rest
      let rest := rest.dropWhile fun c => c = ' '
      if rest.isEmpty || rest.head? = some ';' || rest.head? = some '\n' then
        return ⟨first, last, negated, action⟩ :: others
      else none

/-- Whether an address holds for a line. -/
def Address.holds (line : List Char) (number : Nat) (isLast : Bool) : Address → Bool
  | .number wanted => number = wanted
  | .last => isLast
  | .matching regex folded => (regex.search? folded line 0).isSome

/-- Whether a command is for a line. A range goes by the numbers of lines. -/
def Rule.applies (command : Rule) (line : List Char) (number : Nat) (isLast : Bool) :
    Bool :=
  let holds := match command.first, command.last with
    | none, _ => true
    | some first, none => first.holds line number isLast
    | some (.number first), some (.number last) =>
      first ≤ number && (number ≤ last || number = first)
    | some (.number first), some .last => first ≤ number
    | some first, some _ => first.holds line number isLast
  holds != command.negated

/-- A letter in upper or lower case. -/
def Case.apply (letters : Case) (c : Char) : Char :=
  match letters with
  | .same => c
  | .upper => c.toUpper
  | .lower => c.toLower

/-- Write a replacement for a match, with the case of all letters and of the next one. -/
def replacement (text : List Char) (begin : Nat) (place : Regex.Place) :
    Case → Case → List Part → List Char
  | _, _, [] => []
  | all, next, part :: others =>
    let write (stretch : List Char) : List Char :=
      match stretch with
      | [] => replacement text begin place all next others
      | c :: rest =>
        (if next = .same then all else next).apply c :: rest.map all.apply ++
          replacement text begin place all .same others
    match part with
    | .char c => write [c]
    | .group 0 => write ((text.take place.position).drop begin)
    | .group index =>
      match place.groups.lookup index with
      | some (first, last) => write ((text.take last).drop first)
      | none => write []
    | .all letters => replacement text begin place letters .same others
    | .next letters => replacement text begin place all letters others

/-- Replace matches from a position on: the text that comes of it, and whether anything was
replaced. An empty match right behind another one does not count. The budget is more than the
length of the text. -/
def substitute (regex : Regex) (parts : List Part) (every folded : Bool) (text : List Char) :
    Nat → Nat → Nat → Option Nat → List Char × Bool
  | 0, _, position, _ => (text.drop position, false)
  | budget + 1, place, position, lastEnd =>
    match regex.search? folded text position with
    | none => (text.drop position, false)
    | some (begin, found) =>
      let front := (text.take begin).drop position
      let isEmpty := found.position = begin
      let step (written : List Char) (place : Nat) (changed : Bool) : List Char × Bool :=
        if isEmpty then
          match (text.drop begin).head? with
          | some c =>
            let (rest, more) :=
              substitute regex parts every folded text budget place (begin + 1) lastEnd
            (front ++ written ++ c :: rest, changed || more)
          | none => (front ++ written, changed)
        else
          let (rest, more) := substitute regex parts every folded text budget place
            found.position (some found.position)
          (front ++ written ++ rest, changed || more)
      let same := (text.take found.position).drop begin
      if isEmpty && lastEnd = some begin then step [] place false
      else if 1 < place then step same (place - 1) false
      else
        let written := replacement text begin found .same .same parts
        if every then step written place true
        else (front ++ written ++ text.drop found.position, true)

/-- What has become of a line: its text, what was printed, whether it is deleted and whether the
input ends with it. -/
structure Progress where
  text : List Char
  printed : List (List Char)
  isDeleted : Bool
  isLast : Bool

/-- Apply a command to a line. -/
def apply (number : Nat) (isLast : Bool) (progress : Progress) (command : Rule) : Progress :=
  if progress.isDeleted || progress.isLast || !command.applies progress.text number isLast then
    progress
  else match command.action with
    | .substitute regex parts every print folded place =>
      let size := progress.text.length
      let (text, changed) :=
        substitute regex parts every folded progress.text (2 * size + 4) place 0 none
      { progress with
        text
        printed := progress.printed ++ (if changed && print then [text] else []) }
    | .exchange first second =>
      { progress with text := progress.text.map (Command.exchange first second) }
    | .delete => { progress with isDeleted := true }
    | .print => { progress with printed := progress.printed ++ [progress.text] }
    | .quit => { progress with isLast := true }
    | .number =>
      { progress with printed := progress.printed ++ [(toString number).toList] }

/-- Apply commands to lines, the first of which has a given number. -/
def run (commands : List Rule) (quiet : Bool) : Nat → List (List Char) → List (List Char)
  | _, [] => []
  | number, first :: others =>
    let done := commands.foldl (apply number others.isEmpty) ⟨first, [], false, false⟩
    let text := if quiet || done.isDeleted then [] else [done.text]
    done.printed ++ text ++ (if done.isLast then [] else run commands quiet (number + 1) others)

end Edit

/-- The options of `sed` and `grep` and the arguments behind them. An option can bring a script
along. -/
structure EditOptions where
  letters : List Char
  scripts : List String
  args : List String

/-- Take options from the front of arguments. -/
def editOptions (options : EditOptions) : List String → EditOptions
  | [] => options
  | "--" :: args => { options with args }
  | "-e" :: script :: args =>
    editOptions { options with scripts := options.scripts ++ [script] } args
  | arg :: args =>
    match arg.toList with
    | '-' :: letter :: letters =>
      editOptions { options with letters := options.letters ++ letter :: letters } args
    | _ => { options with args := arg :: args }

/-- The program `sed` on its input. -/
def sed (args : List String) (input : List Char) : Outcome :=
  let options := editOptions ⟨[], [], []⟩ args
  let extended := options.letters.any fun c => c = 'E' || c = 'r'
  let script := match options.scripts, options.args with
    | [], [script] => some script
    | scripts, [] => if scripts.isEmpty then none else some ("\n".intercalate scripts)
    | _, _ => none
  let isKnown := options.letters.all ['E', 'r', 'n', 's', 'u'].contains
  match script.bind fun script => Edit.commands? extended (script.length + 1) script.toList with
  | some commands =>
    if isKnown then
      let output := unlines (Edit.run commands (options.letters.contains 'n') 1 (lines input))
      let complete := input.getLast? = some '\n' || output.isEmpty
      .printed (if complete then output else output.dropLast)
    else .failed 1 ["sed: invalid argument"]
  | none => .failed 1 ["sed: invalid argument"]

/-- The regular expression that stands for a text. -/
def Regex.ofText : List Char → Regex
  | [] => .empty
  | c :: rest => .sequence (.one (.exactly c)) (ofText rest)

/-- The matches of a regular expression that follow one another in a text, without empty ones.
The budget is more than the length of the text. -/
def Regex.all (regex : Regex) (folded : Bool) (text : List Char) : Nat → Nat → List (List Char)
  | 0, _ => []
  | budget + 1, position =>
    match regex.search? folded text position with
    | some (begin, found) =>
      if found.position = begin then
        if begin < text.length then regex.all folded text budget (begin + 1) else []
      else
        (text.take found.position).drop begin :: regex.all folded text budget found.position
    | none => []

/-- The program `grep` on its input. -/
def grep (args : List String) (input : List Char) : Outcome :=
  let options := editOptions ⟨[], [], []⟩ args
  let has (letter : Char) : Bool := options.letters.contains letter
  let pattern := match options.scripts, options.args with
    | [], [pattern] => some pattern
    | [pattern], [] => some pattern
    | _, _ => none
  let regex := pattern.bind fun pattern =>
    if has 'F' then some (Regex.ofText pattern.toList)
    else Regex.parse? (has 'E') pattern.toList
  let isKnown := options.letters.all ['F', 'E', 'i', 'v', 'q', 'c', 'o', 'n', 'x', 's'].contains
  match regex, isKnown with
  | some regex, true =>
    let folded := has 'i'
    let regex := if has 'x' then .sequence .start (.sequence (.group 99 regex) .finish) else regex
    let isMatch (line : List Char) : Bool := (regex.search? folded line 0).isSome != has 'v'
    let numbered := (lines input).mapIdx fun index line => (index + 1, line)
    let found := numbered.filter fun (_, line) => isMatch line
    let shown : List (List Char) :=
      if has 'q' then []
      else if has 'c' then [(toString found.length).toList]
      else if has 'o' then
        found.flatMap fun (_, line) => regex.all folded line (line.length + 2) 0
      else if has 'n' then
        found.map fun (number, line) => (toString number).toList ++ ':' :: line
      else found.map Prod.snd
    { Outcome.printed (unlines shown) with status := if found.isEmpty then 1 else 0 }
  | _, _ => .failed 2 ["grep: invalid argument"]

/-- Lines in ascending order of their octets. -/
def sorted (lines : List (List Char)) : List (List Char) :=
  lines.mergeSort fun first second => String.ofList first ≤ String.ofList second

/-- The number at the beginning of a line, for sorting. -/
def sortNumber (line : List Char) : Int :=
  match line.dropWhile isSpace with
  | '-' :: rest => -((digits 10 rest.length 0 rest).1 : Int)
  | rest => (digits 10 rest.length 0 rest).1

/-- Keep one of several equal lines in a row, with the number of them. -/
def grouped : List (List Char) → List (Nat × List Char)
  | [] => []
  | first :: others =>
    match grouped others with
    | (count, line) :: rest =>
      if line = first then (count + 1, line) :: rest else (1, first) :: (count, line) :: rest
    | [] => [(1, first)]

/-- The program `sort` on its input. -/
def sort (args : List String) (input : List Char) : Outcome :=
  let letters := args.flatMap fun arg => arg.toList.drop 1
  let isKnown := args.all fun arg =>
    arg.length > 1 && arg.toList.head? = some '-' &&
      (arg.toList.drop 1).all ['r', 'n', 'u'].contains
  let ordered := sorted (lines input)
  let ordered := if letters.contains 'n' then
      ordered.mergeSort fun first second => sortNumber first ≤ sortNumber second
    else ordered
  let ordered := if letters.contains 'u' then (grouped ordered).map Prod.snd else ordered
  let ordered := if letters.contains 'r' then ordered.reverse else ordered
  if isKnown then .printed (unlines ordered) else .failed 2 ["sort: invalid argument"]

/-- The program `uniq` on its input. -/
def uniq (args : List String) (input : List Char) : Outcome :=
  let groups := grouped (lines input)
  let numbered (entry : Nat × List Char) : List Char :=
    let count := (toString entry.1).toList
    List.replicate (7 - count.length) ' ' ++ count ++ ' ' :: entry.2
  match args with
  | [] => .printed (unlines (groups.map Prod.snd))
  | ["-c"] => .printed (unlines (groups.map numbered))
  | ["-d"] => .printed (unlines ((groups.filter fun (count, _) => 1 < count).map Prod.snd))
  | ["-u"] => .printed (unlines ((groups.filter fun (count, _) => count = 1).map Prod.snd))
  | _ => .failed 1 ["uniq: invalid argument"]

end Qalam.Command
