/-
# Small programs

Programs that turn their input or their arguments into output and need nothing else. Each knows
its common options; with others, and with files, it fails.
-/

import Qalam.Command.Pattern
import Qalam.Command.Print

namespace Qalam.Command

/-- A text with a line end behind it. -/
def lined (text : List Char) : List Char := text ++ ['\n']

/-- Lines with their line ends. -/
def unlines (lines : List (List Char)) : List Char := lines.flatMap lined

/-- The number of milliseconds of a time in seconds, minutes, hours or days, if it is one. -/
def duration? (text : List Char) : Option Nat :=
  let (number, _, rest) := Fraction.read .double text
  let unit? := match rest with
    | [] | ['s'] => some 1000
    | ['m'] => some 60000
    | ['h'] => some 3600000
    | ['d'] => some 86400000
    | _ => none
  match unit?, number.magnitude with
  | some unit, .finite mantissa exponent =>
    let (numerator, denominator) := Binary64.scale (mantissa * unit) 1 exponent
    if rest.length = text.length || (number.negative && numerator ≠ 0) then none
    else some (numerator / denominator)
  | some unit, .infinite => if number.negative then none else some (unit * 1000000000)
  | _, _ => none

/-- The program `sleep`, which waits for the sum of its arguments. -/
def sleep (args : List String) : Outcome :=
  let args := if args.head? = some "--" then args.tail else args
  let isWrong (arg : String) : Bool := (duration? arg.toList).isNone
  if args.contains "--help" then .printed (lined "Usage: sleep NUMBER[SUFFIX]...".toList)
  else if args.isEmpty then .failed 1 ["sleep: missing operand", tryHelp "sleep"]
  else if args.any isWrong then
    .failed 1 (((args.filter isWrong).map fun arg => s!"sleep: invalid time interval '{arg}'") ++
      [tryHelp "sleep"])
  else
    let total := (args.filterMap fun arg => duration? arg.toList).foldl (· + ·) 0
    { Outcome.ended 0 with milliseconds := total }

/-- The count that `head` and `tail` are told, and whether it counts characters. Without one it
is ten lines. -/
def extent? : List String → Option (Nat × Bool)
  | [] => some (10, false)
  | ["-n", count] => (number? count).map (·, false)
  | ["-c", count] => (number? count).map (·, true)
  | [arg] =>
    match arg.toList with
    | '-' :: 'n' :: count => (number? (String.ofList count)).map (·, false)
    | '-' :: 'c' :: count => (number? (String.ofList count)).map (·, true)
    | '-' :: count => (number? (String.ofList count)).map (·, false)
    | _ => none
  | _ => none

/-- The lines of a text with their line ends. The last one may lack it. -/
def wholeLines (text : List Char) : List (List Char) :=
  let add (c : Char) (lines : List (List Char)) : List (List Char) :=
    if c = '\n' then [c] :: lines
    else match lines with
      | [] => [[c]]
      | line :: others => (c :: line) :: others
  text.foldr add []

/-- The program `head`. -/
def head (args : List String) (input : List Char) : Outcome :=
  match extent? args with
  | some (count, true) => .printed (input.take count)
  | some (count, false) => .printed ((wholeLines input).take count).flatten
  | none => .failed 1 ["head: invalid argument"]

/-- The program `tail`. -/
def tail (args : List String) (input : List Char) : Outcome :=
  match extent? args with
  | some (count, true) => .printed (input.drop (input.length - count))
  | some (count, false) =>
    let lines := wholeLines input
    .printed (lines.drop (lines.length - count)).flatten
  | none => .failed 1 ["tail: invalid argument"]

/-- The program `rev`. -/
def rev (args : List String) (input : List Char) : Outcome :=
  if args.isEmpty then .printed (unlines ((lines input).map List.reverse))
  else .failed 1 ["rev: cannot open"]

/-- The program `wc` with a single count. -/
def wc (args : List String) (input : List Char) : Outcome :=
  let words := (String.ofList (input.map fun c => if isSpace c then ' ' else c)).splitOn " "
  match args with
  | ["-c"] => .printed (lined (toString input.length).toList)
  | ["-l"] => .printed (lined (toString (input.count '\n')).toList)
  | ["-w"] => .printed (lined (toString (words.filter (· ≠ "")).length).toList)
  | _ => .failed 1 ["wc: invalid argument"]

/-- A path without slashes at its end. A path of slashes is one slash. -/
def trimSlashes (path : List Char) : List Char :=
  let trimmed := (path.reverse.dropWhile (· = '/')).reverse
  if trimmed.isEmpty && !path.isEmpty then ['/'] else trimmed

/-- The program `basename`: the last part of a path, without a given ending. -/
def basename (args : List String) : Outcome :=
  let last (path : String) : List Char :=
    let path := trimSlashes path.toList
    if path = ['/'] then path else (path.reverse.takeWhile (· ≠ '/')).reverse
  let args := if args.head? = some "--" then args.tail else args
  match args with
  | [path] => .printed (lined (last path))
  | [path, ending] =>
    let name := last path
    let ending := ending.toList
    if ending.length < name.length && ending.isSuffixOf name then
      .printed (lined (name.take (name.length - ending.length)))
    else .printed (lined name)
  | [] => .failed 1 ["basename: missing operand", tryHelp "basename"]
  | _ :: _ :: extra :: _ =>
    .failed 1 [s!"basename: extra operand '{extra}'", tryHelp "basename"]

/-- The program `dirname`: a path without its last part. -/
def dirname (args : List String) : Outcome :=
  let directory (path : String) : List Char :=
    let front := ((trimSlashes path.toList).reverse.dropWhile (· ≠ '/')).reverse
    if front.isEmpty then ['.'] else trimSlashes front
  if args.isEmpty then .failed 1 ["dirname: missing operand", tryHelp "dirname"]
  else .printed (unlines (args.map directory))

/-- The program `seq`, which counts. -/
def seq (args : List String) : Outcome :=
  let count (first step last : Nat) : Outcome :=
    if step = 0 then
      .failed 1 ["seq: invalid Zero increment value: '0'", tryHelp "seq"]
    else
      let size := if last < first then 0 else (last - first) / step + 1
      .printed (unlines ((List.range size).map fun index =>
        (toString (first + step * index)).toList))
  match args.mapM number? with
  | some [last] => count 1 1 last
  | some [first, last] => count first 1 last
  | some [first, step, last] => count first step last
  | some [] => .failed 1 ["seq: missing operand", tryHelp "seq"]
  | _ => .failed 1 ["seq: invalid floating point argument", tryHelp "seq"]

/-- The characters of a set of `tr`: ranges, families and escapes are written out. The budget is
the length of the text. -/
def charSet : Nat → List Char → List Char
  | 0, _ => []
  | _, [] => []
  | budget + 1, '[' :: ':' :: rest =>
    let name := String.ofList (rest.takeWhile (· ≠ ':'))
    let members := ((List.range 256).map Char.ofNat).filter (isInFamily name)
    if members.isEmpty then '[' :: charSet budget (':' :: rest)
    else members ++ charSet budget ((rest.dropWhile (· ≠ ':')).drop 2)
  | budget + 1, '\\' :: rest =>
    match escape .shellFormat rest, rest with
    | (.text [c], after), _ :: others =>
      if after.length < rest.length then c :: charSet budget after
      else (rest.take 1) ++ charSet budget others
    | _, _ => ['\\']
  | budget + 1, low :: '-' :: high :: rest =>
    if low ≤ high then
      (List.range (high.toNat - low.toNat + 1)).map (fun offset => Char.ofNat (low.toNat + offset))
        ++ charSet budget rest
    else []
  | budget + 1, c :: rest => c :: charSet budget rest

/-- Keep one of several equal characters in a row, if they are in a set. -/
def squeeze (set : List Char) : List Char → List Char
  | [] => []
  | c :: rest =>
    if rest.head? = some c && set.contains c then squeeze set rest else c :: squeeze set rest

/-- Put the character of a second set in the place of the one with the same index in a first. The
last one of the second set stands for those that it lacks. -/
def exchange (first second : List Char) (c : Char) : Char :=
  match (first.reverse.idxOf? c).map (first.length - 1 - ·) with
  | some index => (second[index]?).getD ((second.getLast?).getD c)
  | none => c

/-- The program `tr`. -/
def tr (args : List String) (input : List Char) : Outcome :=
  let set (arg : String) : List Char := charSet arg.length arg.toList
  let isOption (arg : String) : Bool := arg.toList.head? = some '-' && arg.length > 1
  let letters := (args.takeWhile isOption).flatMap fun arg => arg.toList.tail
  let sets := (args.dropWhile isOption).map set
  let turned (set : List Char) : List Char :=
    if letters.contains 'c' || letters.contains 'C' then
      ((List.range 256).map Char.ofNat).filter fun c => !set.contains c
    else set
  let squeezed := letters.contains 's'
  let wrong : Outcome := .failed 1 ["tr: missing operand", tryHelp "tr"]
  if letters.any fun c => !(['c', 'C', 'd', 's'].contains c) then wrong
  else match letters.contains 'd', sets with
    | true, [first] => .printed (input.filter fun c => !(turned first).contains c)
    | true, [first, second] =>
      if squeezed then
        .printed (squeeze second (input.filter fun c => !(turned first).contains c))
      else wrong
    | false, [first] => if squeezed then .printed (squeeze (turned first) input)
      else wrong
    | false, [first, second] =>
      let changed := input.map (exchange (turned first) second)
      .printed (if squeezed then squeeze second changed else changed)
    | _, _ => wrong

/-- A list of ranges, such as those of `cut`; an open one goes on without end. -/
def ranges? (text : String) : Option (List (Nat × Option Nat)) :=
  (text.splitOn ",").mapM fun range =>
    match range.splitOn "-" with
    | [only] => (number? only).map fun n => (n, some n)
    | ["", last] => (number? last).map fun n => (1, some n)
    | [first, ""] => (number? first).map fun n => (n, none)
    | [first, last] => do return ((← number? first), some (← number? last))
    | _ => none

/-- The members of a list whose places, counted from one, lie in ranges. -/
def select {α : Type} (ranges : List (Nat × Option Nat)) (members : List α) : List α :=
  let isIn (place : Nat) : Bool := ranges.any fun (first, last) =>
    first ≤ place && (match last with
      | some last => place ≤ last
      | none => true)
  (members.mapIdx fun index member => (index + 1, member)).filterMap fun (place, member) =>
    if isIn place then some member else none

/-- Separate the letters of options from the values behind them. -/
def spread (args : List String) : List String :=
  args.flatMap fun arg =>
    match arg.toList with
    | '-' :: letter :: c :: rest =>
      if ['b', 'c', 'd', 'f'].contains letter then
        [String.ofList ['-', letter], String.ofList (c :: rest)]
      else [arg]
    | _ => [arg]

/-- The program `cut`. -/
def cut (args : List String) (input : List Char) : Outcome :=
  let fields (divider list : String) (suppress : Bool) : Outcome :=
    match divider.toList, ranges? list with
    | [c], some ranges =>
      let change (text : List Char) : List (List Char) :=
        if text.contains c then
          let parts := (String.ofList text).splitOn (String.singleton c)
          [((String.singleton c).intercalate (select ranges parts)).toList]
        else if suppress then [] else [text]
      .printed (unlines ((lines input).flatMap change))
    | _, _ => .failed 1 ["cut: invalid list", tryHelp "cut"]
  match spread args with
  | ["-c", list] | ["-b", list] =>
    match ranges? list with
    | some ranges => .printed (unlines ((lines input).map (select ranges)))
    | none => .failed 1 ["cut: invalid list", tryHelp "cut"]
  | ["-f", list] => fields "\t" list false
  | ["-d", divider, "-f", list] | ["-f", list, "-d", divider] => fields divider list false
  | ["-s", "-d", divider, "-f", list] | ["-d", divider, "-f", list, "-s"] =>
    fields divider list true
  | _ => .failed 1 ["cut: invalid list", tryHelp "cut"]

end Qalam.Command
