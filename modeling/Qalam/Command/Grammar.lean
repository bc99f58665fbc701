/-
# The grammar of scripts

A script is read character by character. Blanks and operators end a word outside quotes; words
that could be keywords are looked at before they are consumed. Commands nest inside words and
words inside commands, so the reading of the one takes the reading of the other, one level
deeper, as an argument. A script that cannot be read has a fault, which says what was found, what
was expected there, and on which line.
-/

import Qalam.Command.Octets
import Qalam.Command.Script

namespace Qalam.Command

/-- A text that is being read: the characters to come, the number of the current line, and the
number of lines behind it that documents have taken out. -/
structure Source where
  chars : List Char
  line : Nat
  hidden : Nat

namespace Source

/-- The beginning of a text. -/
def start (chars : List Char) : Source := ⟨chars, 1, 0⟩

/-- Drop a number of characters and count the lines among them. -/
def drop : Nat → Source → Source
  | 0, source => source
  | count + 1, source =>
    match source.chars with
    | [] => source
    | c :: rest =>
      if c = '\n' then drop count ⟨rest, source.line + source.hidden + 1, 0⟩
      else drop count { source with chars := rest }

end Source

namespace Grammar

/-- Why a script cannot be read, and the line on which that was noticed. -/
structure Fault where
  line : Nat
  text : String

/-- A computation that consumes characters or finds a fault. -/
abbrev Reader (α : Type) : Type := StateT Source (Except Fault) α

/-- Find a fault. -/
def fault {α : Type} (text : String) : Reader α := fun source => .error ⟨source.line, text⟩

/-- The characters to come, which stay where they are. -/
def rest : Reader (List Char) := fun source => .ok (source.chars, source)

/-- The number of the current line. -/
def line : Reader Nat := fun source => .ok (source.line, source)

/-- The next character, which stays where it is. -/
def peek : Reader (Option Char) := fun source => .ok (source.chars.head?, source)

/-- Skip a number of characters. -/
def skip (count : Nat) : Reader Unit := fun source => .ok ((), source.drop count)

/-- Consume a given stretch if it comes next, and tell whether it did. -/
def accept (stretch : String) : Reader Bool := fun source =>
  if stretch.toList.isPrefixOf source.chars then .ok (true, source.drop stretch.length)
  else .ok (false, source)

/-- Consume characters as long as they meet a test. -/
def takeWhile (test : Char → Bool) : Reader (List Char) := fun source =>
  let taken := source.chars.takeWhile test
  .ok (taken, source.drop taken.length)

/-- Characters that end a word outside quotes. -/
def isBoundary (c : Char) : Bool :=
  c = ' ' || c = '\t' || c = '\n' || c = ';' || c = '&' || c = '|' || c = '<' || c = '>' ||
    c = '(' || c = ')'

/-- Characters that begin the name of a variable. -/
def isNameStart (c : Char) : Bool := isLetter c || c = '_'

/-- Characters that continue the name of a variable. -/
def isNameChar (c : Char) : Bool := isNameStart c || isDigit c

/-- Parameters whose name is a single sign. -/
def isSpecial (c : Char) : Bool :=
  c = '@' || c = '*' || c = '#' || c = '?' || c = '-' || c = '$' || c = '!'

/-- The characters behind blanks, continued lines and a comment. -/
def behindBlanks : Nat → List Char → List Char
  | 0, text => text
  | budget + 1, text =>
    match text with
    | ' ' :: rest | '\t' :: rest => behindBlanks budget rest
    | '\\' :: '\n' :: rest => behindBlanks budget rest
    | '#' :: rest => rest.dropWhile (· ≠ '\n')
    | text => text

/-- Skip blanks between two words. -/
def blanks : Reader Unit := do
  let text ← rest
  skip (text.length - (behindBlanks (text.length + 1) text).length)

/-- Skip blanks and line ends. -/
def gaps : Nat → Reader Unit
  | 0 => return
  | budget + 1 => do
    blanks
    if ← accept "\n" then gaps budget

/-- Skip any number of blanks and line ends. -/
def allGaps : Reader Unit := do gaps ((← rest).length + 1)

/-- The next word as it is spelled, which stays where it is. -/
def keyword : Reader String := do
  blanks
  return String.ofList ((← rest).takeWhile fun c => !isBoundary c)

/-- Keywords that end a sequence of commands. -/
def enders : List String := ["then", "elif", "else", "fi", "do", "done", "esac", "\x7d"]

/-- Words that belong to the grammar itself. -/
def keywords : List String :=
  enders ++ ["!", "case", "for", "if", "in", "until", "while", "\x7b"]

/-- Operators; of two that fit, the longer one stands first. -/
def operators : List String := [";;", "&&", "||", ";", "&", "|", "(", ")"]

/-- How what comes next is called. -/
def nextName : Reader String := do
  let word ← keyword
  let text ← rest
  match text, operators.find? fun operator => operator.toList.isPrefixOf text with
  | [], _ => return "end of file"
  | '\n' :: _, _ => return "newline"
  | '<' :: _, _ | '>' :: _, _ => return "redirection"
  | _, some operator => return "\"" ++ operator ++ "\""
  | _, none => return if keywords.contains word then "\"" ++ word ++ "\"" else "word"

/-- Find the fault that something else was expected than what comes next. -/
def unexpected {α : Type} (expected : Option String) : Reader α := do
  let name ← nextName
  match expected with
  | some word => fault (name ++ " unexpected (expecting \"" ++ word ++ "\")")
  | none => fault (name ++ " unexpected")

/-- Consume a given operator. -/
def expect (operator : String) : Reader Unit := do
  blanks
  if !(← accept operator) then unexpected (some operator)

/-- Consume a keyword. -/
def expectKeyword (word : String) : Reader Unit := do
  if (← keyword) = word then skip word.length else unexpected (some word)

/-- How the sequences of commands are read that nest in something else. The argument tells whether
there may be none. -/
abbrev Nested : Type := Bool → Reader Script

/-- Where a stretch of pieces ends. -/
inductive Stretch
  | bare
  | double
  | braced (quoted : Bool)
  | sum (depth : Nat)
  | document
  deriving DecidableEq

/-- Whether the characters of a stretch are quoted. -/
def Stretch.isQuoted : Stretch → Bool
  | bare => false
  | double => true
  | braced quoted => quoted
  | sum _ | document => true

/-- Characters that a backslash protects inside a stretch. -/
def Stretch.protects (stretch : Stretch) (c : Char) : Bool :=
  match stretch with
  | bare | braced false => true
  | double | sum _ => c = '"' || c = '\\' || c = '$' || c = '\x60'
  | document => c = '\\' || c = '$' || c = '\x60'
  | braced true => c = '"' || c = '\\' || c = '$' || c = '\x60' || c = '\x7d'

/-- The text between backquotes, up to and including the second one. A backslash protects a few
characters there. -/
def backquoted (quoted : Bool) : Nat → Reader (List Char)
  | 0 => fault "EOF in backquote substitution"
  | budget + 1 => do
    match ← rest with
    | [] => fault "EOF in backquote substitution"
    | '\x60' :: _ =>
      skip 1
      return []
    | '\\' :: c :: _ =>
      skip 2
      let others ← backquoted quoted budget
      if c = '\x60' || c = '\\' || c = '$' || (quoted && c = '"') then return c :: others
      else return '\\' :: c :: others
    | c :: _ =>
      skip 1
      let others ← backquoted quoted budget
      return c :: others

/-- The operator between the name of a parameter and a word, up to where the word begins. Anything
else makes no sense. -/
def formOperator : Reader (Option (Word → Form)) := do
  if ← accept "\x7d" then return none
  else if ← accept ":-" then return some (.fallback true)
  else if ← accept ":=" then return some (.assign true)
  else if ← accept ":?" then return some (.demand true)
  else if ← accept ":+" then return some (.replace true)
  else if ← accept "-" then return some (.fallback false)
  else if ← accept "=" then return some (.assign false)
  else if ← accept "?" then return some (.demand false)
  else if ← accept "+" then return some (.replace false)
  else if ← accept "%%" then return some (.strip false true)
  else if ← accept "%" then return some (.strip false false)
  else if ← accept "##" then return some (.strip true true)
  else if ← accept "#" then return some (.strip true false)
  else return some fun _ => .senseless

/-- The name of a parameter in braces; none has no characters. -/
def parameterName : Reader String := do
  match ← peek with
  | some c =>
    if isNameStart c then return String.ofList (← takeWhile isNameChar)
    else if isDigit c then return String.ofList (← takeWhile isDigit)
    else if isSpecial c then
      skip 1
      return String.ofList [c]
    else return ""
  | none => return ""

/-- Whether a form cuts something off. The pattern for it is never quoted from outside. -/
def isStrip : Form → Bool
  | .strip .. => true
  | _ => false

/-- A parameter in braces, after the opening one. -/
def braces (pieces : Stretch → Reader Word) (quoted : Bool) : Reader Piece := do
  let isLength : Bool := match ← rest with
    | '#' :: '\x7d' :: _ => false
    | '#' :: c :: after :: _ => isNameChar c || (isSpecial c && after = '\x7d')
    | _ => false
  if isLength then
    skip 1
    let name ← parameterName
    if ← accept "\x7d" then return .parameter name .length quoted
    else
      let _ ← pieces (.braced quoted)
      return .parameter name .senseless quoted
  else
    let name ← parameterName
    match ← formOperator with
    | none => return .parameter name (if name.isEmpty then .senseless else .plain) quoted
    | some form =>
      let word ← pieces (.braced (quoted && !isStrip (form [])))
      return .parameter name (if name.isEmpty then .senseless else form word) quoted

/-- What a dollar sign introduces. A sign that introduces nothing stands for itself. -/
def dollar (script : Nested) (pieces : Stretch → Reader Word) (quoted : Bool) :
    Reader Piece := do
  if ← accept "((" then return .sum (← pieces (.sum 0)) quoted
  else if ← accept "(" then
    let body ← script true
    allGaps
    expect ")"
    return .output body quoted
  else if ← accept "\x7b" then braces pieces quoted
  else match ← peek with
    | some c =>
      if isNameStart c then
        return .parameter (String.ofList (← takeWhile isNameChar)) .plain quoted
      else if isDigit c || isSpecial c then
        skip 1
        return .parameter (String.ofList [c]) .plain quoted
      else return .char '$' quoted
    | none => return .char '$' quoted

/-- Read the pieces of a stretch, with the sign that closes it. The end of a word stays where it
is. The budget is more than the number of characters to come. -/
def pieces (script : Nested) : Nat → Stretch → Reader Word
  | 0, _ => fault "Unterminated quoted string"
  | budget + 1, stretch => do
    let again := pieces script budget
    let quoted := stretch.isQuoted
    match ← rest with
    | [] =>
      match stretch with
      | .bare | .document => return []
      | .double => fault "Unterminated quoted string"
      | .braced _ => fault "Missing '\x7d'"
      | .sum _ => fault "Missing '))'"
    | c :: after =>
      if stretch = .bare && isBoundary c then return []
      else if stretch = .double && c = '"' then
        skip 1
        return []
      else if (stretch = .braced true || stretch = .braced false) && c = '\x7d' then
        skip 1
        return []
      else if stretch = .sum 0 && c = ')' && after.head? = some ')' then
        skip 2
        return []
      else if c = '\\' then
        match after with
        | '\n' :: _ =>
          skip 2
          again stretch
        | escaped :: _ =>
          skip 2
          let others ← again stretch
          if stretch.protects escaped then return .char escaped true :: others
          else return .char '\\' quoted :: .char escaped quoted :: others
        | [] =>
          skip 1
          return .char '\\' true :: (← again stretch)
      else if c = '\x27' && !quoted then
        skip 1
        let text ← takeWhile (· ≠ '\x27')
        if !(← accept "\x27") then fault "Unterminated quoted string"
        let others ← again stretch
        return .quotes :: text.map (.char · true) ++ others
      else if c = '"' && !quoted then
        skip 1
        let inner ← again .double
        let others ← again stretch
        return .quotes :: inner ++ others
      else if c = '"' && stretch = .braced true then
        skip 1
        again stretch
      else if c = '\x60' then
        skip 1
        let text ← backquoted quoted (after.length + 1)
        match (script true).run (.start text) with
        | .ok (body, _) =>
          let others ← again stretch
          return .output body quoted :: others
        | .error found => throw found
      else if c = '$' then
        skip 1
        let first ← dollar script again quoted
        let others ← again stretch
        return first :: others
      else
        skip 1
        let next := match stretch with
          | .sum depth =>
            if c = '(' then .sum (depth + 1) else if c = ')' then .sum (depth - 1) else stretch
          | _ => stretch
        let others ← again next
        return .char c quoted :: others

/-- Read a word, if one comes next. -/
def word? (script : Nested) : Reader (Option Word) := do
  blanks
  match ← rest with
  | [] => return none
  | c :: after =>
    if isBoundary c then return none
    else return some (← pieces script (after.length + 2) .bare)

/-- Read a word. -/
def word (script : Nested) (expected : Option String) : Reader Word := do
  match ← word? script with
  | some word => return word
  | none => unexpected expected

/-- The text of a word without its quotes, and whether it had any. -/
def delimiter (word : Word) : List Char × Bool :=
  let letter? : Piece → Option Char
    | .char c _ => some c
    | _ => none
  let isQuoted : Piece → Bool
    | .char _ quoted => quoted
    | .quotes => true
    | _ => false
  (word.filterMap letter?, word.any isQuoted)

/-- Split lines before the one that ends a document, which is dropped. -/
def splitDocument (delimiter : List Char) (tabbed : Bool) :
    List (List Char) → List (List Char) × List (List Char)
  | [] => ([], [])
  | line :: others =>
    let line := if tabbed then line.dropWhile (· = '\t') else line
    if line = delimiter then ([], others)
    else
      let (body, rest) := splitDocument delimiter tabbed others
      (line :: body, rest)

/-- Take a document out of the script. It begins with the line behind the current one. -/
def document (script : Nested) (tabbed : Bool) : Reader Word := do
  let (name, isQuoted) := delimiter (← word script none)
  let source ← get
  let current := source.chars.takeWhile (· ≠ '\n')
  let behind := lines (source.chars.drop (current.length + 1))
  let (body, others) := splitDocument name tabbed behind
  let unlines (lines : List (List Char)) : List Char := lines.flatMap (· ++ ['\n'])
  let hidden := source.hidden + (behind.length - others.length)
  set ({ source with chars := current ++ '\n' :: unlines others, hidden } : Source)
  let content := unlines body
  if isQuoted then return content.map (.char · true)
  else match (pieces script (content.length + 1) .document).run (.start content) with
    | .ok (word, _) => return word
    | .error found => throw found

/-- Read a redirection, if one comes next. A number in front of its arrow has to touch it. -/
def redirection? (script : Nested) : Reader (Option Redirection) := do
  blanks
  let text ← rest
  let number := (text.take 1).takeWhile isDigit
  let channel (standard : Nat) : Nat := ((number? (String.ofList number)).getD standard)
  let finish (standard : Nat) (arrow : Arrow) : Reader (Option Redirection) := do
    return some (.mk (channel standard) arrow (← word script none))
  match text.drop number.length with
  | '<' :: _ | '>' :: _ =>
    skip number.length
    if ← accept ">&" then finish 1 .duplicate
    else if ← accept "<&" then finish 0 .duplicate
    else if ← accept ">>" then finish 1 .append
    else if ← accept ">|" then finish 1 .write
    else if ← accept "<<-" then
      return some (.mk (channel 0) .document (← document script true))
    else if ← accept "<<" then
      return some (.mk (channel 0) .document (← document script false))
    else if ← accept "<>" then finish 0 .read
    else if ← accept "<" then finish 0 .read
    else
      skip 1
      finish 1 .write
  | _ => return none

/-- The redirections that come next. -/
def redirections (script : Nested) : Nat → Reader (List Redirection)
  | 0 => return []
  | budget + 1 => do
    match ← redirection? script with
    | some first => return first :: (← redirections script budget)
    | none => return []

/-- A word that gives a value to a variable: the name and the word for the value. -/
def setting? (word : Word) : Option (String × Word) :=
  let letter? : Piece → Option Char
    | .char c false => if isNameChar c then some c else none
    | _ => none
  let name := (word.map letter?).takeWhile Option.isSome
  match name.filterMap id, word.drop name.length with
  | c :: letters, .char '=' false :: value =>
    if isNameStart c then some (String.ofList (c :: letters), value) else none
  | _, _ => none

/-- A simple command that has been read so far, and the line on which its first part ends. -/
structure Draft where
  line : Option Nat
  settings : List (String × Word)
  words : List Word
  redirections : List Redirection

/-- The rest of a simple command. -/
def simpleRest (script : Nested) : Nat → Draft → Reader Draft
  | 0, draft => return draft
  | budget + 1, draft => do
    match ← redirection? script with
    | some arrow =>
      let line := some (draft.line.getD (← line))
      simpleRest script budget { draft with line, redirections := draft.redirections ++ [arrow] }
    | none =>
      match ← word? script with
      | none => return draft
      | some word =>
        let line := some (draft.line.getD (← line))
        match draft.words, setting? word with
        | [], some setting =>
          simpleRest script budget { draft with line, settings := draft.settings ++ [setting] }
        | words, _ => simpleRest script budget { draft with line, words := words ++ [word] }

/-- Commands that belong to the language of shells itself. -/
def specials : List String :=
  [":", ".", "break", "continue", "eval", "exec", "exit", "export", "local", "readonly", "return",
    "set", "shift", "times", "trap", "unset"]

/-- Whether a text is the name of a variable. -/
def isName (text : String) : Bool :=
  match text.toList with
  | c :: rest => isNameStart c && rest.all isNameChar
  | [] => false

/-- A command that is no compound: a simple one, or the definition of a function. -/
def simple (script : Nested) (command : Reader Script) : Reader Script := do
  let name ← keyword
  let behind := (← rest).drop name.length
  let signs := ['=', '$', '\\', '"', '\x27', '\x60']
  let isPlain := name.toList.all fun c => !signs.contains c
  match isPlain && !name.isEmpty, behindBlanks behind.length behind with
  | true, '(' :: _ =>
    skip name.length
    expect "("
    expect ")"
    if !isName name || specials.contains name then fault "Bad function name"
    allGaps
    return .function name (← command)
  | _, _ =>
    let draft ← simpleRest script ((← rest).length + 2) ⟨none, [], [], []⟩
    match draft.line with
    | some line => return .simple line draft.settings draft.words draft.redirections
    | none => unexpected none

/-- Words up to the end of a command. -/
def words (script : Nested) : Nat → Reader (List Word)
  | 0 => return []
  | budget + 1 => do
    match ← word? script with
    | some first => return first :: (← words script budget)
    | none => return []

/-- A condition, after its first keyword. -/
def conditionRest (script : Nested) : Nat → Reader Script
  | 0 => unexpected none
  | budget + 1 => do
    let test ← script false
    expectKeyword "then"
    let yes ← script false
    let next ← keyword
    if next = "elif" then
      skip 4
      return .condition test yes (← conditionRest script budget)
    else if next = "else" then
      skip 4
      let no ← script false
      expectKeyword "fi"
      return .condition test yes no
    else
      expectKeyword "fi"
      return .condition test yes .nothing

/-- The body of a loop. -/
def loopBody (script : Nested) : Reader Script := do
  allGaps
  expectKeyword "do"
  let inner ← script false
  expectKeyword "done"
  return inner

/-- A loop over words, after its keyword. -/
def forRest (script : Nested) (line : Nat) : Reader Script := do
  let name ← keyword
  if !isName name then fault "Bad for loop variable"
  skip name.length
  allGaps
  if (← keyword) = "in" then
    skip 2
    let items ← words script ((← rest).length + 1)
    blanks
    if (← peek) ≠ some '\n' && !(← accept ";") then unexpected none
    return .forEach line name (some items) (← loopBody script)
  else
    let _ ← accept ";"
    return .forEach line name none (← loopBody script)

/-- Patterns with bars between them, up to the closing parenthesis. -/
def patterns (script : Nested) : Nat → Reader (List Word)
  | 0 => unexpected none
  | budget + 1 => do
    let first ← word script (some ")")
    blanks
    if ← accept "|" then return first :: (← patterns script budget)
    else
      expect ")"
      return [first]

/-- The alternatives of a choice. -/
def arms (script : Nested) : Nat → Reader (List (List Word × Script))
  | 0 => unexpected none
  | budget + 1 => do
    allGaps
    if (← keyword) = "esac" then
      skip 4
      return []
    else
      let _ ← accept "("
      let tests ← patterns script ((← rest).length + 1)
      let inner ← script true
      allGaps
      if ← accept ";;" then return (tests, inner) :: (← arms script budget)
      else if (← keyword) = "esac" then
        skip 4
        return [(tests, inner)]
      else unexpected (some ";;")

/-- A choice, after its keyword. -/
def choiceRest (script : Nested) (line : Nat) : Reader Script := do
  let subject ← word script none
  allGaps
  expectKeyword "in"
  return .choice line subject (← arms script ((← rest).length + 1))

/-- A command with the redirections behind it. -/
def command (script : Nested) : Nat → Reader Script
  | 0 => unexpected none
  | budget + 1 => do
    let word ← keyword
    let line ← line
    let finish (inner : Script) : Reader Script := do
      match ← redirections script ((← rest).length + 1) with
      | [] => return inner
      | arrows => return .redirected line inner arrows
    if word = "if" then
      skip 2
      finish (← conditionRest script ((← rest).length + 1))
    else if word = "while" || word = "until" then
      skip 5
      let test ← script false
      finish (.loop (word = "until") test (← loopBody script))
    else if word = "for" then
      skip 3
      finish (← forRest script line)
    else if word = "case" then
      skip 4
      finish (← choiceRest script line)
    else if word = "\x7b" then
      skip 1
      let inner ← script false
      allGaps
      expectKeyword "\x7d"
      finish inner
    else if ← accept "(" then
      let inner ← script false
      allGaps
      expect ")"
      finish (.apart line inner)
    else if enders.contains word || word = "!" then unexpected none
    else simple script (command script budget)

/-- Commands with bars between them. -/
def pipeRest (script : Nested) : Nat → Script → Reader Script
  | 0, first => return first
  | budget + 1, first => do
    blanks
    match ← rest with
    | '|' :: '|' :: _ => return first
    | '|' :: _ =>
      skip 1
      allGaps
      let second ← command script (budget + 1)
      pipeRest script budget (.pipe first second)
    | _ => return first

/-- Commands that pass their output on, possibly behind a negation. -/
def pipeline (script : Nested) : Reader Script := do
  let size := (← rest).length
  if (← keyword) = "!" then
    skip 1
    let first ← command script size
    return .negation (← pipeRest script size first)
  else
    let first ← command script size
    pipeRest script size first

/-- The commands that depend on those before them. -/
def chainRest (script : Nested) : Nat → Script → Reader Script
  | 0, first => return first
  | budget + 1, first => do
    blanks
    if ← accept "&&" then
      allGaps
      chainRest script budget (.andThen first (← pipeline script))
    else if ← accept "||" then
      allGaps
      chainRest script budget (.orElse first (← pipeline script))
    else return first

/-- Commands that depend on one another. -/
def chain (script : Nested) : Reader Script := do
  let first ← pipeline script
  chainRest script (← rest).length first

/-- Whether a nested sequence of commands ends here. -/
def isEnd : Reader Bool := do
  blanks
  match ← rest with
  | ')' :: _ | ';' :: ';' :: _ => return true
  | _ => return enders.contains (← keyword)

/-- What separates two commands: whether the first one runs in the background, and whether a line
ends here. -/
inductive Separator
  | none
  | plain
  | background
  | lineEnd
  deriving DecidableEq

/-- Read what separates two commands. -/
def separator : Reader Separator := do
  blanks
  match ← rest with
  | '\n' :: _ =>
    skip 1
    return .lineEnd
  | ';' :: ';' :: _ => return .none
  | ';' :: _ =>
    skip 1
    return .plain
  | '&' :: _ =>
    skip 1
    return .background
  | _ => return .none

/-- A sequence of commands. On a single line, the sequence ends with the line and with nothing
else; otherwise a keyword or a parenthesis ends it, but not at once unless it may be empty. -/
def list (script : Nested) (isLine : Bool) : Nat → Bool → Reader Script
  | 0, _ => unexpected none
  | budget + 1, mayEnd => do
    let more (first : Script) : Reader Script := do
      return .sequence first (← list script isLine budget true)
    if isLine then blanks else allGaps
    if (← rest).isEmpty then return .nothing
    if !isLine && mayEnd && (← isEnd) then return .nothing
    let first ← chain script
    match ← separator with
    | .none => if isLine && !(← rest).isEmpty then unexpected none else return first
    | .lineEnd => if isLine then return first else more first
    | .plain =>
      blanks
      if isLine && (← accept "\n") then return first else more first
    | .background =>
      blanks
      if isLine && (← accept "\n") then return .background first else more (.background first)

/-- Sequences of commands, nested to a given depth. -/
def nested : Nat → Nested
  | 0 => fun _ => unexpected none
  | depth + 1 => fun mayEnd => do list (nested depth) false ((← rest).length + 2) mayEnd

/-- The first line of commands of a script and what follows it. There is none in a text without
commands. -/
def firstLine (source : Source) : Except Fault (Option Script × Source) := do
  let ((), source) ← allGaps.run source
  if source.chars.isEmpty then return (none, source)
  let (first, source) ← (list (nested 60) true (source.chars.length + 2) false).run source
  return (some first, source)

end Grammar

end Qalam.Command
