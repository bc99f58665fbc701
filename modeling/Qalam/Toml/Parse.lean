/-
# Reading documents

A document is read line by line: a header that opens a table, a key with its value, or nothing
but blanks and a comment. Values nest, to a limited depth. A fault anywhere makes the whole
document unreadable, and nothing more is said about it.
-/

import Qalam.Toml.Scalar

namespace Qalam.Toml

/-- A computation that consumes characters or fails. -/
abbrev Reader (α : Type) : Type := StateT (List Char) Option α

namespace Reader

/-- Fail. -/
def fail {α : Type} : Reader α := fun _ => none

/-- The next character, which stays where it is. -/
def peek : Reader (Option Char) := fun text => some (text.head?, text)

/-- Consume a character, which has to be the given one. -/
def char (c : Char) : Reader Unit := fun text =>
  match text with
  | d :: rest => if d = c then some ((), rest) else none
  | [] => none

/-- Consume a given stretch if it comes next, and tell whether it did. -/
def accept (stretch : List Char) : Reader Bool := fun text =>
  if stretch.isPrefixOf text then some (true, text.drop stretch.length) else some (false, text)

/-- Consume characters as long as they meet a test. -/
def takeWhile (test : Char → Bool) : Reader (List Char) := fun text =>
  some (text.takeWhile test, text.dropWhile test)

/-- The number of characters left, which bounds every loop. -/
def size : Reader Nat := fun text => some (text.length, text)

end Reader

open Reader

/-- Spaces and tabs. -/
def isSpace (c : Char) : Bool := c = ' ' || c = '\t'

/-- Skip spaces and tabs. -/
def spaces : Reader Unit := do
  let _ ← takeWhile isSpace

/-- Characters that may stand in a comment or, but for the quotes, in a string: everything but
control characters. -/
def isText (c : Char) : Bool := c = '\t' || (32 ≤ c.toNat && c.toNat ≠ 127)

/-- Consume a line end if it comes next, and tell whether it did. -/
def lineEnd : Reader Bool := do
  if ← accept ['\n'] then return true
  accept ['\r', '\n']

/-- Skip a comment, if there is one. -/
def comment : Reader Unit := do
  if ← accept ['#'] then
    let _ ← takeWhile isText

/-- The rest of a line after its content: blanks, a comment, and the line end or the end of the
document. -/
def lineRest : Reader Unit := do
  spaces
  comment
  if ← lineEnd then return
  if (← peek).isSome then fail

/-- Skip blanks, comments and line ends. -/
def gaps : Nat → Reader Unit
  | 0 => return
  | budget + 1 => do
    spaces
    comment
    if ← lineEnd then gaps budget

/-- The number written by a given number of hexadecimal digits. -/
def hexCode : Nat → Nat → Reader Nat
  | 0, value => return value
  | count + 1, value => do
    match ← peek with
    | some c =>
      match digitIn? 16 c with
      | some digit =>
        char c
        hexCode count (16 * value + digit)
      | none => fail
    | none => fail

/-- The character with a code point. -/
def charOfCode (code : Nat) : Reader Char :=
  if code < 0xD800 ∨ (0xDFFF < code ∧ code < 0x110000) then return Char.ofNat code else fail

/-- The character named by an escape, after the backslash. -/
def escape : Reader Char := do
  match ← peek with
  | some c =>
    char c
    match c with
    | 'b' => return '\x08'
    | 't' => return '\t'
    | 'n' => return '\n'
    | 'f' => return '\x0c'
    | 'r' => return '\r'
    | '"' => return '"'
    | '\\' => return '\\'
    | 'u' => charOfCode (← hexCode 4 0)
    | 'U' => charOfCode (← hexCode 8 0)
    | _ => fail
  | none => fail

/-- The characters of a string on one line, up to and including the closing quote. -/
def lineString (quote : Char) (escapes : Bool) : Nat → Reader (List Char)
  | 0 => fail
  | budget + 1 => do
    match ← peek with
    | none => fail
    | some c =>
      char c
      if c = quote then return []
      else if escapes && c = '\\' then
        let value ← escape
        let others ← lineString quote escapes budget
        return value :: others
      else if isText c then
        let others ← lineString quote escapes budget
        return c :: others
      else fail

/-- Skip spaces and line ends after a backslash at the end of a line. -/
def continuation : Nat → Reader Unit
  | 0 => return
  | budget + 1 => do
    spaces
    if ← lineEnd then continuation budget

/-- Whether a backslash is followed by nothing but blanks up to the line end. -/
def endsLine : Reader Bool := fun text =>
  let rest := text.dropWhile isSpace
  some (['\n'].isPrefixOf rest || ['\r', '\n'].isPrefixOf rest, text)

/-- The characters of a string over several lines, up to and including the closing quotes. Up
to two quotes may stand before the three that close it. -/
def blockString (quote : Char) (escapes : Bool) : Nat → Reader (List Char)
  | 0 => fail
  | budget + 1 => do
    if ← accept (List.replicate 5 quote) then return [quote, quote]
    if ← accept (List.replicate 4 quote) then return [quote]
    if ← accept (List.replicate 3 quote) then return []
    if ← lineEnd then
      let others ← blockString quote escapes budget
      return '\n' :: others
    match ← peek with
    | none => fail
    | some c =>
      char c
      if escapes && c = '\\' then
        if ← endsLine then
          continuation (← size)
          blockString quote escapes budget
        else
          let value ← escape
          let others ← blockString quote escapes budget
          return value :: others
      else if isText c then
        let others ← blockString quote escapes budget
        return c :: others
      else fail

/-- A string on one line, after its opening quote. -/
def plainString (quote : Char) : Reader String := do
  let text ← lineString quote (quote = '"') (← size)
  return String.ofList text

/-- A string of either kind. A line end right after three quotes is not part of it. -/
def anyString (quote : Char) : Reader String := do
  if ← accept (List.replicate 3 quote) then
    let _ ← lineEnd
    let text ← blockString quote (quote = '"') (← size)
    return String.ofList text
  else
    char quote
    plainString quote

/-- Characters of a key without quotes. -/
def isKeyChar (c : Char) : Bool := isLetter c || isDigit c || c = '_' || c = '-'

/-- One part of a key. -/
def keyPart : Reader String := do
  match ← peek with
  | some '"' =>
    char '"'
    plainString '"'
  | some '\x27' =>
    char '\x27'
    plainString '\x27'
  | _ =>
    let text ← takeWhile isKeyChar
    if text.isEmpty then fail
    return String.ofList text

/-- The parts of a key, with points between them. -/
def keyParts : Nat → Reader (List String)
  | 0 => fail
  | budget + 1 => do
    spaces
    let first ← keyPart
    spaces
    if ← accept ['.'] then
      let others ← keyParts budget
      return first :: others
    else
      return [first]

/-- How deep values may nest, and the number that the parts of a key stay below. -/
def maxDepth : Nat := 80

/-- A key: the way to it and its last part. Each part opens a table, so a key with too many of
them nests too deep. -/
def key : Reader (List String × String) := do
  let parts ← keyParts (← size)
  if maxDepth ≤ parts.length then fail
  match parts.getLast? with
  | some last => return (parts.dropLast, last)
  | none => fail

/-- Characters of plain values. -/
def isScalarChar (c : Char) : Bool :=
  isLetter c || isDigit c || c = '+' || c = '-' || c = '_' || c = '.' || c = ':'

/-- A plain value. A date may have a single space before its time of day. -/
def scalar : Reader Value := do
  let text ← takeWhile isScalarChar
  let attempt : Reader (Option Value) := fun rest =>
    match rest with
    | ' ' :: time =>
      let whole := text ++ ' ' :: time.takeWhile isScalarChar
      if isDay text && isDate whole then
        some (some (.date (dateText whole)), time.dropWhile isScalarChar)
      else some (none, rest)
    | _ => some (none, rest)
  match ← attempt with
  | some value => return value
  | none =>
    match scalar? text with
    | some value => return value
    | none => fail

/-- The items of an array, after its opening bracket. -/
def items (item : Reader Value) : Nat → Reader (List Value)
  | 0 => fail
  | budget + 1 => do
    gaps (← size)
    if ← accept [']'] then return []
    let first ← item
    gaps (← size)
    if ← accept [','] then
      let others ← items item budget
      return first :: others
    else
      char ']'
      return [first]

/-- The entries of an inline table, the first of which is to come. -/
def inlineEntries (item : Reader Value) : Nat → Table → Reader Table
  | 0, _ => fail
  | budget + 1, table => do
    let (path, last) ← key
    char '='
    spaces
    let value ← item
    spaces
    match table.define value path last with
    | none => fail
    | some table =>
      if ← accept [','] then inlineEntries item budget table
      else
        char '\x7d'
        return table

/-- A value. The depth bounds the nesting of arrays and inline tables. -/
def value : Nat → Reader Value
  | 0 => fail
  | depth + 1 => do
    match ← peek with
    | some '"' => .string <$> anyString '"'
    | some '\x27' => .string <$> anyString '\x27'
    | some '[' =>
      if depth = 0 then fail
      char '['
      .array <$> items (value depth) (← size)
    | some '\x7b' =>
      if depth = 0 then fail
      char '\x7b'
      spaces
      if ← accept ['\x7d'] then return .table .inline []
      .table .inline <$> inlineEntries (value depth) (← size) []
    | _ => scalar

/-- A document that has been read so far: its root and the path of the open table. -/
structure Draft where
  root : Table
  path : List String

/-- Read the header of a table or of an element of an array of tables. -/
def header (draft : Draft) : Reader Draft := do
  let element ← accept ['[', '[']
  if !element then char '['
  let (path, last) ← key
  char ']'
  if element then char ']'
  lineRest
  let change := if element then Table.openElement last else Table.openTable last
  match draft.root.alongHeader change path with
  | some root => return ⟨root, path ++ [last]⟩
  | none => fail

/-- Read a key with its value. -/
def definition (draft : Draft) : Reader Draft := do
  let (path, last) ← key
  char '='
  spaces
  let value ← value maxDepth
  lineRest
  match draft.root.alongHeader (Table.define value path last) draft.path with
  | some root => return { draft with root }
  | none => fail

/-- Read the lines of a document. -/
def lines : Nat → Draft → Reader Draft
  | 0, draft => return draft
  | budget + 1, draft => do
    spaces
    match ← peek with
    | none => return draft
    | some '[' =>
      let draft ← header draft
      lines budget draft
    | some c =>
      if c = '#' || c = '\n' || c = '\r' then
        lineRest
        lines budget draft
      else
        let draft ← definition draft
        lines budget draft

/-- The table of a document. A byte order mark in front of it is skipped. -/
def parse? (text : String) : Option Table := do
  let chars := match text.toList with
    | '\uFEFF' :: rest => rest
    | chars => chars
  let (draft, rest) ← (lines (chars.length + 1) ⟨[], []⟩).run chars
  if rest.isEmpty then return draft.root else none

end Qalam.Toml
