/-
# Expansion of words

Before a command runs, its words are expanded: parameters give way to their values, scripts to
their output, and expressions to their numbers. What an expansion has inserted without quotes is
then cut into fields at blanks, and fields give way to the paths that they match.
-/

import Qalam.Command.Arithmetic
import Qalam.Command.Level

namespace Qalam.Command

namespace Expansion

/-- All parameters. In quotes each one is a field of its own, or they are joined into one. -/
def params (name : String) (quoted : Bool) : Running (List Glyph) := do
  let shell ← get
  let separated (params : List (List Glyph)) : List Glyph :=
    (params.intersperse [.cut]).flatten
  if !quoted then return separated (shell.params.map (Glyph.ofText false))
  else if name = "*" then
    let divider := (shell.dividers.take 1).map (.char · true true)
    return ((shell.params.map (Glyph.ofText true)).intersperse divider).flatten
  else if shell.params.isEmpty then return [.absence]
  else return separated (shell.params.map fun param => .mark :: Glyph.ofText true param)

/-- Whether a name stands for all parameters. -/
def isAll (name : String) : Bool := name = "@" || name = "*"

/-- The value of a parameter as text, if it has one. -/
def value? (shell : Shell) (name : String) : Option String :=
  if isAll name then
    if shell.params.isEmpty then none else some (" ".intercalate shell.params)
  else shell.value? name

/-- The value of a parameter, which has to have one in a demanding shell. -/
def plain (name : String) (quoted : Bool) : Running (List Glyph) := do
  if isAll name then params name quoted
  else
    let shell ← get
    match shell.value? name with
    | some value => return Glyph.ofText quoted value
    | none =>
      if shell.switches.isDemanding then set (shell.abort (name ++ ": parameter not set"))
      return []

/-- The length of the value of a parameter. -/
def length (name : String) : Running String := do
  let shell ← get
  if isAll name then return toString (" ".intercalate shell.params).length
  else match shell.value? name with
    | some value => return toString value.length
    | none =>
      if shell.switches.isDemanding then set (shell.abort (name ++ ": parameter not set"))
      return "0"

/-- A word that takes the place of a value. -/
def replacement (level : Level) (quoted : Bool) (word : Word) : Running (List Glyph) := do
  let glyphs ← level.expand word
  let glyphs := glyphs.map Glyph.insert
  if quoted then return glyphs.filter (· ≠ .mark) else return glyphs

/-- The value of a parameter in some form. -/
def parameter (level : Level) (name : String) (form : Form) (quoted : Bool) :
    Running (List Glyph) := do
  let value := value? (← get) name
  let isMissing (emptyToo : Bool) : Bool := value.isNone || (emptyToo && value = some "")
  match form with
  | .plain => plain name quoted
  | .senseless =>
    modify fun shell => shell.abort "Bad substitution"
    return []
  | .length => return Glyph.ofText quoted (← length name)
  | .fallback emptyToo word =>
    if isMissing emptyToo then replacement level quoted word else plain name quoted
  | .replace emptyToo word =>
    if isMissing emptyToo then return [] else replacement level quoted word
  | .assign emptyToo word =>
    if isMissing emptyToo then
      let text := Glyph.text (← level.expand word)
      modify fun shell => shell.assign name text
      return Glyph.ofText quoted text
    else plain name quoted
  | .demand emptyToo word =>
    if isMissing emptyToo then
      let text := Glyph.text (← level.expand word)
      let reason :=
        if !text.isEmpty then text
        else if emptyToo then "parameter not set or null"
        else "parameter not set"
      modify fun shell => shell.abort (name ++ ": " ++ reason)
      return []
    else plain name quoted
  | .strip front longest word =>
    let pattern := Glyph.pattern (← level.expand word)
    match value with
    | some value =>
      return Glyph.ofText quoted (String.ofList (pattern.strip front longest value.toList))
    | none => plain name quoted

/-- The output of a script, without the line ends behind it. -/
def output (level : Level) (script : Script) : Running String := do
  let shell ← get
  let after := level.conclude (level.run script { shell.collecting with captured := none })
  let resumed := shell.resume { after with captures := after.captures.tail }
  set ({ resumed with
    status := shell.status
    captured := some after.status
    milliseconds := after.completed } : Shell)
  let visible := after.output.filter (· ≠ '\x00')
  return String.ofList (visible.reverse.dropWhile (· = '\n')).reverse

/-- The number of an expression. -/
def sum (level : Level) (expression : Word) : Running String := do
  let text := Glyph.text (← level.expand expression)
  let shell ← get
  let lookup (name : String) : String := (shell.get? name).getD ""
  match (Sum.parse text.toList).bind fun expression => expression.value lookup [] with
  | .ok (value, changes) =>
    set (changes.foldr (fun (name, value) shell => shell.assign name (toString value)) shell)
    return toString value
  | .error fault =>
    set (shell.abort (fault.text text))
    return ""

/-- What a piece of a word expands to. Nothing is expanded behind an error. -/
def piece (level : Level) (piece : Piece) : Running (List Glyph) := do
  if (← get).flow ≠ .next then return []
  match piece with
  | .char c quoted => return [.char c quoted false]
  | .quotes => return [.mark]
  | .parameter name form quoted => parameter level name form quoted
  | .output script quoted => return Glyph.ofText quoted (← output level script)
  | .sum expression quoted => return Glyph.ofText quoted (← sum level expression)

/-- Put the home directory in the place of a tilde at the beginning of a path. In the value of a
variable, a path can also begin behind a colon. The flag tells whether one could begin here. -/
def home (isValue : Bool) : Bool → Word → Word
  | _, [] => []
  | begins, first :: rest =>
    match first with
    | .char c false =>
      let isWhole : Bool := match rest with
        | [] => true
        | .char d false :: _ => d = '/' || (isValue && d = ':')
        | _ => false
      let first := if begins && c = '~' && isWhole then .parameter "HOME" .plain true else first
      first :: home isValue (isValue && c = ':') rest
    | first => first :: home isValue false rest

/-- What a word expands to. -/
def word (level : Level) (word : Word) : Running (List Glyph) := do
  return (← (home false true word).mapM (piece level)).flatten

/-- The text of a word that is not cut into fields. -/
def text (level : Level) (value : Word) : Running String := do
  return Glyph.text (← word level value)

/-- The text of the value of a variable. -/
def value (level : Level) (value : Word) : Running String := do
  return Glyph.text (← (home true true value).mapM (piece level)).flatten

/-- The fields of a word. -/
def wordFields (level : Level) (value : Word) : Running (List String) := do
  let glyphs ← word level value
  let shell ← get
  let fields := Fields.ofGlyphs shell.dividers glyphs
  if shell.switches.isLiteral then return fields.map Field.text
  else return fields.flatMap (Field.expand shell.files)

/-- The fields of words. -/
def fields (level : Level) (words : List Word) : Running (List String) := do
  return (← words.mapM (wordFields level)).flatten

/-- Commands whose arguments can give values to variables. -/
def assigners : List String := ["alias", "export", "local", "readonly"]

/-- The fields of a command. Where a command gives values to variables, they are not cut. -/
def commandFields (level : Level) (words : List Word) : Running (List String) :=
  let add (fields : List String) (next : Word) : Running (List String) := do
    match (fields.dropWhile (· = "command")).head?, Grammar.setting? next with
    | some command, some (name, setting) =>
      if assigners.contains command then
        return fields ++ [name ++ "=" ++ (← value level setting)]
      else return fields ++ (← wordFields level next)
    | _, _ => return fields ++ (← wordFields level next)
  words.foldlM add []

end Expansion

end Qalam.Command
