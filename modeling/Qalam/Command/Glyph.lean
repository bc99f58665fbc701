/-
# Expanded words

An expanded word is a sequence of glyphs: characters that remember whether they were quoted and
whether an expansion has inserted them, and marks between them. It is used as a text, as a
pattern, or cut into fields. A field with unquoted signs of patterns in it stands for the paths
that it matches, if there are any.
-/

import Qalam.Command.Pattern
import Qalam.Files

namespace Qalam.Command

/-- What an expanded word is made of. A mark makes a field even without characters, a cut ends a
field, and an absence takes back a mark. -/
inductive Glyph
  | char (c : Char) (quoted inserted : Bool)
  | mark
  | cut
  | absence
  deriving DecidableEq

namespace Glyph

/-- The characters of an inserted text. -/
def ofText (quoted : Bool) (text : String) : List Glyph :=
  text.toList.map (.char · quoted true)

/-- Characters as an expansion inserts them. -/
def insert : Glyph → Glyph
  | .char c quoted _ => .char c quoted true
  | glyph => glyph

/-- The text of an expanded word that is not cut into fields. -/
def text (glyphs : List Glyph) : String :=
  String.ofList (glyphs.filterMap fun
    | .char c _ _ => some c
    | .cut => some ' '
    | _ => none)

/-- The pattern of an expanded word. -/
def pattern (glyphs : List Glyph) : Pattern :=
  .ofChars (glyphs.filterMap fun
    | .char c quoted _ => some (c, quoted)
    | _ => none)

end Glyph

/-- A field: characters that say whether they are quoted. -/
abbrev Field : Type := List (Char × Bool)

/-- The fields that have been found: those that are complete, the latest one first, the one that
has begun, and whether blanks have just ended one. -/
structure Fields where
  done : List Field
  current : Option Field
  afterBlank : Bool

namespace Fields

/-- End the field that has begun, if any. -/
def close (fields : Fields) (afterBlank : Bool) : Fields :=
  match fields.current with
  | some field => ⟨field.reverse :: fields.done, none, afterBlank⟩
  | none => { fields with afterBlank := fields.afterBlank && afterBlank }

/-- Add a character to the current field. -/
def push (fields : Fields) (c : Char) (quoted : Bool) : Fields :=
  { fields with current := some ((c, quoted) :: fields.current.getD []), afterBlank := false }

/-- Take over a glyph. Blanks end a field; any other divider also makes an empty field where none
has begun, unless only blanks stand between it and the field before. -/
def step (dividers : List Char) (fields : Fields) : Glyph → Fields
  | .mark => { fields with current := some (fields.current.getD []) }
  | .absence => if fields.current = some [] then { fields with current := none } else fields
  | .cut => fields.close false
  | .char c quoted inserted =>
    if inserted && !quoted && dividers.contains c then
      if isSpace c then fields.close true
      else if fields.current.isSome then fields.close false
      else if fields.afterBlank then { fields with afterBlank := false }
      else { fields with done := [] :: fields.done }
    else fields.push c quoted

/-- Cut an expanded word into fields. -/
def ofGlyphs (dividers : List Char) (glyphs : List Glyph) : List Field :=
  let fields := glyphs.foldl (step dividers) ⟨[], none, false⟩
  (fields.close false).done.reverse

end Fields

namespace Field

/-- The text of a field. -/
def text (field : Field) : String := String.ofList (field.map Prod.fst)

/-- Whether a field could stand for several paths. -/
def isPattern (field : Field) : Bool :=
  field.any fun (c, quoted) => !quoted && (c = '*' || c = '?' || c = '[')

/-- The parts of a field between slashes. -/
def parts (field : Field) : List Field :=
  let add (entry : Char × Bool) (parts : List Field) : List Field :=
    match parts with
    | part :: others => if entry.1 = '/' then [] :: part :: others else (entry :: part) :: others
    | [] => [[entry]]
  field.foldr add [[]]

/-- The names at a place that a part matches. A dot in front has to be written out. -/
def candidates (files : Files) (place : List String) (part : Field) : List String :=
  let startsWithDot (name : String) : Bool := name.toList.head? = some '.'
  let dotted := part.head?.map Prod.fst = some '.'
  let names := (files.names place).map seen ++ (if dotted then [".", ".."] else [])
  let pattern := Pattern.ofChars part
  names.filter fun name => (dotted || !startsWithDot name) && pattern.isMatch name.toList

/-- The place that a name leads to from another one. -/
def enter (place : List String) (name : String) : List String :=
  if name = "" || name = "." then place
  else if name = ".." then place.dropLast
  else place ++ [spelled name]

/-- The paths that parts match from a place on. The text is what stands in front of them. -/
def paths (files : Files) : List Field → String → List String → List String
  | [], _, _ => []
  | part :: others, front, place =>
    let names := if isPattern part then candidates files place part else [text part]
    if others.isEmpty then
      let found := names.filter fun name => (files.get? (enter place name)).isSome
      found.map (front ++ ·)
    else names.flatMap fun name => paths files others (front ++ name ++ "/") (enter place name)

/-- The texts that a field stands for. Paths are ordered by their octets. -/
def expand (files : Files) (field : Field) : List String :=
  if !isPattern field then [text field]
  else
    let isAbsolute := field.head?.map Prod.fst = some '/'
    let found :=
      if isAbsolute then paths files (parts field).tail "/" []
      else paths files (parts field) "" files.workingDirectory
    if found.isEmpty then [text field] else found.mergeSort fun a b => a < b || a = b

end Field

end Qalam.Command
