/-
# Positions in a source text

A position is a line and a column, both counted from one. Columns count characters, and
only a line feed begins a new line, so a position is determined by the text before it.
-/

namespace Qalam

/-- A line and a column, both counted from one. -/
structure Position where
  line : Nat
  column : Nat
  deriving DecidableEq, Inhabited

namespace Position

/-- The position of the first character of a text. -/
def start : Position := ⟨1, 1⟩

/-- The position after one more character. -/
def step (pos : Position) (c : Char) : Position :=
  if c = '\n' then ⟨pos.line + 1, 1⟩ else ⟨pos.line, pos.column + 1⟩

/-- The position after a stretch of text. -/
def advance (pos : Position) (text : List Char) : Position :=
  text.foldl step pos

/-- Reading a stretch in two parts or at once leads to the same position. -/
theorem advance_append (pos : Position) (first second : List Char) :
    pos.advance (first ++ second) = (pos.advance first).advance second :=
  List.foldl_append

/-- The written form: line and column with a colon between them. -/
def text (pos : Position) : String :=
  s!"{pos.line}:{pos.column}"

end Position

end Qalam
