/-
# The margins of generated text

The lines of a generated text can be told by their text alone: how many braces are open at a line,
where the line that closes a block counts as outside of it, and how many cases of switches it
stands in. The body of a case goes from its label to the next label of the same switch or to the
end of the switch. Every line of a program that was read stands to the right by just as many levels
as there are open braces and bodies of cases around it.

No line has a line feed in it, so the lines are found again by splitting the text, and all brackets
of the text are properly nested.
-/

import Qalam.Compiler
import Qalam.Proofs.Printing.Brackets
import Qalam.Proofs.Structure.Branches

namespace Qalam.Margins

open Brackets
open JavaScript (Margin)

/-! ## Lines by their text -/

/-- The number of spaces at the beginning of a line. -/
def indentation (line : String) : Nat := (line.toList.takeWhile (· = ' ')).length

/-- A line without the spaces at its beginning. -/
def content (line : String) : List Char := line.toList.dropWhile (· = ' ')

/-- Whether a line begins with a closing brace. -/
def closesBlock (line : String) : Bool := (content line).head? = some '\x7d'

/-- Whether a line is a label of a switch. -/
def isLabel (line : String) : Bool :=
  ("case ".toList.isPrefixOf (content line) || "default".toList.isPrefixOf (content line)) &&
    (content line).getLast? = some ':'

/-- How many braces are open at a line, and whether it is a label. -/
structure Row where
  depth : Nat
  label : Bool
  deriving DecidableEq

/-- Whether the body of a label goes on at a row behind it: the switch is still open, and the row
is not its next label. -/
def Row.holds (label row : Row) : Bool :=
  label.depth < row.depth || (label.depth = row.depth && !row.label)

/-- What is open between two lines: brackets, and bodies of labels, the innermost ones first. -/
structure Gauge where
  opened : List Bracket
  bodies : List Row

namespace Gauge

/-- What is open before the first line. -/
def start : Gauge := ⟨[], []⟩

/-- The braces that are open at a line. A line that begins with a closing brace has closed it. -/
def braces (gauge : Gauge) (line : String) : Nat :=
  gauge.opened.count .curly - if closesBlock line then 1 else 0

/-- The next line as a row. -/
def row (gauge : Gauge) (line : String) : Row := ⟨gauge.braces line, isLabel line⟩

/-- The labels in whose bodies the next line stands. -/
def enclosing (gauge : Gauge) (line : String) : List Row :=
  gauge.bodies.filter (·.holds (gauge.row line))

/-- What is open behind the next line. -/
def next? (gauge : Gauge) (line : String) : Option Gauge :=
  match readAll ⟨.code, gauge.opened⟩ line.toList with
  | some ⟨.code, opened⟩ =>
    some ⟨opened, (if isLabel line then [gauge.row line] else []) ++ gauge.enclosing line⟩
  | _ => none

/-- What is open behind some lines. -/
def after? (lines : List String) : Option Gauge := lines.foldlM next? start

/-- Only blocks and bodies of labels are open. -/
def within (depth : Nat) (bodies : List Row) : Gauge := ⟨List.replicate depth .curly, bodies⟩

end Gauge

/-- The lines of a text, which end at line feeds. An empty text has none. -/
def linesOf (text : String) : List String :=
  if text = "" then [] else (text.toList.splitOn '\n').map String.ofList

/-- Lines that stand as far to the right as they are deep, and what is open before and behind
them. -/
inductive Laid (width : Nat) : List String → Gauge → Gauge → Prop
  | nil {gauge : Gauge} : Laid width [] gauge gauge
  | cons {line : String} {lines : List String} {gauge next last : Gauge} :
      line ≠ "" → '\n' ∉ line.toList → gauge.next? line = some next →
      indentation line = width * (gauge.braces line + (gauge.enclosing line).length) →
      Laid width lines next last → Laid width (line :: lines) gauge last

namespace Laid

variable {width : Nat} {lines others : List String} {gauge middle last : Gauge}

theorem append (here : Laid width lines gauge middle) (there : Laid width others middle last) :
    Laid width (lines ++ others) gauge last := by
  induction here with
  | nil => exact there
  | cons filled unbroken goes stands _ ih => exact .cons filled unbroken goes stands (ih there)

theorem unbroken (laid : Laid width lines gauge last) : ∀ line ∈ lines, '\n' ∉ line.toList := by
  induction laid with
  | nil => simp
  | cons _ unbroken _ _ _ ih => exact List.forall_mem_cons.mpr ⟨unbroken, ih⟩

/-- The lines are found again in their text. -/
theorem linesOf_intercalate (laid : Laid width lines gauge last) :
    linesOf ("\n".intercalate lines) = lines := by
  have unbroken : ∀ chars ∈ lines.map String.toList, '\n' ∉ chars := by
    rw [List.forall_mem_map]
    exact laid.unbroken
  cases laid with
  | nil => rfl
  | @cons line lines _ _ _ filled _ _ _ rest =>
      have filled' : "\n".intercalate (line :: lines) ≠ "" := by
        cases lines with
        | nil => simpa using filled
        | cons second lines =>
            rw [String.intercalate_cons_cons]
            simp [filled]
      rw [linesOf, if_neg filled', String.toList_intercalate]
      change (List.splitOn '\n' (['\n'].intercalate _)).map String.ofList = _
      rw [List.splitOn_intercalate '\n' unbroken (by simp)]
      simp [Function.comp_def]

/-- Every line has its margin. -/
theorem indentation (laid : Laid width lines gauge last) {before later : List String}
    {line : String} (split : lines = before ++ line :: later) :
    ∃ reached, before.foldlM Gauge.next? gauge = some reached ∧
      Margins.indentation line =
        width * (reached.braces line + (reached.enclosing line).length) := by
  induction laid generalizing before with
  | nil => simp at split
  | @cons first lines gauge next last _ _ goes stands _ ih =>
      cases before with
      | nil =>
          cases split
          exact ⟨gauge, rfl, stands⟩
      | cons first' before =>
          cases split
          obtain ⟨reached, found, margin⟩ := ih rfl
          refine ⟨reached, ?_, margin⟩
          rw [List.foldlM_cons, goes]
          exact found

/-- Reading the lines one after the other is reading the text of them all. -/
theorem reads (laid : Laid width lines gauge last) :
    readAll ⟨.code, gauge.opened⟩ ("\n".intercalate lines).toList = some ⟨.code, last.opened⟩ := by
  induction laid with
  | nil => rfl
  | @cons line lines gauge next last _ _ goes _ rest ih =>
      have here : readAll ⟨.code, gauge.opened⟩ line.toList = some ⟨.code, next.opened⟩ := by
        unfold Gauge.next? at goes
        split at goes
        · rename_i found
          cases goes
          exact found
        · cases goes
      cases rest with
      | nil => simpa using here
      | cons =>
          rw [String.intercalate_cons_cons, String.toList_append, String.toList_append,
            readAll_append, readAll_append, here]
          exact ih

end Laid

/-! ## One line -/

/-- A text that leads from some open brackets to others and does not end its line. -/
structure Piece (text : String) (before after : List Bracket) : Prop where
  reads : readAll ⟨.code, before⟩ text.toList = some ⟨.code, after⟩
  unbroken : '\n' ∉ text.toList

theorem Piece.append {first second : String} {before middle after : List Bracket}
    (here : Piece first before middle) (there : Piece second middle after) :
    Piece (first ++ second) before after where
  reads := by
    rw [String.toList_append, readAll_append, here.reads]
    exact there.reads
  unbroken := by
    rw [String.toList_append, List.mem_append, not_or]
    exact ⟨here.unbroken, there.unbroken⟩

/-- A text that closes its own brackets, between any others. -/
theorem piece_of_inline {text : String} (inline : Inline text) (opened : List Bracket) :
    Piece text opened opened := ⟨inline.neutral opened, inline.unbroken⟩

section

variable (margin : Margin) {text : String} {c : Char} {rest : List Char}

theorem toList_line : (margin.line text).toList =
    List.replicate (margin.width * margin.level) ' ' ++ text.toList := by
  simp [Margin.line]

theorem indentation_line (spelled : text.toList = c :: rest) (first : c ≠ ' ') :
    indentation (margin.line text) = margin.width * margin.level := by
  rw [indentation, toList_line, spelled]
  simp [first]

theorem content_line (spelled : text.toList = c :: rest) (first : c ≠ ' ') :
    content (margin.line text) = text.toList := by
  rw [content, toList_line, spelled]
  simp [first]

theorem Piece.line {before after : List Bracket} (piece : Piece text before after) :
    Piece (margin.line text) before after := by
  have spaces : Inline (String.ofList (List.replicate (margin.width * margin.level) ' ')) := by
    refine .of_not_special fun c mem => ?_
    rw [String.toList_ofList] at mem
    rw [List.eq_of_mem_replicate mem]
    decide
  exact (piece_of_inline spaces before).append piece

end

theorem filter_bodies {finished bodies : List Row} {row : Row}
    (ended : ∀ label ∈ finished, label.holds row = false)
    (goesOn : ∀ label ∈ bodies, label.holds row = true) :
    (finished ++ bodies).filter (·.holds row) = bodies := by
  rw [List.filter_append, List.filter_eq_self.mpr goesOn,
    List.filter_eq_nil_iff.mpr fun label mem => by simp [ended label mem], List.nil_append]

/-- A single line, if the bodies around it are known. -/
theorem Laid.line (margin : Margin) {text : String} {c : Char} {rest : List Char}
    {before after : List Bracket} {finished bodies : List Row} {row : Row}
    (piece : Piece text before after) (spelled : text.toList = c :: rest) (first : c ≠ ' ')
    (depth : row.depth = before.count .curly - if c = '\x7d' then 1 else 0)
    (label : row.label = isLabel (margin.line text))
    (ended : ∀ label ∈ finished, label.holds row = false)
    (goesOn : ∀ label ∈ bodies, label.holds row = true)
    (level : margin.level = row.depth + bodies.length) :
    Laid margin.width [margin.line text] ⟨before, finished ++ bodies⟩
      ⟨after, (if row.label then [row] else []) ++ bodies⟩ := by
  -- Behind its margin the line begins with the text, which tells its depth and its label.
  have same : Gauge.row ⟨before, finished ++ bodies⟩ (margin.line text) = row := by
    have braces : Gauge.braces ⟨before, finished ++ bodies⟩ (margin.line text) = row.depth := by
      simp [Gauge.braces, closesBlock, content_line margin spelled first, spelled, depth]
    rw [Gauge.row, braces, ← label]
  have around : Gauge.enclosing ⟨before, finished ++ bodies⟩ (margin.line text) = bodies := by
    rw [Gauge.enclosing, same]
    exact filter_bodies ended goesOn
  have lined := piece.line margin
  have filled : margin.line text ≠ "" := by
    intro empty
    have none := congrArg String.toList empty
    simp [toList_line, spelled] at none
  refine .cons filled lined.unbroken ?_ ?_ .nil
  · simp [Gauge.next?, lined.reads, same, around, label]
  · have braces : Gauge.braces ⟨before, finished ++ bodies⟩ (margin.line text) = row.depth :=
      congrArg Row.depth same
    rw [indentation_line margin spelled first, around, braces, level]

/-- A line that ends otherwise is no label. -/
theorem isLabel_of_getLast? (margin : Margin) {text : String} {c last : Char} {rest : List Char}
    (spelled : text.toList = c :: rest) (first : c ≠ ' ') (ends : text.toList.getLast? = some last)
    (other : last ≠ ':') : isLabel (margin.line text) = false := by
  rw [isLabel, content_line margin spelled first, ends]
  simp [other]

/-- A margin that fits to the depth and to the bodies of labels around a place, of which none
belongs to a switch further inside. -/
structure Stands (margin : Margin) (depth : Nat) (bodies : List Row) : Prop where
  level : margin.level = depth + bodies.length
  settled : ∀ label ∈ bodies, label.depth ≤ depth

namespace Stands

variable {margin : Margin} {depth : Nat} {bodies : List Row}

theorem deeper (stands : Stands margin depth bodies) : Stands margin.deeper (depth + 1) bodies where
  level := by
    change margin.level + 1 = depth + 1 + bodies.length
    rw [stands.level, Nat.add_right_comm]
  settled label mem := Nat.le_succ_of_le (stands.settled label mem)

/-- In the body of a label. -/
theorem inBody (stands : Stands margin depth bodies) :
    Stands margin.deeper.deeper (depth + 1) (⟨depth + 1, true⟩ :: bodies) where
  level := by
    change margin.deeper.level + 1 = depth + 1 + (bodies.length + 1)
    rw [stands.deeper.level]
    rfl
  settled := List.forall_mem_cons.mpr ⟨Nat.le_refl _, stands.deeper.settled⟩

/-- The bodies around a place go on at a line without a label. -/
theorem goesOn (stands : Stands margin depth bodies) :
    ∀ label ∈ bodies, label.holds ⟨depth, false⟩ = true := by
  intro label mem
  have settled := stands.settled label mem
  simp only [Row.holds, Bool.not_false, Bool.and_true, Bool.or_eq_true, decide_eq_true_eq]
  omega

end Stands

/-- A line that opens a block. -/
structure Header (text : String) : Prop where
  piece : ∀ opened, Piece text opened (.curly :: opened)
  begins : Begins text
  ends : text.toList.getLast? = some '\x7b'

/-- A line that closes a block and opens another. -/
structure Turn (text : String) : Prop where
  piece : ∀ opened, Piece text (.curly :: opened) (.curly :: opened)
  begins : ∃ rest, text.toList = '\x7d' :: rest
  ends : text.toList.getLast? = some '\x7b'

theorem getLast?_append {first second : String} {c : Char}
    (ends : second.toList.getLast? = some c) : (first ++ second).toList.getLast? = some c := by
  rw [String.toList_append, List.getLast?_append, ends]
  rfl

theorem Header.named {front : String} (fragment : Fragment front) : Header (front ++ " \x7b") where
  piece opened := (piece_of_inline fragment.toInline opened).append ⟨rfl, by decide⟩
  begins := fragment.begins.append _
  ends := getLast?_append rfl

namespace Laid

variable {margin : Margin} {depth : Nat} {bodies : List Row} {text : String}

/-- A line that opens and closes nothing. -/
theorem plain (stands : Stands margin depth bodies) (fragment : Fragment text)
    (ends : text.toList.getLast? = some ';') :
    Laid margin.width [margin.line text] (.within depth bodies) (.within depth bodies) := by
  obtain ⟨c, rest, spelled, first, other⟩ := fragment.begins
  refine @Laid.line margin _ _ _ _ _ [] bodies ⟨depth, false⟩ (piece_of_inline fragment.toInline _)
    spelled first (by simp [other]) ?_ (by simp) stands.goesOn stands.level
  exact (isLabel_of_getLast? margin spelled first ends (by decide)).symm

theorem opening (stands : Stands margin depth bodies) (header : Header text) :
    Laid margin.width [margin.line text] (.within depth bodies) (.within (depth + 1) bodies) := by
  obtain ⟨c, rest, spelled, first, other⟩ := header.begins
  refine @Laid.line margin _ _ _ _ _ [] bodies ⟨depth, false⟩ (header.piece _) spelled first
    (by simp [other]) ?_ (by simp) stands.goesOn stands.level
  exact (isLabel_of_getLast? margin spelled first header.ends (by decide)).symm

theorem turning (stands : Stands margin depth bodies) (turn : Turn text) :
    Laid margin.width [margin.line text] (.within (depth + 1) bodies)
      (.within (depth + 1) bodies) := by
  obtain ⟨rest, spelled⟩ := turn.begins
  refine @Laid.line margin _ _ _ _ _ [] bodies ⟨depth, false⟩ (turn.piece _) spelled (by decide)
    (by simp) ?_ (by simp) stands.goesOn stands.level
  exact (isLabel_of_getLast? margin spelled (by decide) turn.ends (by decide)).symm

/-- The end of a block is the end of the labels inside it. -/
theorem closing (stands : Stands margin depth bodies) {finished : List Row}
    (inside : ∀ label ∈ finished, depth < label.depth) :
    Laid margin.width [margin.line "\x7d"] (.within (depth + 1) (finished ++ bodies))
      (.within depth bodies) := by
  have piece : Piece "\x7d" (.curly :: List.replicate depth .curly)
      (List.replicate depth .curly) := ⟨rfl, by decide⟩
  have spelled : "\x7d".toList = ['\x7d'] := rfl
  -- The line counts as outside of the block, where the labels inside it do not go on.
  refine @Laid.line margin _ _ _ _ _ finished bodies ⟨depth, false⟩ piece spelled (by decide)
    (by simp) ?_ ?_ stands.goesOn stands.level
  · exact (isLabel_of_getLast? margin spelled (by decide) rfl (by decide)).symm
  · intro label mem
    have deeper := inside label mem
    simp only [Row.holds, Bool.not_false, Bool.and_true, Bool.or_eq_false_iff,
      decide_eq_false_iff_not]
    omega

theorem closed (stands : Stands margin depth bodies) :
    Laid margin.width [margin.line "\x7d"] (.within (depth + 1) bodies) (.within depth bodies) :=
  @closing margin depth bodies stands [] (by simp)

/-- A label ends the body of the label before it, if there is one. -/
theorem label (stands : Stands margin depth bodies) {finished : List Row}
    (before : ∀ label ∈ finished, label = ⟨depth + 1, true⟩) (fragment : Fragment text)
    (isLabel : isLabel (margin.deeper.line text) = true) :
    Laid margin.width [margin.deeper.line text] (.within (depth + 1) (finished ++ bodies))
      (.within (depth + 1) (⟨depth + 1, true⟩ :: bodies)) := by
  obtain ⟨c, rest, spelled, first, other⟩ := fragment.begins
  refine @Laid.line margin.deeper _ _ _ _ _ finished bodies ⟨depth + 1, true⟩
    (piece_of_inline fragment.toInline _) spelled first (by simp [other]) isLabel.symm ?_ ?_
    stands.deeper.level
  · intro label mem
    rw [before label mem]
    simp [Row.holds]
  · intro label mem
    have settled := stands.settled label mem
    simp only [Row.holds, Bool.or_eq_true, decide_eq_true_eq]
    omega

/-- A block with the lines that open and close it. -/
theorem block (stands : Stands margin depth bodies) (header : Header text) {lines : List String}
    (inside : Laid margin.width lines (.within (depth + 1) bodies) (.within (depth + 1) bodies)) :
    Laid margin.width (margin.line text :: lines ++ [margin.line "\x7d"]) (.within depth bodies)
      (.within depth bodies) :=
  ((opening stands header).append inside).append (closed stands)

end Laid

end Qalam.Margins
