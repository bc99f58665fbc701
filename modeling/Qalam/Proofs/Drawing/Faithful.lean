/-
# Drawings tell programs

A program that was read is told by its drawing, except for the places of its parts. The lines of the
drawing are told by the text, the outlines of the statements by the lines, and the statements by
their outlines.
-/

import Qalam.Proofs.Drawing.Lines
import Qalam.Proofs.Drawing.Statements
import Qalam.Proofs.Layout.Drawing
import Qalam.Proofs.Respelling.Program

namespace Qalam

open Relabel

/-! ## The lines of a drawing -/

theorem Program.drawing_eq_text (program : Program) : program.drawing =
    Outline.text ("Program" :: Outline.rowsAll (Drawing.statements none program.statements)) := by
  rw [Program.drawing, Drawing.program, Outline.drawAll_eq_text, Outline.text_cons]
  simp

/-- The names of a program that was read have no line feeds in them. -/
theorem unbroken_of_parseSource {source : String} {program : Program}
    (parsed : parseSource source = .ok program) : ∀ node ∈ program.nodes, node.Unbroken := by
  intro node mem name named lineFeed
  have spelled := isName_of_mem_names parsed name (program.namedIn_names node mem name named)
  have letter := spelled.continues _ lineFeed
  revert letter
  decide

theorem rows_of_parseSource {source : String} {program : Program}
    (parsed : parseSource source = .ok program) :
    ∀ line ∈ "Program" :: Outline.rowsAll (Drawing.statements none program.statements),
      '\n' ∉ line.toList := by
  rw [List.forall_mem_cons]
  exact ⟨by decide, Outline.rowsAll_unbroken
    (Drawing.statements_unbroken (unbroken_of_parseSource parsed))⟩

/-! ## Programs without places -/

/-- A program that was read has no records but its places. -/
theorem blank_eq_relocate {source : String} {program : Program}
    (parsed : parseSource source = .ok program) :
    blank.program program = (relocate fun _ => .start).program program := by
  obtain ⟨tokens, -, read⟩ := parseSource_ok.mp parsed
  -- both are what is read from the same tokens, each of them moved to the start
  have fits : blank.Fits tokens := .inl rfl
  have fits' : (relocate fun _ => .start).Fits tokens := .inl rfl
  have forgets := Program.ofTokens_relabel plain_blank fits
  have moves := Program.ofTokens_relabel (plain_relocate _) fits'
  rw [read] at forgets moves
  exact Except.ok.inj (forgets.symm.trans moves)

/-! ## What a drawing tells -/

/-- Programs that were read have the same drawing just if they are the same but for the places of
their parts. The drawing of a program has one line for each node of its outline, in preorder, behind
the line of the program itself. -/
theorem Program.drawing_faithful {source source' : String} {program program' : Program}
    (parsed : parseSource source = .ok program) (parsed' : parseSource source' = .ok program') :
    (program.drawing = program'.drawing ↔ (relocate fun _ => .start).program program =
        (relocate fun _ => .start).program program') ∧
      ∃ lines, program.drawing = Outline.text lines ∧ (∀ line ∈ lines, '\n' ∉ line.toList) ∧
        List.Forall₂ Outline.IsRow ((0, "Program") ::
          Outline.preorderAll 1 (Drawing.statements none program.statements)) lines := by
  refine ⟨⟨fun same => ?_, fun same => ?_⟩, _, program.drawing_eq_text, rows_of_parseSource parsed,
    ?_⟩
  · rw [Program.drawing_eq_text, Program.drawing_eq_text] at same
    have rows := Outline.eq_of_text_eq (rows_of_parseSource parsed)
      (rows_of_parseSource parsed') same
    have outlines := Outline.rowsAll_injective (List.cons.inj rows).2
    have statements := Drawing.statements_injective (canonical_of_parseSource parsed)
      (canonical_of_parseSource parsed') outlines
    rw [← blank_eq_relocate parsed, ← blank_eq_relocate parsed', Relabel.program, statements]
    rfl
  · rw [← Program.drawing_relocate (fun _ => .start) program, same, Program.drawing_relocate]
  · refine .cons ⟨"", Outline.isFront_empty, by simp⟩ ?_
    simpa using Outline.isRow_rowsAll Outline.isFront_empty
      (Drawing.statements none program.statements)

/-- A program that prints one and a half, with the number at some place. -/
def printedHalf (pos : Position) : Program :=
  ⟨[.print ⟨1, 1⟩ (.literal (.at pos) (.number (.finite 6755399441055744 (-52))))]⟩

/-- The tokens of that program, from the number on at some places. -/
def printedTokens (pos closing ending behind : Position) : List Token :=
  [⟨.keyword .printKw, ⟨1, 1⟩⟩, ⟨.symbol .lparen, ⟨1, 4⟩⟩,
    ⟨.float (.finite 6755399441055744 (-52)), pos⟩, ⟨.symbol .rparen, closing⟩,
    ⟨.symbol .semi, ending⟩, ⟨.eof, behind⟩]

theorem Program.drawing_faithful_moved :
    ((printedHalf ⟨1, 5⟩).drawing = (printedHalf ⟨2, 1⟩).drawing ↔
        (relocate fun _ => .start).program (printedHalf ⟨1, 5⟩) =
          (relocate fun _ => .start).program (printedHalf ⟨2, 1⟩)) ∧
      ∃ lines, (printedHalf ⟨1, 5⟩).drawing = Outline.text lines ∧
        (∀ line ∈ lines, '\n' ∉ line.toList) ∧
        List.Forall₂ Outline.IsRow ((0, "Program") :: Outline.preorderAll 1
          (Drawing.statements none (printedHalf ⟨1, 5⟩).statements)) lines := by
  have lexed : tokenize "طبع(1.5)؛" = .ok (printedTokens ⟨1, 5⟩ ⟨1, 8⟩ ⟨1, 9⟩ ⟨1, 10⟩) := by
    decide +kernel
  have lexed' : tokenize "طبع(\n1.5)؛" = .ok (printedTokens ⟨2, 1⟩ ⟨2, 4⟩ ⟨2, 5⟩ ⟨2, 6⟩) := by
    decide +kernel
  have parsed : parseSource "طبع(1.5)؛" = .ok (printedHalf ⟨1, 5⟩) :=
    parseSource_ok.mpr ⟨_, lexed, rfl⟩
  have parsed' : parseSource "طبع(\n1.5)؛" = .ok (printedHalf ⟨2, 1⟩) :=
    parseSource_ok.mpr ⟨_, lexed', rfl⟩
  exact Program.drawing_faithful parsed parsed'

end Qalam
