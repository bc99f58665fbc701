/-
# A bound tree is annotated completely

Binding leaves nothing open: every expression, field, plain key and parameter has a tag, every
name has an entity of that name, and declarations are numbered in their order. A plain name as the
key of an object is never looked up, so it has no entity; other fields cannot have one.
-/

import Qalam.Proofs.Checking.Statement
import Qalam.Proofs.Checking.Table
import Qalam.Proofs.Structure.Checked

namespace Qalam.Checking

open Analysis (Context)

/-- A tree is annotated completely, and in agreement with its table of entities. -/
structure Annotated (bound : BoundProgram) : Prop where
  tagged : ∀ x ∈ bound.program.parts, x.note.tag.isSome = true ∧
    ∀ field ∈ x.fields, field.note.tag.isSome = true
  named : ∀ note name entity, .ident note name entity ∈ bound.program.parts →
    ∃ id found, entity = some id ∧ bound.entities.get? id = some found ∧ found.name = name
  unnamed : ∀ note entries, .object note entries ∈ bound.program.parts →
    ∀ entry ∈ entries, entry.key.entity? = none
  parameters : ∀ declaration ∈ bound.program.declarations, ∀ tag,
    declaration.origin = .parameter tag → tag.isSome = true
  declared : ∀ declaration ∈ bound.program.declarations, ∃ id found,
    declaration.entity = some id ∧ bound.entities.get? id = some found ∧
      found.name = declaration.name
  numbered : bound.program.declarations.map Declaration.entity =
    (List.range bound.entities.size).map fun index => some ⟨index⟩

namespace Does

variable {context final : Context} {raw bound : Act}

/-- Every expression of a bound act has a tag, and so have the fields in it. -/
theorem tagged (does : Does context raw bound final) {x : Expr} (mem : x ∈ bound.parts) :
    x.note.tag.isSome = true ∧ ∀ field ∈ x.fields, field.note.tag.isSome = true := by
  obtain ⟨y, accepted, here⟩ := does.exists_accepted mem
  have fields : ∀ field ∈ y.fields, field.note.tag.isSome = true := by
    intro field listed
    rw [accepted.fields field listed]
    rfl
  rcases here with rfl | ⟨tag, rfl⟩
  · exact ⟨accepted.isSome_tag, fields⟩
  · rw [note_withTag, fields_withTag]
    exact ⟨rfl, fields⟩

/-- A bound parameter has a tag. -/
theorem tagged_parameter {declaration : Declaration} {tag : Option Tag}
    (does : Does context raw (.declares declaration) final)
    (parameter : declaration.origin = .parameter tag) : tag.isSome = true := by
  cases does with
  | declares fills =>
      cases parameter
      cases fills
      rfl

end Does

end Qalam.Checking

namespace Qalam

open Checking

/-- Binding annotates a program that was read completely. -/
theorem Program.bind_annotated {tokens : List Token} {program : Program} {bound : BoundProgram}
    (read : Program.ofTokens tokens = .ok program) (binds : program.bind = .ok bound) :
    Annotated bound := by
  obtain ⟨scope, runs⟩ := Program.runs_of_bind binds
  refine ⟨?_, ?_, ?_, ?_, ?_, runs.map_entity⟩
  · intro x mem
    obtain ⟨visit, listed, inside⟩ := Program.mem_parts_iff.mp mem
    obtain ⟨-, -, raw, -, -, reached, next, -, -, -, does, -⟩ := runs.exists_of_mem listed
    exact does.tagged inside
  · intro note name entity mem
    obtain ⟨visit, listed, inside⟩ := Program.mem_parts_iff.mp mem
    obtain ⟨-, -, -, id, found, last, -, same, -, spelled, known, retained⟩ :=
      runs.exists_entity listed inside
    exact ⟨id, last, same, known, retained.name.trans spelled⟩
  · intro note entries mem
    exact (Program.checked_of_bind read binds _ mem).1
  · intro declaration mem tag parameter
    obtain ⟨around, listed⟩ := Visits.mem_declarations.mp mem
    obtain ⟨-, -, raw, -, -, reached, next, -, -, -, does, -⟩ := runs.exists_of_mem listed
    exact does.tagged_parameter parameter
  · intro declaration mem
    obtain ⟨id, found, same, known, retained⟩ := runs.retains mem
    refine ⟨id, found, same, known, ?_⟩
    rw [retained.name, Origin.name_entity]

/-- The tokens of a function `f(p)` that returns `\x7bp: p\x7d.p`. -/
def recordTokens : List Token :=
  [⟨.keyword .functionKw, ⟨1, 1⟩⟩, ⟨.ident "f", ⟨1, 2⟩⟩, ⟨.symbol .lparen, ⟨1, 3⟩⟩,
    ⟨.ident "p", ⟨1, 4⟩⟩, ⟨.symbol .rparen, ⟨1, 5⟩⟩, ⟨.symbol .lbrace, ⟨1, 6⟩⟩,
    ⟨.keyword .returnKw, ⟨2, 1⟩⟩, ⟨.symbol .lbrace, ⟨2, 2⟩⟩, ⟨.ident "p", ⟨2, 3⟩⟩,
    ⟨.symbol .colon, ⟨2, 4⟩⟩, ⟨.ident "p", ⟨2, 5⟩⟩, ⟨.symbol .rbrace, ⟨2, 6⟩⟩,
    ⟨.symbol .dot, ⟨2, 7⟩⟩, ⟨.ident "p", ⟨2, 8⟩⟩, ⟨.symbol .semi, ⟨2, 9⟩⟩,
    ⟨.symbol .rbrace, ⟨3, 1⟩⟩, ⟨.eof, ⟨3, 2⟩⟩]

/-- A parameter, its use, and a key and a field of the same name. -/
theorem Program.bind_annotated_record :
    ∃ program bound, Program.ofTokens recordTokens = .ok program ∧ program.bind = .ok bound ∧
      bound.entities = ⟨#[.function "f", .variable "p" false .any]⟩ ∧ Annotated bound := by
  have read : ∃ program, Program.ofTokens recordTokens = .ok program ∧
      ∃ bound, program.bind = .ok bound ∧
        bound.entities = ⟨#[.function "f", .variable "p" false .any]⟩ := ⟨_, rfl, _, rfl, rfl⟩
  obtain ⟨program, read, bound, binds, table⟩ := read
  exact ⟨program, bound, read, binds, table, bind_annotated read binds⟩

end Qalam
