/-
# Binding adds annotations and nothing else

A bound program, stripped of tags, entities and recorded keys, is the program that was read. What
analysis has written into a tree does not influence another analysis of it: the bound program is
bound again with the same result. Both rest on one law, that analysis does not see what can be
stripped.
-/

import Qalam.Proofs.Layout.Parsing
import Qalam.Proofs.Relabelling.Binding

namespace Qalam

open Relabel

/-- What was read has nothing that could be stripped. -/
theorem Program.strip_of_ofTokens {tokens : List Token} {program : Program}
    (read : Program.ofTokens tokens = .ok program) : strip.program program = program := by
  have fits : strip.Fits tokens := .inl rfl
  have still : tokens.map strip.token = tokens := List.map_id tokens
  have stripped := Program.ofTokens_relabel plain_strip fits
  rw [still, read] at stripped
  exact (Except.ok.inj stripped).symm

/-- Keys are compared as before when what binding adds is stripped. -/
theorem Relabel.apart_strip (first later : Expr) : strip.Apart first later := by
  constructor
  · rw [keyText_strip, keyText_strip]
  · intro _
    exact keyText_strip later

theorem Relabel.renews_strip {key : Expr} (plain : key.entity? = none) :
    strip.Renews (fun _ recorded => recorded) key := by
  constructor
  · rw [plain]
    rfl
  · rw [keyText_strip]

/-- Stripping is harmless where keys that are plain names have no entity. -/
theorem Program.suits_strip {program : Program} (written : ∀ x ∈ program.parts, x.Written) :
    ∀ node ∈ program.nodes, strip.Suits (fun _ recorded => recorded) program.names node := by
  intro node mem
  refine ⟨program.namedIn_names node mem, ?_⟩
  rintro note entries rfl -
  have part : Expr.object note entries ∈ program.parts :=
    Nodes.covered_statements program.statements _ mem List.mem_cons_self
  exact ⟨fun entry listed => renews_strip (written _ part entry listed),
    List.pairwise_of_forall apart_strip⟩

/-- Analysis does not see what can be stripped. -/
theorem Program.bind_strip {program : Program} (written : ∀ x ∈ program.parts, x.Written) :
    (strip.program program).bind = program.bind := by
  have moved : strip.moved (fun _ recorded => recorded) = identity := rfl
  rw [Program.bind_relabel (separates_of_name program.names rfl) (Program.suits_strip written),
    moved]
  cases program.bind with
  | error error =>
      show Except.error (SemanticError.mk (strip.fault error.fault) error.pos) = _
      rw [fault_of_name rfl rfl]
  | ok bound =>
      show Except.ok (BoundProgram.mk ⟨identity.statements _⟩ (identity.entities _)) = _
      rw [statements_identity, entities_of_name rfl]

theorem Program.kept_of_bind {program : Program} {bound : BoundProgram}
    (binds : program.bind = .ok bound) :
    Kept strip.statements Parts.statements program.statements bound.program.statements := by
  obtain ⟨context, runs⟩ := Program.run_of_bind binds
  exact Kept.statements program.statements _ _ _ runs

/-- Binding a program that was read adds annotations to it and changes nothing else, records the
keys of every object literal, all different, and can be repeated without effect. -/
theorem Program.bind_rebinds {tokens : List Token} {program : Program} {bound : BoundProgram}
    (read : Program.ofTokens tokens = .ok program) (binds : program.bind = .ok bound) :
    strip.program bound.program = program ∧ (∀ x ∈ bound.program.parts, x.Keyed) ∧
      bound.program.bind = .ok bound := by
  have kept := Program.kept_of_bind binds
  have stripped : strip.program bound.program = program := by
    rw [← Program.strip_of_ofTokens read]
    exact congrArg Program.mk kept.same
  have written : ∀ x ∈ bound.program.parts, x.Written := by
    intro x mem
    exact (Program.checked_of_bind read binds x mem).1
  refine ⟨stripped, kept.keyed, ?_⟩
  rw [← Program.bind_strip written, stripped, binds]

/-- The tokens of an object with a computed and a plain key, and of an assignment that gives its
name another tag. -/
def retaggedTokens : List Token :=
  [⟨.keyword .letKw, ⟨1, 1⟩⟩, ⟨.ident "a", ⟨1, 4⟩⟩, ⟨.symbol .eq, ⟨1, 6⟩⟩,
    ⟨.symbol .lbrace, ⟨1, 8⟩⟩, ⟨.int 1, ⟨1, 9⟩⟩, ⟨.symbol .plus, ⟨1, 10⟩⟩, ⟨.int 2, ⟨1, 11⟩⟩,
    ⟨.symbol .colon, ⟨1, 12⟩⟩, ⟨.int 3, ⟨1, 13⟩⟩, ⟨.symbol .comma, ⟨1, 14⟩⟩, ⟨.ident "a", ⟨1, 15⟩⟩,
    ⟨.symbol .colon, ⟨1, 16⟩⟩, ⟨.int 4, ⟨1, 17⟩⟩, ⟨.symbol .rbrace, ⟨1, 18⟩⟩,
    ⟨.symbol .semi, ⟨1, 19⟩⟩, ⟨.ident "a", ⟨2, 1⟩⟩, ⟨.symbol .eq, ⟨2, 3⟩⟩, ⟨.int 5, ⟨2, 5⟩⟩,
    ⟨.symbol .semi, ⟨2, 6⟩⟩, ⟨.eof, ⟨2, 7⟩⟩]

/-- The table of the first analysis already knows the tag that the second one must not see. -/
theorem Program.bind_rebinds_retagged :
    ∃ program bound, Program.ofTokens retaggedTokens = .ok program ∧ program.bind = .ok bound ∧
      bound.entities = ⟨#[.variable "a" false .int]⟩ ∧
      strip.program bound.program = program ∧ (∀ x ∈ bound.program.parts, x.Keyed) ∧
      bound.program.bind = .ok bound := by
  have read : ∃ program, Program.ofTokens retaggedTokens = .ok program ∧
      ∃ bound, program.bind = .ok bound ∧ bound.entities = ⟨#[.variable "a" false .int]⟩ :=
    ⟨_, rfl, _, rfl, rfl⟩
  obtain ⟨program, read, bound, binds, table⟩ := read
  exact ⟨program, bound, read, binds, table, bind_rebinds read binds⟩

end Qalam
