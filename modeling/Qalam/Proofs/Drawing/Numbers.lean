/-
# The numbers of a program

A number with a point that stands in a program was rounded when it was read, so it is told by its
text.
-/

import Qalam.Proofs.Decimal.Reading
import Qalam.Proofs.Layout.Concatenation
import Qalam.Proofs.Lexing.Word
import Qalam.Proofs.Structure.Formed

namespace Qalam

/-- If a node is a number with a point, then the number has its one form. -/
def Node.Canonical (node : Node) : Prop :=
  ∀ note value, node = .expr (.literal note (.number value)) → value.Canonical

/-- If a token is a number with a point, then the number has its one form. -/
def TokenKind.Canonical (kind : TokenKind) : Prop := ∀ value, kind = .float value → value.Canonical

namespace Scan

theorem canonical_of_lexeme (c : Char) (rest : List Char) (token : Lexeme)
    (read : lexeme c rest = .ok token) : token.kind.Canonical := by
  intro value float
  rcases lexeme_cases read with ⟨_, same⟩ | ⟨_, same⟩ | ⟨_, same⟩ | ⟨_, _, same⟩ | ⟨-, rfl⟩
  · cases float.symm.trans same
  · cases float.symm.trans same
  · cases float.symm.trans same
  · rw [TokenKind.float.inj (float.symm.trans same)]
    exact Binary64.canonical_ofQuotient _ (Nat.pow_pos (by decide))
  · rcases word_kind (c :: rest) with ⟨_, same⟩ | ⟨_, same⟩ <;> cases float.symm.trans same

/-- Numbers with a point are rounded when they are read. -/
theorem canonical_of_tokensFrom {pos : Position} {text : List Char} {tokens : List Token}
    (read : tokensFrom pos text = .ok tokens) : ∀ token ∈ tokens, token.kind.Canonical := by
  intro token mem
  rcases forall_kind_of_tokensFrom canonical_of_lexeme read token mem with ends | known
  · rw [ends]
    intro value float
    cases float
  · exact known

end Scan

namespace Grammar

/-- A constant was read from a token that stands for it. -/
def Phrase.Spelled (ts : List Token) : (phrase : Phrase) → phrase.Tree → Prop
  | .expr _, e => ∀ note value, e = .literal note value → ∃ token ∈ ts, IsLiteral token.kind value
  | _, _ => True

theorem Derives.spelled {phrase : Phrase} {ts : List Token} {tree : phrase.Tree}
    (derives : Derives phrase ts tree) : phrase.Spelled ts tree := by
  induction derives with
  | plain _ ih | unconditional _ ih | single _ ih | noOperator _ ih | noExponent _ ih
  | noSuffix _ ih => exact ih
  | literal known =>
      rintro _ _ ⟨⟩
      exact ⟨_, List.mem_cons_self, known⟩
  | parenthesized _ ih =>
      intro note value same
      obtain ⟨token, mem, known⟩ := ih note value same
      exact ⟨token, List.mem_cons_of_mem _ (List.mem_append_left _ mem), known⟩
  | lastItem | nextItem | noArguments | someArguments | entry | lastEntry | nextEntry | noFields
  | someFields => trivial
  | _ => rintro _ _ ⟨⟩

end Grammar

/-- The numbers with a point in a program that was read have their one form. -/
theorem canonical_of_parseSource {source : String} {program : Program}
    (parsed : parseSource source = .ok program) : ∀ node ∈ program.nodes, node.Canonical := by
  rintro node mem note value rfl
  obtain ⟨tokens, lexed, read⟩ := parseSource_ok.mp parsed
  obtain ⟨used, rest, rfl, forms⟩ := Program.exists_forms read
  obtain ⟨part, inside, level, derives, -⟩ := (forms.formed _ mem).read
  obtain ⟨token, found, literal⟩ := derives.spelled note (.number value) rfl
  have listed := List.mem_append_left rest (inside.subset found)
  cases kind : token.kind with
  | float value' =>
      rw [kind] at literal
      cases literal
      exact Scan.canonical_of_tokensFrom lexed token listed value kind
  | _ =>
      rw [kind] at literal
      cases literal

end Qalam
