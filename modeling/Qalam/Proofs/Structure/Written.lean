/-
# What the grammar promises about expressions

Operators that store a value are applied only to what can store one, and only such operators
stand behind their operand. A plain name as the key of an object is never bound to an entity.
This holds of every expression of a tree that the grammar derives.
-/

import Qalam.Proofs.Grammar.Program
import Qalam.Proofs.Structure.Parts

namespace Qalam

/-- The entity of an expression that is nothing but a name. -/
def Expr.entity? : Expr → Option EntityId
  | .ident _ _ entity => entity
  | _ => none

/-- The key of an entry. -/
def Pair.key : Pair → Expr
  | .mk _ key _ _ => key

/-- What the grammar promises about an expression and its operands. -/
def Expr.Written : Expr → Prop
  | .unary _ op .before operand => op.isMutation = true → operand.isAssignable = true
  | .unary _ op .behind operand => op.isMutation = true ∧ operand.isAssignable = true
  | .binary _ op left _ => op.isCompoundAssignment = true → left.isAssignable = true
  | .object _ entries => ∀ entry ∈ entries, entry.key.entity? = none
  | _ => True

namespace Grammar

/-- What the grammar promises about a part of an expression. -/
def Phrase.Written : (phrase : Phrase) → phrase.Tree → Prop
  | .expr _, e => (∀ x ∈ Parts.expr e, x.Written) ∧ e.entity? = none
  | .items, es | .arguments, es => ∀ x ∈ Parts.exprs es, x.Written
  | .entry, pair => (∀ x ∈ Parts.pair pair, x.Written) ∧ pair.key.entity? = none
  | .entries, pairs | .fields, pairs =>
    (∀ x ∈ Parts.pairs pairs, x.Written) ∧ ∀ pair ∈ pairs, pair.key.entity? = none

theorem isMutation_of_mem {symbol : Symbol} {op : UnaryOp} (mem : (symbol, op) ∈ mutations) :
    op.isMutation = true := by
  simp only [mutations, List.mem_cons, Prod.mk.injEq, List.not_mem_nil, or_false] at mem
  rcases mem with ⟨-, rfl⟩ | ⟨-, rfl⟩ <;> rfl

theorem isMutation_of_mem_negations {symbol : Symbol} {op : UnaryOp}
    (mem : (symbol, op) ∈ negations) : op.isMutation = false := by
  simp only [negations, List.mem_cons, Prod.mk.injEq, List.not_mem_nil, or_false] at mem
  rcases mem with ⟨-, rfl⟩ | ⟨-, rfl⟩ <;> rfl

theorem isCompoundAssignment_of_mem {tier : Tier} {symbol : Symbol} {op : BinaryOp}
    (mem : (symbol, op) ∈ tier.operators) : op.isCompoundAssignment = false := by
  cases tier <;> simp [Tier.operators] at mem <;> grind [BinaryOp.isCompoundAssignment]

theorem Derives.written {phrase : Phrase} {ts : List Token} {tree : phrase.Tree}
    (derives : Derives phrase ts tree) : phrase.Written tree := by
  induction derives with
  | plain _ ih | unconditional _ ih | single _ ih | noOperator _ ih | noExponent _ ih
  | noSuffix _ ih | parenthesized _ ih | someArguments _ ih | someFields _ ih => exact ih
  | compound _ assignable _ _ ih ih' =>
      refine ⟨?_, rfl⟩
      simp only [Parts.expr, List.forall_mem_cons, List.forall_mem_append]
      exact ⟨fun _ => assignable, ih.1, ih'.1⟩
  | conditional _ _ _ ih ih' ih'' =>
      refine ⟨?_, rfl⟩
      simp only [Parts.expr, List.forall_mem_cons, List.forall_mem_append]
      exact ⟨trivial, ih.1, ih'.1, ih''.1⟩
  | operator _ known _ ih ih' =>
      refine ⟨?_, rfl⟩
      simp only [Parts.expr, List.forall_mem_cons, List.forall_mem_append]
      refine ⟨fun compound => ?_, ih.1, ih'.1⟩
      rw [isCompoundAssignment_of_mem known] at compound
      cases compound
  | exponent _ _ ih ih' =>
      refine ⟨?_, rfl⟩
      simp only [Parts.expr, List.forall_mem_cons, List.forall_mem_append]
      exact ⟨fun compound => (by cases compound), ih.1, ih'.1⟩
  | typeOf _ ih | property _ ih =>
      refine ⟨?_, rfl⟩
      simp only [Parts.expr, List.forall_mem_cons]
      exact ⟨trivial, ih.1⟩
  | negation known _ ih =>
      refine ⟨?_, rfl⟩
      simp only [Parts.expr, List.forall_mem_cons]
      refine ⟨fun mutation => ?_, ih.1⟩
      rw [isMutation_of_mem_negations known] at mutation
      cases mutation
  | mutationBefore _ _ assignable ih =>
      refine ⟨?_, rfl⟩
      simp only [Parts.expr, List.forall_mem_cons]
      exact ⟨fun _ => assignable, ih.1⟩
  | mutationBehind _ assignable known ih =>
      refine ⟨?_, rfl⟩
      simp only [Parts.expr, List.forall_mem_cons]
      exact ⟨⟨isMutation_of_mem known, assignable⟩, ih.1⟩
  | call _ _ ih ih' =>
      refine ⟨?_, rfl⟩
      simp only [Parts.expr, List.forall_mem_cons, List.forall_mem_append]
      exact ⟨trivial, ih.1, ih'⟩
  | member _ _ ih ih' =>
      refine ⟨?_, rfl⟩
      simp only [Parts.expr, List.forall_mem_cons, List.forall_mem_append]
      exact ⟨trivial, ih.1, ih'.1⟩
  | new _ ih =>
      obtain ⟨inside, -⟩ := ih
      refine ⟨?_, rfl⟩
      simp only [Parts.expr, List.forall_mem_cons, List.forall_mem_append] at inside ⊢
      exact ⟨trivial, inside.2⟩
  | this | dotThis | literal | ident =>
      refine ⟨?_, rfl⟩
      simp [Parts.expr, Expr.Written]
  | array _ ih =>
      refine ⟨?_, rfl⟩
      simp only [Parts.expr, List.forall_mem_cons]
      exact ⟨trivial, ih⟩
  | object _ ih =>
      refine ⟨?_, rfl⟩
      simp only [Parts.expr, List.forall_mem_cons]
      exact ⟨ih.2, ih.1⟩
  | lastItem _ ih =>
      simp only [Phrase.Written, Parts.exprs, List.append_nil]
      exact ih.1
  | nextItem _ _ ih ih' =>
      simp only [Phrase.Written, Parts.exprs, List.forall_mem_append]
      exact ⟨ih.1, ih'⟩
  | noArguments => simp [Phrase.Written, Parts.exprs]
  | @entry first ts us key value pos _ _ ih ih' =>
      refine ⟨?_, ih.2⟩
      rw [Parts.pair]
      split
      · exact ih'.1
      · rw [List.forall_mem_append]
        exact ⟨ih.1, ih'.1⟩
  | lastEntry _ ih =>
      simp only [Phrase.Written, Parts.pairs, List.append_nil, List.forall_mem_singleton]
      exact ih
  | nextEntry _ _ ih ih' =>
      simp only [Phrase.Written, Parts.pairs, List.forall_mem_append, List.forall_mem_cons]
      exact ⟨⟨ih.1, ih'.1⟩, ih.2, ih'.2⟩
  | noFields => simp [Phrase.Written, Parts.pairs]

/-- What the grammar promises about expressions alone. -/
theorem Derives.written_expr {level : Level} {ts : List Token} {e : Expr}
    (derives : Derives (.expr level) ts e) : ∀ x ∈ Parts.expr e, x.Written :=
  derives.written.1

theorem Declarator.written {ts : List Token} {entry : Binding × Option Expr}
    (declares : Declarator ts entry) : ∀ x ∈ Parts.optional entry.2, x.Written := by
  cases declares with
  | bare => simp [Parts.optional]
  | valued init => exact init.written_expr

theorem Separated.written {ts : List Token} {entries : List (Binding × Option Expr)}
    (separated : Separated Declarator ts entries) :
    ∀ entry ∈ entries, ∀ x ∈ Parts.optional entry.2, x.Written := by
  induction separated with
  | last declares =>
      rw [List.forall_mem_singleton]
      exact declares.written
  | next declares _ ih =>
      rw [List.forall_mem_cons]
      exact ⟨declares.written, ih⟩

theorem Enclosed.written {ts : List Token} {e : Expr} (encloses : Enclosed ts e) :
    ∀ x ∈ Parts.expr e, x.Written := by
  cases encloses with
  | mk inner => exact inner.written_expr

/-- The expressions in a part of a program. -/
def Piece.parts : (piece : Piece) → piece.Tree → List Expr
  | .statement, s => Parts.statement s
  | .statements, ss => Parts.statements ss
  | .block, b => Parts.block b
  | .elseIfs, arms => Parts.arms arms
  | .clauses, (arms, some otherwise) => Parts.arms arms ++ Parts.block otherwise
  | .clauses, (arms, none) => Parts.arms arms
  | .function, f => Parts.function f
  | .members, (some initialiser, methods) =>
    Parts.constructor initialiser ++ Parts.functions methods
  | .members, (none, methods) => Parts.functions methods

theorem Forms.written {piece : Piece} {ts : List Token} {tree : piece.Tree}
    (forms : Forms piece ts tree) : ∀ x ∈ piece.parts tree, x.Written := by
  induction forms with
  | declare _ declares => exact declares.written
  | declareAll _ separated =>
      intro x mem
      obtain ⟨entry, listed, inside⟩ := List.mem_flatMap.mp mem
      exact separated.written entry listed x inside
  | @switch _ _ _ _ otherwise _ _ _ selector _ ih =>
      cases otherwise with
      | none => exact List.forall_mem_append.mpr ⟨selector.written, ih⟩
      | some otherwise => exact List.forall_mem_append.mpr ⟨selector.written, ih⟩
  | @classDef _ _ initialiser _ _ _ _ _ _ ih =>
      cases initialiser with
      | none => exact ih
      | some initialiser => exact ih
  | @caseClause _ _ _ _ _ _ otherwise _ _ test _ _ ih ih' =>
      have first := List.forall_mem_append.mpr ⟨test.written_expr, ih⟩
      cases otherwise with
      | none => exact List.forall_mem_append.mpr ⟨first, ih'⟩
      | some otherwise =>
          obtain ⟨arms, last⟩ := List.forall_mem_append.mp ih'
          exact List.forall_mem_append.mpr ⟨List.forall_mem_append.mpr ⟨first, arms⟩, last⟩
  | @method _ _ _ initialiser _ _ _ ih ih' =>
      cases initialiser with
      | none => exact List.forall_mem_append.mpr ⟨ih, ih'⟩
      | some initialiser =>
          obtain ⟨first, others⟩ := List.forall_mem_append.mp ih'
          exact List.forall_mem_append.mpr ⟨first, List.forall_mem_append.mpr ⟨ih, others⟩⟩
  | _ =>
      simp only [Piece.parts, Parts.statement, Parts.statements, Parts.block, Parts.function,
        Parts.functions, Parts.constructor, Parts.arms, Parts.arm, Parts.optional,
        List.forall_mem_append] at *
      grind [Derives.written_expr, Enclosed.written]

end Grammar

/-- Every expression that was read is written according to the grammar. -/
theorem Program.written_of_ofTokens {tokens : List Token} {program : Program}
    (read : Program.ofTokens tokens = .ok program) : ∀ x ∈ program.parts, x.Written := by
  obtain ⟨rest, reads⟩ := Program.ofTokens_ok.mp read
  obtain ⟨used, -, sequence, -⟩ := Parser.manyUntil_accepts
    (Parser.statement_accepts (Parser.nested_accepts _).expression _) Grammar.Forms.ne_nil reads
  exact (Parser.statements_of_sequence sequence).written

end Qalam
