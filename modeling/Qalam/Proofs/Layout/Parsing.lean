/-
# Programs are read by kinds only

The parsers for statements carry a relabelling through, as those for expressions do. So
relabelled tokens are read as the relabelled program.
-/

import Qalam.Proofs.Layout.Reading

namespace Qalam.Relabel

open Qalam.Parser

variable {change : Relabel}

/-- The parsers for the parts of a statement look at no record. -/
structure Supplies (change : Relabel) (parts : Parts) : Prop where
  expression : change.Carries parts.expression parts.expression change.expr
  statement : change.Carries parts.statement parts.statement change.statement

namespace Carries

variable {parts : Parts}

theorem block (supplies : change.Supplies parts) :
    change.Carries (Parser.block parts) (Parser.block parts) change.block := by
  intro kind
  apply CarriesAt.here_bind
  intro pos
  apply (sign .lbrace kind).bind
  intro _
  apply (manyUntil endsBlock supplies.statement parts.budget).bind
  intro body
  apply (sign .rbrace).bind
  intro _
  apply pure
  rw [Relabel.block, statements_eq_map]

theorem parenthesized (supplies : change.Supplies parts) :
    change.Carries (parenthesized parts) (parenthesized parts) change.expr := by
  apply (sign .lparen).bind
  intro _
  apply supplies.expression.bind
  intro e
  apply (sign .rparen).bind
  intro _
  exact pure rfl

theorem declarator (plain : change.Plain) (supplies : change.Supplies parts) :
    change.Carries (Parser.declarator parts) (Parser.declarator parts) change.declarator := by
  apply (binding plain).bind
  intro name
  apply (accept (by simp)).bind
  intro valued
  cases valued with
  | false => exact pure rfl
  | true =>
      apply supplies.expression.bind
      intro init
      exact pure rfl

theorem declaration (plain : change.Plain) (supplies : change.Supplies parts) (pos : Position)
    (constant : Bool) :
    change.Carries (declaration parts pos constant) (declaration parts (change.pos pos) constant)
      change.statement := by
  apply (declarator plain supplies).bind
  intro first
  apply (commaItems (declarator plain supplies) parts.budget).bind
  intro others
  apply (sign .semi).bind
  intro _
  cases others with
  | nil => exact pure rfl
  | cons second others => exact pure rfl

theorem ifArm (supplies : change.Supplies parts) (pos : Position) :
    change.Carries (ifArm parts pos) (ifArm parts (change.pos pos)) change.arm := by
  apply (parenthesized supplies).bind
  intro condition
  apply (block supplies).bind
  intro body
  exact pure rfl

theorem elseIfArms (supplies : change.Supplies parts) (budget : Nat) :
    change.Carries (elseIfArms parts budget) (elseIfArms parts budget) change.arms := by
  induction budget with
  | zero => exact pure rfl
  | succ budget ih =>
      intro kind
      apply CarriesAt.here_bind
      intro pos
      apply (accept (by simp) kind).bind
      intro further
      cases further with
      | false => exact pure rfl
      | true =>
          apply (ifArm supplies pos).bind
          intro first
          apply ih.bind
          intro others
          exact pure rfl

theorem ifStatement (supplies : change.Supplies parts) (pos : Position) :
    change.Carries (ifStatement parts pos) (ifStatement parts (change.pos pos))
      change.statement := by
  apply (ifArm supplies pos).bind
  intro first
  apply (elseIfArms supplies parts.budget).bind
  intro others
  apply (accept (by simp)).bind
  intro more
  cases more with
  | false => exact pure rfl
  | true =>
      apply (block supplies).bind
      intro body
      exact pure rfl

theorem whileStatement (supplies : change.Supplies parts) (pos : Position) :
    change.Carries (whileStatement parts pos) (whileStatement parts (change.pos pos))
      change.statement := by
  apply (parenthesized supplies).bind
  intro condition
  apply (block supplies).bind
  intro body
  exact pure rfl

theorem forStatement (plain : change.Plain) (supplies : change.Supplies parts) (pos : Position) :
    change.Carries (forStatement parts pos) (forStatement parts (change.pos pos))
      change.statement := by
  apply (sign .lparen).bind
  intro _
  apply (accept (by simp)).bind
  intro counting
  cases counting with
  | true =>
      apply (binding plain).bind
      intro name
      apply (sign .eq).bind
      intro _
      apply supplies.expression.bind
      intro init
      apply (sign .semi).bind
      intro _
      apply supplies.expression.bind
      intro condition
      apply (sign .semi).bind
      intro _
      apply supplies.expression.bind
      intro step
      apply (sign .rparen).bind
      intro _
      apply (block supplies).bind
      intro body
      exact pure rfl
  | false =>
      apply (binding plain).bind
      intro name
      apply supplies.expression.bind
      intro iterable
      apply (sign .rparen).bind
      intro _
      apply (block supplies).bind
      intro body
      exact pure rfl

theorem caseBody (supplies : change.Supplies parts) (pos : Position) :
    change.Carries (caseBody parts pos) (caseBody parts (change.pos pos)) change.block := by
  apply (manyUntil endsCase supplies.statement parts.budget).bind
  intro body
  apply pure
  rw [Relabel.block, statements_eq_map]

theorem switchArms (supplies : change.Supplies parts) (seen : Bool) (budget : Nat) :
    change.Carries (switchArms parts seen budget) (switchArms parts seen budget)
      (Prod.map change.arms (Option.map change.block)) := by
  induction budget generalizing seen with
  | zero => exact pure rfl
  | succ budget ih =>
      intro kind
      apply CarriesAt.peek_bind
      cases endsBlock kind with
      | true => exact CarriesAt.pure rfl
      | false =>
          apply CarriesAt.here_bind
          intro pos
          apply (accept (by simp) kind).bind
          intro isCase
          cases isCase with
          | true =>
              apply supplies.expression.bind
              intro test
              apply (sign .colon).bind
              intro _
              apply (caseBody supplies pos).bind
              intro body
              apply (ih seen).bind
              rintro ⟨arms, otherwise⟩
              exact pure rfl
          | false =>
              apply (accept (by simp)).bind
              intro isDefault
              cases isDefault with
              | false => exact fun _ => CarriesAt.fail _
              | true =>
                  cases seen with
                  | true => exact fun _ => CarriesAt.failAt _ _
                  | false =>
                      apply (sign .colon).bind
                      intro _
                      apply (caseBody supplies pos).bind
                      intro body
                      apply (ih true).bind
                      rintro ⟨arms, otherwise⟩
                      exact pure rfl

theorem switchStatement (supplies : change.Supplies parts) (pos : Position) :
    change.Carries (switchStatement parts pos) (switchStatement parts (change.pos pos))
      change.statement := by
  apply (parenthesized supplies).bind
  intro selector
  apply (sign .lbrace).bind
  intro _
  apply (switchArms supplies false parts.budget).bind
  rintro ⟨arms, otherwise⟩
  apply (sign .rbrace).bind
  intro _
  cases otherwise with
  | none => exact pure rfl
  | some otherwise => exact pure rfl

theorem parameters (plain : change.Plain) :
    change.Carries (parameters parts) (parameters parts) (List.map change.parameter) := by
  apply (sign .lparen).bind
  intro _
  exact listUntil .rparen (parameter plain) parts.budget

theorem function (plain : change.Plain) (supplies : change.Supplies parts) (pos : Position) :
    change.Carries (Parser.function parts pos) (Parser.function parts (change.pos pos))
      change.function := by
  apply (binding plain).bind
  intro name
  apply (parameters plain).bind
  intro params
  apply (block supplies).bind
  intro body
  exact pure rfl

theorem members (plain : change.Plain) (supplies : change.Supplies parts) (seen : Bool)
    (budget : Nat) :
    change.Carries (members parts seen budget) (members parts seen budget)
      (Prod.map (Option.map change.constructor) change.functions) := by
  induction budget generalizing seen with
  | zero => exact pure rfl
  | succ budget ih =>
      intro kind
      apply CarriesAt.peek_bind
      cases endsBlock kind with
      | true => exact CarriesAt.pure rfl
      | false =>
          apply CarriesAt.here_bind
          intro pos
          apply (accept (by simp) kind).bind
          intro isConstructor
          cases isConstructor with
          | true =>
              cases seen with
              | true => exact fun _ => CarriesAt.failAt _ _
              | false =>
                  apply (parameters plain).bind
                  intro params
                  apply (block supplies).bind
                  intro body
                  apply (ih true).bind
                  rintro ⟨initialiser, methods⟩
                  exact pure rfl
          | false =>
              apply (accept (by simp)).bind
              intro isMethod
              cases isMethod with
              | false => exact fun _ => CarriesAt.fail _
              | true =>
                  apply (function plain supplies pos).bind
                  intro method
                  apply (ih seen).bind
                  rintro ⟨initialiser, methods⟩
                  exact pure rfl

theorem classStatement (plain : change.Plain) (supplies : change.Supplies parts)
    (pos : Position) :
    change.Carries (classStatement parts pos) (classStatement parts (change.pos pos))
      change.statement := by
  apply (binding plain).bind
  intro name kind
  apply CarriesAt.here_bind
  intro opening
  apply (sign .lbrace kind).bind
  intro _
  apply (members plain supplies false parts.budget).bind
  rintro ⟨initialiser, methods⟩
  apply (sign .rbrace).bind
  intro _
  cases initialiser with
  | none => exact pure rfl
  | some initialiser => exact pure rfl

theorem tryStatement (plain : change.Plain) (supplies : change.Supplies parts) (pos : Position) :
    change.Carries (tryStatement parts pos) (tryStatement parts (change.pos pos))
      change.statement := by
  apply (block supplies).bind
  intro body
  apply (word .catchKw).bind
  intro _
  apply (sign .lparen).bind
  intro _
  apply (binding plain).bind
  intro name
  apply (sign .rparen).bind
  intro _
  apply (block supplies).bind
  intro handler
  exact pure rfl

theorem returnStatement (supplies : change.Supplies parts) (pos : Position) :
    change.Carries (returnStatement parts pos) (returnStatement parts (change.pos pos))
      change.statement := by
  apply (accept (by simp)).bind
  intro bare
  cases bare with
  | true => exact pure rfl
  | false =>
      apply supplies.expression.bind
      intro value
      apply (sign .semi).bind
      intro _
      exact pure rfl

theorem printStatement (supplies : change.Supplies parts) (pos : Position) :
    change.Carries (printStatement parts pos) (printStatement parts (change.pos pos))
      change.statement := by
  apply (parenthesized supplies).bind
  intro argument
  apply (sign .semi).bind
  intro _
  exact pure rfl

theorem plainStatement (supplies : change.Supplies parts) (pos : Position) :
    change.Carries (plainStatement parts pos) (plainStatement parts (change.pos pos))
      change.statement := by
  apply supplies.expression.bind
  intro e
  apply (accept (by simp)).bind
  intro assigned
  cases assigned with
  | true =>
      intro next
      apply CarriesAt.checkAssignable_bind
      apply (supplies.expression next).bind
      intro value
      apply (sign .semi).bind
      intro _
      exact pure rfl
  | false =>
      apply (sign .semi).bind
      intro _
      exact pure rfl

/-- A jump is nothing but its keyword and a semicolon. -/
theorem jump {made made' : Statement} (same : made' = change.statement made) :
    change.Carries (do Parser.sign .semi; return made) (do Parser.sign .semi; return made')
      change.statement := by
  apply (sign .semi).bind
  intro _
  exact pure same

theorem statementOf (plain : change.Plain) (supplies : change.Supplies parts) :
    change.Carries (statementOf parts) (statementOf parts) change.statement := by
  intro kind
  apply CarriesAt.here_bind
  intro pos
  apply CarriesAt.peek_bind
  split
  · exact CarriesAt.skip_bind (by simp) (declaration plain supplies pos false)
  · exact CarriesAt.skip_bind (by simp) (declaration plain supplies pos true)
  · exact CarriesAt.skip_bind (by simp) (ifStatement supplies pos)
  · exact CarriesAt.skip_bind (by simp) (whileStatement supplies pos)
  · exact CarriesAt.skip_bind (by simp) (forStatement plain supplies pos)
  · exact CarriesAt.skip_bind (by simp) (switchStatement supplies pos)
  · apply CarriesAt.skip_bind (by simp)
    rw [map_eq_pure_bind, map_eq_pure_bind]
    apply (function plain supplies pos).bind
    intro declared
    exact pure rfl
  · exact CarriesAt.skip_bind (by simp) (classStatement plain supplies pos)
  · exact CarriesAt.skip_bind (by simp) (tryStatement plain supplies pos)
  · exact CarriesAt.skip_bind (by simp) (returnStatement supplies pos)
  · exact CarriesAt.skip_bind (by simp) (printStatement supplies pos)
  · exact CarriesAt.skip_bind (by simp) (jump rfl)
  · exact CarriesAt.skip_bind (by simp) (jump rfl)
  · exact plainStatement supplies pos kind

theorem statement (plain : change.Plain) {expression : Parser Expr}
    (reads : change.Carries expression expression change.expr) (budget : Nat) :
    change.Carries (Parser.statement expression budget) (Parser.statement expression budget)
      change.statement := by
  induction budget with
  | zero => exact fun _ => CarriesAt.fail _
  | succ budget ih => exact statementOf plain ⟨reads, ih⟩

theorem program (plain : change.Plain) (budget : Nat) :
    change.Carries (Parser.program budget) (Parser.program budget) change.program := by
  apply (manyUntil endsProgram (statement plain (nests plain budget).expression budget)
    budget).bind
  intro body
  apply pure
  rw [Relabel.program, statements_eq_map]

end Carries

end Relabel

/-- A parser looks at nothing that is recorded beside a token or a tree: relabelled tokens give the
relabelled program, or the same fault at the relabelled position. -/
theorem Program.ofTokens_relabel {change : Relabel} (plain : change.Plain) {tokens : List Token}
    (fits : change.Fits tokens) :
    Program.ofTokens (tokens.map change.token) =
      ((Program.ofTokens tokens).map change.program).mapError change.syntaxError := by
  have carried := Relabel.Carries.program plain tokens.length _ tokens fits rfl
  rw [Program.ofTokens, Program.ofTokens, List.length_map, StateT.run, StateT.run]
  cases reached : Parser.program tokens.length tokens with
  | error error =>
      rw [reached] at carried
      rw [carried]
      rfl
  | ok pair =>
      rw [reached] at carried
      rw [carried.1]
      rfl

end Qalam
