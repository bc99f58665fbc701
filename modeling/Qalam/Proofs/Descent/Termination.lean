/-
# Parsing comes to an end

Without budgets the parser still ends, on any list of tokens, and it gives what the parser with
budgets gives. The routines call one another without consuming anything first, from an expression
down to its first name, and the loops go round as often as they like. What bounds them all is that
each routine meets a parser with a budget, for every number of tokens.
-/

import Qalam.Proofs.Descent.Statement

namespace Qalam

open Qalam.Parser Qalam.Grammar

namespace Descent

variable {α : Type}

/-- With at most so many tokens left, a routine does what some parser does, and consumes a token
with every result that has to. -/
def Routine.Met (limit : Nat) (routine : Routine α) : Prop :=
  ∃ (γ : Type) (parser : Parser γ) (result : γ → α),
    Meets limit routine.moves (run routine) parser result

section

variable (limit : Nat)

/-- The parsers for the parts of statements of so many tokens. -/
def parts : Parts :=
  ⟨(nested limit).expression, statement (nested limit).expression limit, limit⟩

theorem supplies : Supplies limit (parts limit) :=
  ⟨(nests limit).expression, statements (nests limit).expression, Nat.le_refl limit⟩

theorem keys : Meets limit always (run (.chain .logic)) (logic (nested limit).unary limit) id :=
  .logic (nests limit).unary (Nat.le_refl limit)

theorem item_met (item : Item α) :
    ∃ parser, Meets limit always (run (.item item)) parser id := by
  cases item with
  | argument => exact ⟨_, (nests limit).argument⟩
  | pair => exact ⟨_, .pair (nests limit) (keys limit)⟩
  | parameter => exact ⟨_, .called .parameter⟩
  | declarator => exact ⟨_, .declarator (supplies limit)⟩

theorem operand_met (tier : Tier) :
    ∃ parser, Meets limit always (run (operand tier)) parser id := by
  have product := (nests limit).unary
  have sum := @Meets.chain _ .product _ product _ (Nat.le_refl limit)
  have relation := @Meets.chain _ .sum _ sum _ (Nat.le_refl limit)
  have logic := @Meets.chain _ .relation _ relation _ (Nat.le_refl limit)
  cases tier with
  | product => exact ⟨_, product⟩
  | sum => exact ⟨_, sum⟩
  | relation => exact ⟨_, relation⟩
  | logic => exact ⟨_, logic⟩

/-- A round that goes on has consumed a token. -/
theorem round_met (loop : Loop α) (before : α) : (Routine.round loop before).Met limit := by
  have nests := nests limit
  have supplies := supplies limit
  -- a round that is over, and what it gives if it goes on
  have stops {δ : Type} :
      Meets limit Option.isSome (pure none : Script (Option δ)) (pure none) id :=
    .pure rfl rfl
  have goesOn {δ : Type} (next : δ) :
      Meets (limit - 1) never (pure (some next) : Script (Option δ)) (pure (some next)) id :=
    .pure rfl rfl
  unfold Routine.Met
  rw [← bind_pure (run (.round loop before))]
  cases loop with
  | statements place =>
      exact ⟨_, _, _, .round_statements supplies.statement stops fun _ => goesOn _⟩
  | items item =>
      obtain ⟨_, each⟩ := item_met limit item
      exact ⟨_, _, _, .round_items each stops fun _ => goesOn _⟩
  | chain tier =>
      obtain ⟨_, operands⟩ := operand_met (limit - 1) tier
      exact ⟨_, _, _, .round_chain operands stops fun _ => goesOn _⟩
  | suffixes =>
      exact ⟨_, _, _, .round_suffixes (nests.weaken (Nat.sub_le limit 1)) (Nat.sub_le limit 1) stops
        fun _ => goesOn _⟩
  | elseIfs => exact ⟨_, _, _, .round_elseIfs supplies stops fun _ => goesOn _⟩
  | clauses =>
      exact ⟨_, _, _, .round_clauses supplies stops (fun _ _ _ => goesOn _) fun _ _ => goesOn _⟩
  | members =>
      exact ⟨_, _, _, .round_members supplies stops (fun _ _ _ _ => goesOn _) fun _ => goesOn _⟩

theorem loop_met (loop : Loop α) (before : α) : (Routine.loop loop before).Met limit := by
  have supplies := supplies limit
  have whole := Nat.le_refl limit
  cases loop with
  | statements place =>
      exact ⟨_, _, _, .loop_statements place supplies.statement whole whole before⟩
  | items item =>
      obtain ⟨_, each⟩ := item_met limit item
      exact ⟨_, _, _, .loop_items each whole whole before⟩
  | chain tier =>
      obtain ⟨_, operands⟩ := operand_met limit tier
      exact ⟨_, _, _, .loop_chain operands whole whole before⟩
  | suffixes => exact ⟨_, _, _, .loop_suffixes (nests limit) whole (Nat.le_succ limit) before⟩
  | elseIfs => exact ⟨_, _, _, .loop_elseIfs supplies whole whole before⟩
  | clauses => exact ⟨_, _, _, .loop_clauses supplies whole whole before⟩
  | members => exact ⟨_, _, _, .loop_members supplies whole whole before⟩

theorem met (routine : Routine α) : routine.Met limit := by
  have nests := nests limit
  have keys := keys limit
  have supplies := supplies limit
  have whole := Nat.le_refl limit
  cases routine with
  | round loop before => exact round_met limit loop before
  | loop loop before => exact loop_met limit loop before
  | item item =>
      obtain ⟨_, each⟩ := item_met limit item
      exact ⟨_, _, _, each⟩
  | listed close item =>
      obtain ⟨_, each⟩ := item_met limit item
      exact ⟨_, _, _, .listed close each whole⟩
  | expression => exact ⟨_, _, _, nests.expression⟩
  | ternary => exact ⟨_, _, _, nests.ternary⟩
  | chain tier =>
      obtain ⟨_, operands⟩ := operand_met limit tier
      exact ⟨_, _, _, .chain operands whole⟩
  | unary => exact ⟨_, _, _, nests.unary⟩
  | power => exact ⟨_, _, _, (Meets.power nests keys whole).weaken (Nat.le_succ limit) fun _ => id⟩
  | primary =>
      exact ⟨_, _, _, (Meets.primary nests keys whole).weaken (Nat.le_succ limit) fun _ => id⟩
  | parenthesized => exact ⟨_, _, _, .parenthesized supplies⟩
  | block => exact ⟨_, _, _, .block supplies⟩
  | caseBody pos => exact ⟨_, _, _, .caseBody supplies pos⟩
  | parameters => exact ⟨_, _, _, .parameters supplies⟩
  | function pos => exact ⟨_, _, _, .function supplies pos⟩
  | ifArm pos => exact ⟨_, _, _, .ifArm supplies pos⟩
  | declaration pos constant => exact ⟨_, _, _, .declaration supplies pos constant⟩
  | ifStatement pos => exact ⟨_, _, _, .ifStatement supplies pos⟩
  | whileStatement pos => exact ⟨_, _, _, .whileStatement supplies pos⟩
  | forStatement pos => exact ⟨_, _, _, .forStatement supplies pos⟩
  | switchStatement pos => exact ⟨_, _, _, .switchStatement supplies pos⟩
  | classStatement pos => exact ⟨_, _, _, .classStatement supplies pos⟩
  | tryStatement pos => exact ⟨_, _, _, .tryStatement supplies pos⟩
  | returnStatement pos => exact ⟨_, _, _, .returnStatement supplies pos⟩
  | printStatement pos => exact ⟨_, _, _, .printStatement supplies pos⟩
  | plainStatement pos => exact ⟨_, _, _, .plainStatement supplies.expression pos⟩
  | statement => exact ⟨_, _, _, supplies.statement⟩
  | program => exact ⟨_, _, _, program limit⟩

end

/-- A routine that meets a parser ends, having consumed tokens in front of the end of the text. -/
theorem Routine.Met.ends {routine : Routine α} {tokens : List Token}
    (met : routine.Met tokens.length) :
    ∃ outcome, Runs (run routine) tokens outcome ∧
      ∀ value rest, outcome = .ok (value, rest) → ∃ used, tokens = used ++ rest ∧
        (∀ token ∈ used, token.kind ≠ .eof) ∧ (routine.moves value = true → used ≠ []) := by
  obtain ⟨γ, parser, result, meets⟩ := met
  have same := meets (kindOf tokens) tokens tokens (.refl tokens) (Nat.le_refl _) rfl
  cases reached : parser tokens with
  | error error =>
      rw [reached] at same
      refine ⟨.error error, same.1, ?_⟩
      rintro value rest ⟨⟩
  | ok pair =>
      rw [reached] at same
      obtain ⟨used, rest', consumes, moved, runs⟩ := same
      refine ⟨_, runs, ?_⟩
      rintro value rest ⟨⟩
      exact ⟨used, consumes.there, consumes.real, moved⟩

/-- Without budgets, the syntax tree of any list is read that is like its own. -/
theorem runs_program {tokens tokens' : List Token} (alike : Alike tokens tokens') :
    ∃ outcome, Runs (run .program) tokens' outcome ∧
      outcome.map Prod.fst = Program.ofTokens tokens := by
  have same := program tokens.length (kindOf tokens) tokens tokens' alike (Nat.le_refl _) rfl
  rw [Program.ofTokens, StateT.run]
  cases reached : Parser.program tokens.length tokens with
  | error error =>
      rw [reached] at same
      exact ⟨.error error, same.1, rfl⟩
  | ok pair =>
      rw [reached] at same
      obtain ⟨used, rest', consumes, moved, runs⟩ := same
      exact ⟨_, runs, rfl⟩

/-- An error of the parser points to what was found. -/
theorem points_of_error {tokens : List Token} {error : SyntaxError}
    (refused : Program.ofTokens tokens = .error error) : Points tokens error := by
  have met := program tokens.length (kindOf tokens) tokens tokens (.refl tokens) (Nat.le_refl _) rfl
  rw [Program.ofTokens, StateT.run] at refused
  cases reached : Parser.program tokens.length tokens with
  | error error' =>
      rw [reached] at met refused
      cases refused
      exact met.2
  | ok pair =>
      rw [reached] at refused
      cases refused

end Descent

/-- The parser without budgets ends on every list of tokens, with the syntax tree or the error that
the parser with budgets gives. All its routines end too, each in one way only. What one of them has
consumed with success are tokens in front of the first end of the text, at least one of them unless
it is a loop that may have gone round not at all. -/
theorem Program.ofTokens_ends (tokens : List Token) :
    (∃ outcome, Descent.Runs (Descent.run .program) tokens outcome ∧
      outcome.map Prod.fst = Program.ofTokens tokens) ∧
    ∀ {α : Type} (routine : Descent.Routine α) (input : List Token),
      ∃ outcome, Descent.Runs (Descent.run routine) input outcome ∧
        (∀ other, Descent.Runs (Descent.run routine) input other → other = outcome) ∧
        ∀ value rest, outcome = .ok (value, rest) → ∃ used, input = used ++ rest ∧
          (∀ token ∈ used, token.kind ≠ .eof) ∧ (routine.moves value = true → used ≠ []) := by
  refine ⟨Descent.runs_program (.refl tokens), fun routine input => ?_⟩
  obtain ⟨outcome, runs, consumed⟩ := (Descent.met input.length routine).ends
  exact ⟨outcome, runs, fun _ again => again.unique runs, consumed⟩

end Qalam
