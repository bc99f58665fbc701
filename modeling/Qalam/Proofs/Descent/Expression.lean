/-
# Expressions are read within their budgets

Going through the parsers of expressions, from the tightest level to the loosest: each is met by the
routine without budgets, given that the parsers for what is nested are. A loop is met because each
of its rounds consumes a token, as much as the budget goes down. With no token left nothing nested
is looked for: the expression is missing.
-/

import Qalam.Proofs.Descent.Meeting

namespace Qalam.Descent

open Qalam.Parser Qalam.Grammar

variable {α β γ δ : Type}

/-! ## At the end of the text -/

section

variable {tokens : List Token}

/-- The fault that an expression is missing where the text ends. -/
def missing (tokens : List Token) : SyntaxError := ⟨.expected .expression .eof, posOf tokens⟩

theorem fail_missing (last : kindOf tokens = .eof) :
    (fail .expression : Parser α) tokens = .error (missing tokens) := by
  rw [fail_run, last, missing]

theorem primary_of_eof (last : kindOf tokens = .eof) :
    Runs (run .primary) tokens (.error (missing tokens)) := by
  apply Runs.called
  rw [body]
  apply Runs.lift_bind (here_run tokens)
  apply Runs.lift_bind (peek_run tokens)
  rw [last]
  exact .stepFails (fail_missing last)

theorem unary_of_eof (last : kindOf tokens = .eof) :
    Runs (run .unary) tokens (.error (missing tokens)) := by
  apply Runs.called
  rw [body]
  apply Runs.lift_bind (here_run tokens)
  apply Runs.lift_bind (peek_run tokens)
  rw [last]
  exact Runs.called (primary_of_eof last).bind_error

theorem chain_of_eof (last : kindOf tokens = .eof) (tier : Tier) :
    Runs (run (.chain tier)) tokens (.error (missing tokens)) := by
  have level : ∀ tier, Runs (run (operand tier)) tokens (.error (missing tokens)) →
      Runs (run (.chain tier)) tokens (.error (missing tokens)) :=
    fun tier fails => Runs.called fails.bind_error
  have product := level .product (unary_of_eof last)
  have sum := level .sum product
  have relation := level .relation sum
  cases tier with
  | product => exact product
  | sum => exact sum
  | relation => exact relation
  | logic => exact level .logic relation

theorem ternary_of_eof (last : kindOf tokens = .eof) :
    Runs (run .ternary) tokens (.error (missing tokens)) :=
  .called (chain_of_eof last .logic).bind_error

theorem expression_of_eof (last : kindOf tokens = .eof) :
    Runs (run .expression) tokens (.error (missing tokens)) :=
  .called (ternary_of_eof last).bind_error

end

/-- With no token left, what fails at the end of the text as if an expression were missing is met by
a parser that says so. -/
theorem Meets.missing {script : Script β} {moves : β → Bool}
    (fails : ∀ {tokens}, kindOf tokens = .eof → Runs script tokens (.error (missing tokens))) :
    Meets 0 moves script (fail .expression) id := by
  intro kind tokens tokens' alike short known
  have last : kindOf tokens = .eof := by
    rw [List.length_eq_zero_iff.mp (Nat.le_zero.mp short)]
    rfl
  have place : Descent.missing tokens' = Descent.missing tokens := by
    rw [Descent.missing, Descent.missing, alike.posOf_eq]
  have runs := fails (alike.kindOf_eq.trans last)
  rw [place] at runs
  rw [fail_missing last]
  refine ⟨runs, ?_⟩
  rw [Descent.missing, ← last]
  exact .here .expression

/-- The parsers for what is nested inside an expression are met. -/
structure Nests (limit : Nat) (nested : Nested) : Prop where
  expression : Meets limit always (run .expression) nested.expression id
  ternary : Meets limit always (run .ternary) nested.ternary id
  unary : Meets limit always (run .unary) nested.unary id

theorem Nests.weaken {limit fewer : Nat} {nested : Nested} (nests : Nests limit nested)
    (fits : fewer ≤ limit) : Nests fewer nested :=
  ⟨nests.expression.weaken fits fun _ => id, nests.ternary.weaken fits fun _ => id,
    nests.unary.weaken fits fun _ => id⟩

theorem Nests.argument {limit : Nat} {nested : Nested} (nests : Nests limit nested) :
    Meets limit always (run (.item .argument)) nested.expression id :=
  .called nests.expression

/-! ## Loops -/

namespace Meets

variable {limit : Nat} {moves : δ → Bool} {result : γ → δ}

/-- A round of a chain of operators, whatever comes after it. -/
theorem round_chain {tier : Tier} {left : Expr} {reads : Parser Expr}
    {next : Option Expr → Script δ} {next' : Expr → Parser γ} {ended : Parser γ}
    (operands : Meets (limit - 1) always (run (operand tier)) reads id)
    (stops : Meets limit moves (next none) ended result)
    (goesOn : ∀ longer, Meets (limit - 1) never (next (some longer)) (next' longer) result) :
    Meets limit moves (run (.round (.chain tier) left) >>= next)
      (do
        match tier.op? (← peek) with
        | some op =>
          skip
          let right ← reads
          next' (.binary (.at left.pos) op left right)
        | none => ended) result := by
  apply called_bind
  rw [body, bind_assoc]
  intro kind
  apply MeetsAt.peek_bind
  cases found : tier.op? kind with
  | none =>
      simp only [pure_bind]
      exact stops kind
  | some op =>
      have real : kind ≠ .eof := by
        rintro rfl
        cases tier <;> cases found
      simp only [bind_assoc, pure_bind]
      apply MeetsAt.skip_bind real
      apply operands.bind
      intro right
      exact goesOn _

theorem loop_chain {tier : Tier} {reads : Parser Expr}
    (operands : Meets limit always (run (operand tier)) reads id) {budget fewer : Nat}
    (fits : fewer ≤ budget) (within : fewer ≤ limit) (left : Expr) :
    Meets fewer never (run (.loop (.chain tier) left)) (chainRest tier.op? reads budget left)
      id := by
  induction budget generalizing fewer left with
  | zero =>
      obtain rfl := Nat.le_zero.mp fits
      exact ended rfl
  | succ budget ih =>
      apply called
      rw [body]
      apply round_chain (operands.weaken (by omega) fun _ => id)
      · exact pure rfl rfl
      · exact fun longer => ih (by omega) (by omega) longer

theorem chain {tier : Tier} {reads : Parser Expr}
    (operands : Meets limit always (run (operand tier)) reads id) {budget : Nat}
    (fits : limit ≤ budget) :
    Meets limit always (run (.chain tier)) (Parser.chain tier.op? reads budget) id := by
  apply called
  rw [body]
  apply operands.moving
  intro first
  exact loop_chain operands (by omega) (by omega) first

/-- All levels of operators at once. -/
theorem logic {reads : Parser Expr} (operands : Meets limit always (run .unary) reads id)
    {budget : Nat} (fits : limit ≤ budget) :
    Meets limit always (run (.chain .logic)) (Parser.logic reads budget) id := by
  have products := @chain _ .product reads operands budget fits
  have sums := @chain _ .sum _ products budget fits
  have relations := @chain _ .relation _ sums budget fits
  exact @chain _ .logic _ relations budget fits

/-- A round of a list, whatever comes after it. -/
theorem round_items {item : Item α} {before : List α} {reads : Parser α}
    {next : Option (List α) → Script δ} {next' : α → Parser γ} {ended : Parser γ}
    (each : Meets limit always (run (.item item)) reads id)
    (stops : Meets limit moves (next none) ended result)
    (goesOn : ∀ first, Meets (limit - 1) never (next (some (before ++ [first]))) (next' first)
      result) :
    Meets limit moves (run (.round (.items item) before) >>= next)
      (do
        if ← Parser.accept (.symbol .comma) then
          let first ← reads
          next' first
        else
          ended) result := by
  apply called_bind
  rw [body, bind_assoc]
  apply (accept (by simp)).bind
  intro comma
  cases comma with
  | false =>
      simp only [id, Bool.false_eq_true, if_false, pure_bind]
      exact stops
  | true =>
      simp only [id, if_true, bind_assoc, pure_bind]
      apply each.moving
      exact goesOn

theorem loop_items {item : Item α} {reads : Parser α}
    (each : Meets limit always (run (.item item)) reads id) {budget fewer : Nat}
    (fits : fewer ≤ budget) (within : fewer ≤ limit) (before : List α) :
    Meets fewer never (run (.loop (.items item) before)) (commaItems reads budget)
      (before ++ ·) := by
  induction budget generalizing fewer before with
  | zero =>
      obtain rfl := Nat.le_zero.mp fits
      exact ended (List.append_nil before).symm
  | succ budget ih =>
      apply called
      rw [body]
      apply round_items (each.weaken within fun _ => id)
      · exact pure (List.append_nil before).symm rfl
      · intro first
        apply change (ih (by omega) (by omega) (before ++ [first]))
        exact fun others => ⟨_, rfl, by simp⟩

theorem listed {item : Item α} {reads : Parser α} (close : Symbol)
    (each : Meets limit always (run (.item item)) reads id) {budget : Nat} (fits : limit ≤ budget) :
    Meets limit always (run (.listed close item)) (listUntil close reads budget) id := by
  apply called
  rw [body]
  apply (accept (by simp)).bind
  intro closed
  cases closed with
  | true => exact pure rfl rfl
  | false =>
      simp only [id, Bool.false_eq_true, if_false]
      apply each.moving
      intro first
      apply (loop_items each (by omega) (by omega) [first]).bind
      intro others
      apply (sign close).bind
      intro _
      exact pure rfl rfl

/-! ## Suffixes -/

variable {nested : Nested} {budget : Nat}

theorem thisAccess (e : Expr) :
    Meets limit never (liftM (thisAccess e) : Script Expr) (thisAccess e) id := by
  intro kind
  cases e with
  | ident => exact MeetsAt.lift_pure rfl rfl
  | _ => exact MeetsAt.failAt rfl _

/-- A round of suffixes, whatever comes after it. -/
theorem round_suffixes {e : Expr} {next : Option Expr → Script δ} {next' : Expr → Parser γ}
    {ended : Parser γ} (nests : Nests (limit - 1) nested) (fits : limit - 1 ≤ budget)
    (stops : Meets limit moves (next none) ended result)
    (goesOn : ∀ longer, Meets (limit - 1) never (next (some longer)) (next' longer) result) :
    Meets limit moves (run (.round .suffixes e) >>= next)
      (do
        match ← peek with
        | .symbol .lparen =>
          skip
          let args ← listUntil .rparen nested.expression budget
          next' (.call (.at e.pos) e args)
        | .symbol .dot =>
          skip
          if ← Parser.accept (.keyword .thisKw) then
            let access ← Parser.thisAccess e
            next' access
          else
            let name ← Parser.field
            next' (.property (.at e.pos) e name)
        | .symbol .lbracket =>
          skip
          let index ← nested.expression
          Parser.sign .rbracket
          next' (.member (.at e.pos) e index)
        | .keyword .thisKw =>
          skip
          let access ← Parser.thisAccess e
          next' access
        | .keyword .newKw =>
          match e with
          | .call note callee args =>
            skip
            next' (.new (.at note.pos) callee args)
          | _ => fail .constructorCall
        | .symbol .plusPlus =>
          checkAssignable e .increment
          skip
          next' (.unary (.at e.pos) .increment .behind e)
        | .symbol .minusMinus =>
          checkAssignable e .increment
          skip
          next' (.unary (.at e.pos) .decrement .behind e)
        | _ => ended) result := by
  apply called_bind
  rw [body, bind_assoc]
  intro kind
  apply MeetsAt.peek_bind
  -- a token that begins no suffix
  have none : ∀ kind, MeetsAt kind limit moves ((Pure.pure .none : Script (Option Expr)) >>= next)
      ended result := by
    intro kind
    rw [pure_bind]
    exact stops kind
  cases kind with
  | symbol symbol =>
      cases symbol with
      | lparen =>
          simp only [bind_assoc, pure_bind]
          apply MeetsAt.skip_bind (by simp)
          apply (listed .rparen nests.argument fits).bind
          intro args
          exact goesOn _
      | dot =>
          simp only [bind_assoc]
          apply MeetsAt.skip_bind (by simp)
          apply (accept (by simp)).bind
          intro found
          cases found with
          | true =>
              simp only [id, if_true, bind_assoc, pure_bind]
              apply (thisAccess e).bind
              intro access
              exact goesOn _
          | false =>
              simp only [id, Bool.false_eq_true, if_false, bind_assoc, pure_bind]
              apply field.bind
              intro name
              exact goesOn _
      | lbracket =>
          simp only [bind_assoc, pure_bind]
          apply MeetsAt.skip_bind (by simp)
          apply nests.expression.bind
          intro index
          apply (sign .rbracket).bind
          intro _
          exact goesOn _
      | plusPlus | minusMinus =>
          simp only [bind_assoc, pure_bind]
          apply MeetsAt.checkAssignable_bind
          apply MeetsAt.skip_bind (by simp)
          exact goesOn _
      | _ => exact none _
  | keyword keyword =>
      cases keyword with
      | thisKw =>
          simp only [bind_assoc, pure_bind]
          apply MeetsAt.skip_bind (by simp)
          apply (thisAccess e).bind
          intro access
          exact goesOn _
      | newKw =>
          cases e with
          | call note callee args =>
              simp only [construction, bind_assoc, pure_bind]
              apply MeetsAt.skip_bind (by simp)
              exact goesOn _
          | _ => exact MeetsAt.fail_bind _
      | _ => exact none _
  | _ => exact none _

theorem loop_suffixes {loops fewer : Nat} (nests : Nests limit nested) (fits : fewer ≤ loops)
    (within : fewer ≤ limit + 1) (e : Expr) :
    Meets fewer never (run (.loop .suffixes e)) (suffixes nested loops e) id := by
  induction loops generalizing fewer e with
  | zero =>
      obtain rfl := Nat.le_zero.mp fits
      exact ended rfl
  | succ loops ih =>
      apply called
      rw [body]
      apply round_suffixes (nests.weaken (by omega)) (by omega)
      · exact pure rfl rfl
      · exact fun longer => ih (by omega) (by omega) longer

/-! ## The levels of expressions -/

/-- What begins no bracket and is no name is a constant or nothing. -/
theorem constant (pos : Position) (kind : TokenKind) :
    MeetsAt kind (limit + 1) always
      (match literal? kind with
        | some value => do
          liftM skip
          return .literal (.at pos) value
        | none => liftM (fail .expression : Parser Expr) : Script Expr)
      (match literal? kind with
        | some value => do
          skip
          return .literal (.at pos) value
        | none => fail .expression) id := by
  cases found : literal? kind with
  | none => exact MeetsAt.fail _
  | some value =>
      have real : kind ≠ .eof := by
        rintro rfl
        cases found
      exact MeetsAt.skip_bind real (pure rfl rfl)

section

variable {keyParser : Parser Expr} (nests : Nests limit nested)
variable (keys : Meets limit always (run (.chain .logic)) keyParser id)
include nests

theorem ternary {condition : Parser Expr}
    (conditions : Meets (limit + 1) always (run (.chain .logic)) condition id) :
    Meets (limit + 1) always (run .ternary) (Parser.ternary nested condition) id := by
  apply called
  rw [body]
  apply conditions.moving
  intro condition
  apply (accept (by simp)).bind
  intro conditional
  cases conditional with
  | false => exact pure rfl rfl
  | true =>
      apply nests.ternary.bind
      intro yes
      apply (sign .colon).bind
      intro _
      apply nests.ternary.bind
      intro no
      exact pure rfl rfl

theorem compound {left : Parser Expr}
    (lefts : Meets (limit + 1) always (run .ternary) left id) :
    Meets (limit + 1) always (run .expression) (Parser.compound nested left) id := by
  apply called
  rw [body]
  apply lefts.moving
  intro left kind
  apply MeetsAt.peek_bind
  cases found : compoundOp? kind with
  | none => exact MeetsAt.pure rfl rfl
  | some op =>
      have real : kind ≠ .eof := by
        rintro rfl
        cases found
      apply MeetsAt.skip_bind real
      intro next
      apply MeetsAt.checkAssignable_bind
      apply ((nests.expression.weaken (by omega) fun _ => id) next).bind
      intro right
      exact pure rfl rfl

include keys

theorem pair : Meets limit always (run (.item .pair)) (Parser.pair keyParser nested.expression)
    id := by
  apply called
  rw [body]
  intro kind
  apply MeetsAt.here_bind
  intro pos
  apply (keys kind).bind
  intro key
  apply (sign .colon).bind
  intro _
  apply nests.expression.bind
  intro value
  exact pure rfl rfl

theorem primary (fits : limit ≤ budget) :
    Meets (limit + 1) always (run .primary) (Parser.primary nested keyParser budget) id := by
  apply called
  rw [body]
  intro kind
  apply MeetsAt.here_bind
  intro pos
  apply MeetsAt.peek_bind
  cases kind with
  | ident name => exact MeetsAt.skip_bind (by simp) (pure rfl rfl)
  | symbol symbol =>
      cases symbol with
      | lparen =>
          apply MeetsAt.skip_bind (by simp)
          apply nests.expression.bind
          intro e
          apply (sign .rparen).bind
          intro _
          exact pure rfl rfl
      | lbracket =>
          apply MeetsAt.skip_bind (by simp)
          apply (listed .rbracket nests.argument fits).bind
          intro elements
          exact pure rfl rfl
      | lbrace =>
          apply MeetsAt.skip_bind (by simp)
          apply (listed .rbrace (pair nests keys) fits).bind
          intro pairs
          exact pure rfl rfl
      | _ => exact constant pos _
  | _ => exact constant pos _

theorem power (fits : limit ≤ budget) :
    Meets (limit + 1) always (run .power) (Parser.power nested keyParser budget) id := by
  apply called
  rw [body]
  apply (primary nests keys fits).moving
  intro first
  apply (loop_suffixes nests fits (by omega) first).bind
  intro base
  apply (accept (by simp)).bind
  intro raised
  cases raised with
  | false => exact pure rfl rfl
  | true =>
      apply nests.unary.bind
      intro exponent
      exact pure rfl rfl

theorem unary (fits : limit ≤ budget) :
    Meets (limit + 1) always (run .unary) (Parser.unary nested keyParser budget) id := by
  apply called
  rw [body]
  intro kind
  apply MeetsAt.here_bind
  intro pos
  apply MeetsAt.peek_bind
  by_cases typed : kind = .keyword .typeOfKw
  · rw [if_pos typed, if_pos typed]
    apply MeetsAt.skip_bind (by simp [typed])
    apply nests.unary.bind
    intro operand
    exact pure rfl rfl
  · rw [if_neg typed, if_neg typed]
    cases found : unaryOp? kind with
    | none => exact power nests keys fits kind
    | some op =>
        have real : kind ≠ .eof := by
          rintro rfl
          cases found
        apply MeetsAt.skip_bind real
        apply nests.unary.bind
        intro operand
        cases op.isMutation with
        | false => exact pure rfl rfl
        | true => exact fun _ => MeetsAt.checkAssignable_bind _ _ (MeetsAt.pure rfl rfl)

end

end Meets

/-- The parsers for a bounded number of tokens are met with at most so many tokens left. -/
theorem nests (limit : Nat) : Nests limit (nested limit) := by
  induction limit with
  | zero =>
      exact ⟨.missing expression_of_eof, .missing ternary_of_eof, .missing unary_of_eof⟩
  | succ limit ih =>
      have unaries := Meets.unary ih (Meets.logic ih.unary (Nat.le_refl _)) (Nat.le_succ limit)
      have ternaries := Meets.ternary ih (Meets.logic unaries (Nat.le_refl _))
      exact ⟨Meets.compound ih ternaries, ternaries, unaries⟩

end Qalam.Descent
