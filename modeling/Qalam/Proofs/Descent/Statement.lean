/-
# Statements are read within their budgets

Going through the parsers of statements as through those of expressions. A statement is read after
its first token from what may hold a token less, and the loops of a program, a block, a case, a
switch and a class consume a token in each round.
-/

import Qalam.Proofs.Descent.Expression

namespace Qalam.Descent

open Qalam.Parser Qalam.Grammar

variable {α β γ δ : Type}

/-- The parsers for the parts of a statement are met, and their loops have the budget for it. -/
structure Supplies (limit : Nat) (parts : Parts) : Prop where
  expression : Meets limit always (run .expression) parts.expression id
  statement : Meets limit always (run .statement) parts.statement id
  budget : limit ≤ parts.budget

theorem Supplies.weaken {limit fewer : Nat} {parts : Parts} (supplies : Supplies limit parts)
    (fits : fewer ≤ limit) : Supplies fewer parts :=
  ⟨supplies.expression.weaken fits fun _ => id, supplies.statement.weaken fits fun _ => id,
    Nat.le_trans fits supplies.budget⟩

namespace Meets

variable {limit budget : Nat} {moves : δ → Bool} {result : γ → δ} {parts : Parts}

/-! ## Sequences of statements -/

/-- A round of a sequence of statements, whatever comes after it. -/
theorem round_statements {place : Place} {before : List Statement} {reads : Parser Statement}
    {next : Option (List Statement) → Script δ} {next' : Statement → Parser γ} {ended : Parser γ}
    (each : Meets limit always (run .statement) reads id)
    (stops : Meets limit moves (next none) ended result)
    (goesOn : ∀ first, Meets (limit - 1) never (next (some (before ++ [first]))) (next' first)
      result) :
    Meets limit moves (run (.round (.statements place) before) >>= next)
      (do
        if place.ends (← peek) then ended
        else
          let first ← reads
          next' first) result := by
  apply called_bind
  rw [body, bind_assoc]
  intro kind
  apply MeetsAt.peek_bind
  cases place.ends kind with
  | true =>
      simp only [if_true, pure_bind]
      exact stops kind
  | false =>
      simp only [Bool.false_eq_true, if_false, bind_assoc, pure_bind]
      exact (each kind).moving goesOn

theorem loop_statements (place : Place) {reads : Parser Statement}
    (each : Meets limit always (run .statement) reads id) {fewer : Nat} (fits : fewer ≤ budget)
    (within : fewer ≤ limit) (before : List Statement) :
    Meets fewer never (run (.loop (.statements place) before)) (manyUntil place.ends reads budget)
      (before ++ ·) := by
  induction budget generalizing fewer before with
  | zero =>
      obtain rfl := Nat.le_zero.mp fits
      exact ended (List.append_nil before).symm
  | succ budget ih =>
      apply called
      rw [body]
      apply round_statements (each.weaken within fun _ => id)
      · exact pure (List.append_nil before).symm rfl
      · intro first
        apply change (ih (by omega) (by omega) (before ++ [first]))
        exact fun others => ⟨_, rfl, by simp⟩

section

variable (supplies : Supplies limit parts)
include supplies

theorem block : Meets limit always (run .block) (Parser.block parts) id := by
  apply called
  rw [body]
  intro kind
  apply MeetsAt.here_bind
  intro pos
  apply (sign .lbrace kind).bind
  intro _
  apply (loop_statements .block supplies.statement supplies.budget (Nat.le_refl _) []).bind
  intro body
  apply (sign .rbrace).bind
  intro _
  exact pure rfl rfl

theorem caseBody (pos : Position) :
    Meets limit never (run (.caseBody pos)) (Parser.caseBody parts pos) id := by
  apply called
  rw [body]
  apply (loop_statements .case supplies.statement supplies.budget (Nat.le_refl _) []).bind
  intro body
  exact pure rfl rfl

theorem parenthesized :
    Meets limit always (run .parenthesized) (Parser.parenthesized parts) id := by
  apply called
  rw [body]
  apply (sign .lparen).bind
  intro _
  apply supplies.expression.bind
  intro e
  apply (sign .rparen).bind
  intro _
  exact pure rfl rfl

/-! ## Declarations -/

theorem declarator : Meets limit always (run (.item .declarator)) (Parser.declarator parts) id := by
  apply called
  rw [body]
  apply binding.bind
  intro name
  apply (accept (by simp)).bind
  intro valued
  cases valued with
  | false => exact pure rfl rfl
  | true =>
      apply supplies.expression.bind
      intro init
      exact pure rfl rfl

theorem declaration (pos : Position) (constant : Bool) :
    Meets limit always (run (.declaration pos constant)) (Parser.declaration parts pos constant)
      id := by
  apply called
  rw [body]
  apply (declarator supplies).bind
  intro first
  apply (loop_items (declarator supplies) supplies.budget (Nat.le_refl _) [first]).bind
  intro others
  apply (sign .semi).bind
  intro _
  cases others with
  | nil => exact pure rfl rfl
  | cons second others => exact pure rfl rfl

theorem parameters : Meets limit always (run .parameters) (Parser.parameters parts) id := by
  have each : Meets limit always (run (.item .parameter)) Parser.parameter id := by
    apply called
    exact parameter
  apply called
  rw [body]
  apply (sign .lparen).bind
  intro _
  exact (listed .rparen each supplies.budget).weaken (Nat.le_refl _) (by simp [always])

theorem function (pos : Position) :
    Meets limit always (run (.function pos)) (Parser.function parts pos) id := by
  apply called
  rw [body]
  apply binding.bind
  intro name
  apply (parameters supplies).bind
  intro params
  apply (block supplies).bind
  intro body
  exact pure rfl rfl

/-! ## Conditions and loops -/

theorem ifArm (pos : Position) :
    Meets limit always (run (.ifArm pos)) (Parser.ifArm parts pos) id := by
  apply called
  rw [body]
  apply (parenthesized supplies).bind
  intro condition
  apply (block supplies).bind
  intro body
  exact pure rfl rfl

/-- A round of the further alternatives of an `if`, whatever comes after it. -/
theorem round_elseIfs {before : List Arm} {next : Option (List Arm) → Script δ}
    {next' : Arm → Parser γ} {ended : Parser γ} (stops : Meets limit moves (next none) ended result)
    (goesOn : ∀ arm, Meets (limit - 1) never (next (some (before ++ [arm]))) (next' arm) result) :
    Meets limit moves (run (.round .elseIfs before) >>= next)
      (do
        let pos ← here
        if ← Parser.accept (.keyword .elseIfKw) then
          let arm ← Parser.ifArm parts pos
          next' arm
        else
          ended) result := by
  apply called_bind
  rw [body, bind_assoc]
  intro kind
  apply MeetsAt.here_bind
  intro pos
  rw [bind_assoc]
  apply (accept (by simp) kind).bind
  intro further
  cases further with
  | false =>
      simp only [id, Bool.false_eq_true, if_false, pure_bind]
      exact stops
  | true =>
      simp only [id, if_true, bind_assoc, pure_bind]
      exact (ifArm supplies pos).moving goesOn

theorem loop_elseIfs {fewer : Nat} (fits : fewer ≤ budget) (within : fewer ≤ limit)
    (before : List Arm) :
    Meets fewer never (run (.loop .elseIfs before)) (elseIfArms parts budget) (before ++ ·) := by
  induction budget generalizing fewer before with
  | zero =>
      obtain rfl := Nat.le_zero.mp fits
      exact ended (List.append_nil before).symm
  | succ budget ih =>
      apply called
      rw [body]
      apply round_elseIfs (supplies.weaken within)
      · exact pure (List.append_nil before).symm rfl
      · intro arm
        apply change (ih (by omega) (by omega) (before ++ [arm]))
        exact fun others => ⟨_, rfl, by simp⟩

theorem ifStatement (pos : Position) :
    Meets limit always (run (.ifStatement pos)) (Parser.ifStatement parts pos) id := by
  apply called
  rw [body]
  apply (ifArm supplies pos).bind
  intro first
  apply (loop_elseIfs supplies supplies.budget (Nat.le_refl _) [first]).bind
  intro others
  apply (accept (by simp)).bind
  intro more
  cases more with
  | false => exact pure rfl rfl
  | true =>
      apply (block supplies).bind
      intro body
      exact pure rfl rfl

theorem whileStatement (pos : Position) :
    Meets limit always (run (.whileStatement pos)) (Parser.whileStatement parts pos) id := by
  apply called
  rw [body]
  apply (parenthesized supplies).bind
  intro condition
  apply (block supplies).bind
  intro body
  exact pure rfl rfl

theorem forStatement (pos : Position) :
    Meets limit always (run (.forStatement pos)) (Parser.forStatement parts pos) id := by
  apply called
  rw [body]
  apply (sign .lparen).bind
  intro _
  apply (accept (by simp)).bind
  intro counting
  cases counting with
  | true =>
      apply binding.bind
      intro name
      apply (sign .eq).bind
      intro _
      apply supplies.expression.bind
      intro init
      apply (sign .semi).bind
      intro _
      apply supplies.expression.bind
      intro condition
      apply (sign .semi).bind
      intro _
      apply supplies.expression.bind
      intro step
      apply (sign .rparen).bind
      intro _
      apply (block supplies).bind
      intro body
      exact pure rfl rfl
  | false =>
      apply binding.bind
      intro name
      apply supplies.expression.bind
      intro iterable
      apply (sign .rparen).bind
      intro _
      apply (block supplies).bind
      intro body
      exact pure rfl rfl

/-! ## Switches -/

/-- A round of the cases of a switch, whatever comes after it. -/
theorem round_clauses {before : List Arm × Option Block}
    {next : Option (List Arm × Option Block) → Script δ}
    {nextCase : Position → Expr → Block → Parser γ} {nextDefault : Block → Parser γ}
    {ended : Parser γ}
    (stops : Meets limit moves (next none) ended result)
    (goesOn : ∀ pos test body, Meets (limit - 1) never
      (next (some (before.1 ++ [Arm.mk pos test body], before.2))) (nextCase pos test body) result)
    (defaults : ∀ body, before.2 = none → Meets (limit - 1) never
      (next (some (before.1, some body))) (nextDefault body) result) :
    Meets limit moves (run (.round .clauses before) >>= next)
      (do
        if endsBlock (← peek) then ended
        else
          let pos ← here
          if ← Parser.accept (.keyword .caseKw) then
            let test ← parts.expression
            Parser.sign .colon
            let body ← Parser.caseBody parts pos
            nextCase pos test body
          else if ← Parser.accept (.keyword .defaultKw) then
            if before.2.isSome then failAt .repeatedDefault pos
            Parser.sign .colon
            let body ← Parser.caseBody parts pos
            nextDefault body
          else
            fail .caseLabel) result := by
  have fewer := supplies.weaken (Nat.sub_le limit 1)
  apply called_bind
  rw [body, bind_assoc]
  intro kind
  apply MeetsAt.peek_bind
  cases endsBlock kind with
  | true =>
      simp only [if_true, pure_bind]
      exact stops kind
  | false =>
      simp only [Bool.false_eq_true, if_false, bind_assoc]
      apply MeetsAt.here_bind
      intro pos
      apply (accept (by simp) kind).bind
      intro isCase
      cases isCase with
      | true =>
          simp only [id, if_true, bind_assoc, pure_bind]
          apply supplies.expression.bind
          intro test
          apply (sign .colon).moving
          intro _
          apply (caseBody fewer pos).bind
          intro body
          exact goesOn pos test body
      | false =>
          simp only [id, Bool.false_eq_true, if_false, bind_assoc]
          apply (accept (by simp)).bind
          intro isDefault
          cases isDefault with
          | false =>
              simp only [id, Bool.false_eq_true, if_false]
              exact fun _ => MeetsAt.fail_bind _
          | true =>
              cases seen : before.2 with
              | some body => exact fun _ _ _ _ _ _ => ⟨.stepFails rfl, .of_none rfl⟩
              | none =>
                  simp only [id, if_true, Option.isSome_none, Bool.false_eq_true, if_false,
                    bind_assoc, pure_bind]
                  apply (sign .colon).moving
                  intro _
                  apply (caseBody fewer pos).bind
                  intro body
                  exact defaults body seen

/-- What a loop over the cases of a switch has, before and after. -/
def joinClauses (before after : List Arm × Option Block) : List Arm × Option Block :=
  (before.1 ++ after.1, before.2 <|> after.2)

theorem loop_clauses {fewer : Nat} (fits : fewer ≤ budget) (within : fewer ≤ limit)
    (before : List Arm × Option Block) :
    Meets fewer never (run (.loop .clauses before)) (switchArms parts before.2.isSome budget)
      (joinClauses before) := by
  have nothing : before = joinClauses before ([], none) := by
    simp [joinClauses]
  induction budget generalizing fewer before with
  | zero =>
      obtain rfl := Nat.le_zero.mp fits
      exact ended nothing
  | succ budget ih =>
      apply called
      rw [body]
      apply round_clauses (supplies.weaken within)
      · exact pure nothing rfl
      · intro pos test body
        apply change (ih (by omega) (by omega) (before.1 ++ [Arm.mk pos test body], before.2)
          (by simp [joinClauses]))
        exact fun after => ⟨_, rfl, by simp [joinClauses]⟩
      · intro body seen
        apply change (ih (by omega) (by omega) (before.1, some body) (by simp [joinClauses]))
        exact fun after => ⟨_, rfl, by simp [joinClauses, seen]⟩

theorem switchStatement (pos : Position) :
    Meets limit always (run (.switchStatement pos)) (Parser.switchStatement parts pos) id := by
  apply called
  rw [body]
  apply (parenthesized supplies).bind
  intro selector
  apply (sign .lbrace).bind
  intro _
  apply (loop_clauses supplies supplies.budget (Nat.le_refl _) ([], none)).bind
  rintro ⟨arms, otherwise⟩
  apply (sign .rbrace).bind
  intro _
  exact pure rfl rfl

/-! ## Classes -/

/-- A round of the members of a class, whatever comes after it. -/
theorem round_members {before : Option Constructor × List Function}
    {next : Option (Option Constructor × List Function) → Script δ}
    {nextConstructor : Position → List Parameter → Block → Parser γ}
    {nextMethod : Function → Parser γ} {ended : Parser γ}
    (stops : Meets limit moves (next none) ended result)
    (constructs : ∀ pos params body, before.1 = none → Meets (limit - 1) never
      (next (some (some (Constructor.mk pos params body), before.2)))
      (nextConstructor pos params body) result)
    (goesOn : ∀ method, Meets (limit - 1) never (next (some (before.1, before.2 ++ [method])))
      (nextMethod method) result) :
    Meets limit moves (run (.round .members before) >>= next)
      (do
        if endsBlock (← peek) then ended
        else
          let pos ← here
          if ← Parser.accept (.keyword .constructorKw) then
            if before.1.isSome then failAt .repeatedConstructor pos
            let params ← Parser.parameters parts
            let body ← Parser.block parts
            nextConstructor pos params body
          else if ← Parser.accept (.keyword .functionKw) then
            let method ← Parser.function parts pos
            nextMethod method
          else
            fail .classMember) result := by
  have fewer := supplies.weaken (Nat.sub_le limit 1)
  apply called_bind
  rw [body, bind_assoc]
  intro kind
  apply MeetsAt.peek_bind
  cases endsBlock kind with
  | true =>
      simp only [if_true, pure_bind]
      exact stops kind
  | false =>
      simp only [Bool.false_eq_true, if_false, bind_assoc]
      apply MeetsAt.here_bind
      intro pos
      apply (accept (by simp) kind).bind
      intro isConstructor
      cases isConstructor with
      | true =>
          cases seen : before.1 with
          | some constructor => exact fun _ _ _ _ _ _ => ⟨.stepFails rfl, .of_none rfl⟩
          | none =>
              simp only [id, if_true, Option.isSome_none, Bool.false_eq_true, if_false, bind_assoc,
                pure_bind]
              apply (parameters supplies).moving
              intro params
              apply (block fewer).bind
              intro body
              exact (constructs pos params body seen).weaken (Nat.le_refl _) (by simp [never])
      | false =>
          simp only [id, Bool.false_eq_true, if_false, bind_assoc]
          apply (accept (by simp)).bind
          intro isMethod
          cases isMethod with
          | true =>
              simp only [id, if_true, bind_assoc, pure_bind]
              apply (function supplies pos).moving
              exact goesOn
          | false =>
              simp only [id, Bool.false_eq_true, if_false]
              exact fun _ => MeetsAt.fail_bind _

/-- What a loop over the members of a class has, before and after. -/
def joinMembers (before after : Option Constructor × List Function) :
    Option Constructor × List Function :=
  (before.1 <|> after.1, before.2 ++ after.2)

theorem loop_members {fewer : Nat} (fits : fewer ≤ budget) (within : fewer ≤ limit)
    (before : Option Constructor × List Function) :
    Meets fewer never (run (.loop .members before)) (members parts before.1.isSome budget)
      (joinMembers before) := by
  have nothing : before = joinMembers before (none, []) := by
    simp [joinMembers]
  induction budget generalizing fewer before with
  | zero =>
      obtain rfl := Nat.le_zero.mp fits
      exact ended nothing
  | succ budget ih =>
      apply called
      rw [body]
      apply round_members (supplies.weaken within)
      · exact pure nothing rfl
      · intro pos params body seen
        apply change (ih (by omega) (by omega) (some (Constructor.mk pos params body), before.2)
          (by simp [joinMembers]))
        exact fun after => ⟨_, rfl, by simp [joinMembers, seen]⟩
      · intro method
        apply change (ih (by omega) (by omega) (before.1, before.2 ++ [method])
          (by simp [joinMembers]))
        exact fun after => ⟨_, rfl, by simp [joinMembers]⟩

theorem classStatement (pos : Position) :
    Meets limit always (run (.classStatement pos)) (Parser.classStatement parts pos) id := by
  apply called
  rw [body]
  apply binding.bind
  intro name kind
  apply MeetsAt.here_bind
  intro bodyPos
  apply (sign .lbrace kind).bind
  intro _
  apply (loop_members supplies supplies.budget (Nat.le_refl _) (none, [])).bind
  rintro ⟨constructor, methods⟩
  apply (sign .rbrace).bind
  intro _
  exact pure rfl rfl

/-! ## Simple statements -/

theorem tryStatement (pos : Position) :
    Meets limit always (run (.tryStatement pos)) (Parser.tryStatement parts pos) id := by
  apply called
  rw [body]
  apply (block supplies).bind
  intro body
  apply (word .catchKw).bind
  intro _
  apply (sign .lparen).bind
  intro _
  apply binding.bind
  intro name
  apply (sign .rparen).bind
  intro _
  apply (block supplies).bind
  intro handler
  exact pure rfl rfl

theorem returnStatement (pos : Position) :
    Meets limit always (run (.returnStatement pos)) (Parser.returnStatement parts pos) id := by
  apply called
  rw [body]
  apply (accept (by simp)).bind
  intro bare
  cases bare with
  | true => exact pure rfl rfl
  | false =>
      apply supplies.expression.bind
      intro value
      apply (sign .semi).bind
      intro _
      exact pure rfl rfl

theorem printStatement (pos : Position) :
    Meets limit always (run (.printStatement pos)) (Parser.printStatement parts pos) id := by
  apply called
  rw [body]
  apply (parenthesized supplies).bind
  intro argument
  apply (sign .semi).bind
  intro _
  exact pure rfl rfl

end

theorem plainStatement (expressions : Meets limit always (run .expression) parts.expression id)
    (pos : Position) :
    Meets limit always (run (.plainStatement pos)) (Parser.plainStatement parts pos) id := by
  apply called
  rw [body]
  apply expressions.bind
  intro e
  apply (accept (by simp)).bind
  intro assigned
  cases assigned with
  | true =>
      intro kind
      apply MeetsAt.checkAssignable_bind
      apply (expressions kind).bind
      intro value
      apply (sign .semi).bind
      intro _
      exact pure rfl rfl
  | false =>
      apply (sign .semi).bind
      intro _
      exact pure rfl rfl

/-- What a keyword announces is read with a token less. -/
theorem statementOf (supplies : Supplies limit parts)
    (expressions : Meets (limit + 1) always (run .expression) parts.expression id) :
    Meets (limit + 1) always (run .statement) (Parser.statementOf parts) id := by
  apply called
  rw [body]
  intro kind
  apply MeetsAt.here_bind
  intro pos
  apply MeetsAt.peek_bind
  have plain := plainStatement expressions pos
  -- a statement announced by a keyword
  have announced {reads : Parser Statement} {keyword : Keyword} {script : Script Statement}
      (meets : Meets limit always script reads id) :
      MeetsAt (.keyword keyword) (limit + 1) always (liftM skip >>= fun _ => script)
        (skip >>= fun _ => reads) id :=
    MeetsAt.skip_bind (by simp) (meets.weaken (Nat.le_refl _) (by simp [never]))
  -- a statement that is only a keyword
  have bare {keyword : Keyword} {value : Statement} :
      MeetsAt (.keyword keyword) (limit + 1) always
        (liftM skip >>= fun _ => liftM (Parser.sign .semi) >>= fun _ => Pure.pure value)
        (skip >>= fun _ => Parser.sign .semi >>= fun _ => Pure.pure value) id :=
    announced ((sign .semi).bind fun _ => pure rfl rfl)
  cases kind with
  | keyword keyword =>
      cases keyword with
      | letKw => exact announced (declaration supplies pos false)
      | constKw => exact announced (declaration supplies pos true)
      | ifKw => exact announced (ifStatement supplies pos)
      | whileKw => exact announced (whileStatement supplies pos)
      | forKw => exact announced (forStatement supplies pos)
      | switchKw => exact announced (switchStatement supplies pos)
      | functionKw =>
          simp only [map_eq_pure_bind]
          exact announced ((function supplies pos).bind fun _ => pure rfl rfl)
      | classKw => exact announced (classStatement supplies pos)
      | tryKw => exact announced (tryStatement supplies pos)
      | returnKw => exact announced (returnStatement supplies pos)
      | printKw => exact announced (printStatement supplies pos)
      | breakKw | continueKw => exact bare
      | _ => exact plain _
  | _ => exact plain _

end Meets

theorem statement_of_eof {tokens : List Token} (last : kindOf tokens = .eof) :
    Runs (run .statement) tokens (.error (missing tokens)) := by
  apply Runs.called
  rw [body]
  apply Runs.lift_bind (here_run tokens)
  apply Runs.lift_bind (peek_run tokens)
  rw [last]
  exact Runs.called (expression_of_eof last).bind_error

/-- The parsers for a bounded number of tokens are met with at most so many tokens left. -/
theorem statements {expression : Parser Expr} {limit : Nat}
    (expressions : Meets limit always (run .expression) expression id) :
    Meets limit always (run .statement) (statement expression limit) id := by
  induction limit with
  | zero => exact .missing statement_of_eof
  | succ limit ih =>
      have fewer := expressions.weaken (Nat.le_succ limit) fun _ => id
      exact .statementOf ⟨fewer, ih fewer, Nat.le_succ limit⟩ expressions

theorem program (limit : Nat) : Meets limit never (run .program) (Parser.program limit) id := by
  apply Meets.called
  rw [body]
  apply (Meets.loop_statements .program (statements (nests limit).expression) (Nat.le_refl _)
    (Nat.le_refl _) []).bind
  intro body
  exact .pure rfl rfl

end Qalam.Descent
