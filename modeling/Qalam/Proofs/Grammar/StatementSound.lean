/-
# The parser of statements accepts only statements

Each parser for a form of statement is shown to accept only what its rules derive, given that
about the parsers for expressions and for nested statements. Then the budget is counted up.
-/

import Qalam.Proofs.Grammar.ExpressionSound
import Qalam.Proofs.Grammar.Statement

namespace Qalam.Parser

open Grammar

/-- Sequences of statements are those of the grammar. -/
theorem statements_of_sequence {ts : List Token} {statements : List Statement}
    (sequence : Sequence (Forms .statement) ts statements) : Forms .statements ts statements := by
  induction sequence with
  | nil => exact .noStatement
  | cons forms _ ih => exact .nextStatement forms ih

/-- The parsers for the parts of a statement accept only what their rules derive. -/
structure Parts.Accepts (parts : Parts) : Prop where
  expression : Parser.Accepts parts.expression (Derives (.expr .expression))
  statement : Parser.Accepts parts.statement (Forms .statement)

section

variable {parts : Parts} (accepts : parts.Accepts)

include accepts

theorem manyStatements_accepts {stop : TokenKind → Bool} :
    Accepts (manyUntil stop parts.statement parts.budget) (Forms .statements) := by
  intro input rest statements reads
  obtain ⟨used, rfl, sequence, -⟩ := manyUntil_accepts accepts.statement Forms.ne_nil reads
  exact ⟨used, rfl, statements_of_sequence sequence⟩

theorem block_accepts : Accepts (block parts) (Forms .block) := by
  intro input rest body reads
  rw [block, bind_run (here_run input)] at reads
  obtain ⟨_, _, readOpen, fromStatements⟩ := bind_ok.mp reads
  obtain ⟨pos, rfl⟩ := sign_ok.mp readOpen
  obtain ⟨statements, _, readStatements, fromClose⟩ := bind_ok.mp fromStatements
  obtain ⟨used, rfl, forms⟩ := manyStatements_accepts accepts readStatements
  obtain ⟨_, _, readClose, done⟩ := bind_ok.mp fromClose
  obtain ⟨pos', rfl⟩ := sign_ok.mp readClose
  obtain ⟨rfl, rfl⟩ := pure_ok.mp done
  exact ⟨_, by simp, @Forms.block _ _ pos pos' forms⟩

theorem parenthesized_accepts : Accepts (parenthesized parts) Enclosed := by
  intro input rest e reads
  obtain ⟨_, _, readOpen, fromInner⟩ := bind_ok.mp reads
  obtain ⟨pos, rfl⟩ := sign_ok.mp readOpen
  obtain ⟨inner, _, readInner, fromClose⟩ := bind_ok.mp fromInner
  obtain ⟨used, rfl, derives⟩ := accepts.expression readInner
  obtain ⟨_, _, readClose, done⟩ := bind_ok.mp fromClose
  obtain ⟨pos', rfl⟩ := sign_ok.mp readClose
  obtain ⟨rfl, rfl⟩ := pure_ok.mp done
  exact ⟨_, by simp, @Enclosed.mk _ _ pos pos' derives⟩

theorem declarator_accepts : Accepts (declarator parts) Declarator := by
  intro input rest value reads
  obtain ⟨name, _, readName, fromEquals⟩ := bind_ok.mp reads
  obtain ⟨spelling, pos, rfl, rfl⟩ := binding_ok.mp readName
  obtain ⟨found, _, tried, fromInit⟩ := bind_ok.mp fromEquals
  cases found with
  | true =>
      obtain ⟨pos', rfl⟩ := (accept_true (by simp)).mp tried
      obtain ⟨init, _, readInit, done⟩ := bind_ok.mp fromInit
      obtain ⟨used, rfl, derives⟩ := accepts.expression readInit
      obtain ⟨rfl, rfl⟩ := pure_ok.mp done
      exact ⟨_, rfl, .valued derives⟩
  | false =>
      obtain ⟨-, rfl⟩ := accept_false.mp tried
      obtain ⟨rfl, rfl⟩ := pure_ok.mp fromInit
      exact ⟨_, rfl, .bare⟩

theorem declaration_accepts {keyword : Keyword} {constant : Bool}
    (keywords : (keyword, constant) ∈ declarations) {pos : Position} {input rest : List Token}
    {statement : Statement} (reads : declaration parts pos constant input = .ok (statement, rest)) :
    ∃ used, input = used ++ rest ∧ Forms .statement (key keyword pos :: used) statement := by
  obtain ⟨first, _, readFirst, fromOthers⟩ := bind_ok.mp reads
  obtain ⟨usedFirst, rfl, declares⟩ := declarator_accepts accepts readFirst
  obtain ⟨others, _, readOthers, fromEnd⟩ := bind_ok.mp fromOthers
  obtain ⟨usedOthers, rfl, separated⟩ :=
    commaItems_accepts (declarator_accepts accepts) readOthers
  have all := separated usedFirst first declares
  obtain ⟨_, _, readEnd, done⟩ := bind_ok.mp fromEnd
  obtain ⟨pos', rfl⟩ := sign_ok.mp readEnd
  cases others with
  | nil =>
      obtain ⟨rfl, rfl⟩ := pure_ok.mp done
      exact ⟨_, by simp, @Forms.declare _ _ _ _ _ _ pos' keywords all.of_singleton⟩
  | cons second more =>
      obtain ⟨rfl, rfl⟩ := pure_ok.mp done
      exact ⟨_, by simp, @Forms.declareAll _ _ _ _ _ pos' keywords all (by simp)⟩

theorem ifArm_accepts {pos : Position} {input rest : List Token} {arm : Arm}
    (reads : ifArm parts pos input = .ok (arm, rest)) :
    ∃ ts us test body, input = ts ++ (us ++ rest) ∧ Enclosed ts test ∧ Forms .block us body ∧
      arm = .mk pos test body := by
  obtain ⟨test, _, readTest, fromBody⟩ := bind_ok.mp reads
  obtain ⟨usedTest, rfl, enclosed⟩ := parenthesized_accepts accepts readTest
  obtain ⟨body, _, readBody, done⟩ := bind_ok.mp fromBody
  obtain ⟨usedBody, rfl, forms⟩ := block_accepts accepts readBody
  obtain ⟨rfl, rfl⟩ := pure_ok.mp done
  exact ⟨usedTest, usedBody, test, body, rfl, enclosed, forms, rfl⟩

theorem elseIfArms_accepts (budget : Nat) :
    Accepts (elseIfArms parts budget) (Forms .elseIfs) := by
  induction budget with
  | zero =>
      intro input rest arms reads
      obtain ⟨rfl, rfl⟩ := pure_ok.mp reads
      exact ⟨[], rfl, .noElseIf⟩
  | succ budget ih =>
      intro input rest arms reads
      rw [elseIfArms, bind_run (here_run input)] at reads
      obtain ⟨found, _, tried, further⟩ := bind_ok.mp reads
      cases found with
      | false =>
          obtain ⟨-, rfl⟩ := accept_false.mp tried
          obtain ⟨rfl, rfl⟩ := pure_ok.mp further
          exact ⟨[], rfl, .noElseIf⟩
      | true =>
          obtain ⟨pos, rfl⟩ := (accept_true (by simp)).mp tried
          obtain ⟨arm, _, readArm, fromOthers⟩ := bind_ok.mp further
          obtain ⟨ts, us, test, body, rfl, enclosed, forms, rfl⟩ := ifArm_accepts accepts readArm
          obtain ⟨others, _, readOthers, done⟩ := bind_ok.mp fromOthers
          obtain ⟨vs, rfl, formsOthers⟩ := ih readOthers
          obtain ⟨rfl, rfl⟩ := pure_ok.mp done
          exact ⟨key .elseIfKw pos :: (ts ++ (us ++ vs)), by simp [key],
            .nextElseIf enclosed forms formsOthers⟩

theorem ifStatement_accepts {pos : Position} {input rest : List Token} {statement : Statement}
    (reads : ifStatement parts pos input = .ok (statement, rest)) :
    ∃ used, input = used ++ rest ∧ Forms .statement (key .ifKw pos :: used) statement := by
  obtain ⟨first, _, readFirst, fromOthers⟩ := bind_ok.mp reads
  obtain ⟨ts, us, test, body, rfl, enclosed, forms, rfl⟩ := ifArm_accepts accepts readFirst
  obtain ⟨others, _, readOthers, fromElse⟩ := bind_ok.mp fromOthers
  obtain ⟨vs, rfl, formsOthers⟩ := elseIfArms_accepts accepts _ readOthers
  obtain ⟨found, _, tried, further⟩ := bind_ok.mp fromElse
  cases found with
  | false =>
      obtain ⟨-, rfl⟩ := accept_false.mp tried
      obtain ⟨rfl, rfl⟩ := pure_ok.mp further
      exact ⟨_, by simp, .ifOnly enclosed forms formsOthers⟩
  | true =>
      obtain ⟨pos', rfl⟩ := (accept_true (by simp)).mp tried
      obtain ⟨otherwise, _, readOtherwise, done⟩ := bind_ok.mp further
      obtain ⟨ws, rfl, formsOtherwise⟩ := block_accepts accepts readOtherwise
      obtain ⟨rfl, rfl⟩ := pure_ok.mp done
      exact ⟨ts ++ (us ++ (vs ++ key .elseKw pos' :: ws)), by simp [key],
        .ifElse enclosed forms formsOthers formsOtherwise⟩

theorem whileStatement_accepts {pos : Position} {input rest : List Token} {statement : Statement}
    (reads : whileStatement parts pos input = .ok (statement, rest)) :
    ∃ used, input = used ++ rest ∧ Forms .statement (key .whileKw pos :: used) statement := by
  obtain ⟨condition, _, readCondition, fromBody⟩ := bind_ok.mp reads
  obtain ⟨ts, rfl, enclosed⟩ := parenthesized_accepts accepts readCondition
  obtain ⟨body, _, readBody, done⟩ := bind_ok.mp fromBody
  obtain ⟨us, rfl, forms⟩ := block_accepts accepts readBody
  obtain ⟨rfl, rfl⟩ := pure_ok.mp done
  exact ⟨ts ++ us, by simp, .whileLoop enclosed forms⟩

theorem forStatement_accepts {pos : Position} {input rest : List Token} {statement : Statement}
    (reads : forStatement parts pos input = .ok (statement, rest)) :
    ∃ used, input = used ++ rest ∧ Forms .statement (key .forKw pos :: used) statement := by
  obtain ⟨_, _, readOpen, fromKeyword⟩ := bind_ok.mp reads
  obtain ⟨opening, rfl⟩ := sign_ok.mp readOpen
  obtain ⟨counts, _, tried, further⟩ := bind_ok.mp fromKeyword
  cases counts with
  | true =>
      obtain ⟨declaring, rfl⟩ := (accept_true (by simp)).mp tried
      obtain ⟨name, _, readName, fromEquals⟩ := bind_ok.mp further
      obtain ⟨spelling, namePos, rfl, rfl⟩ := binding_ok.mp readName
      obtain ⟨_, _, readEquals, fromInit⟩ := bind_ok.mp fromEquals
      obtain ⟨equals, rfl⟩ := sign_ok.mp readEquals
      obtain ⟨init, _, readInit, fromFirst⟩ := bind_ok.mp fromInit
      obtain ⟨ts, rfl, derivesInit⟩ := accepts.expression readInit
      obtain ⟨_, _, readFirst, fromCondition⟩ := bind_ok.mp fromFirst
      obtain ⟨first, rfl⟩ := sign_ok.mp readFirst
      obtain ⟨condition, _, readCondition, fromSecond⟩ := bind_ok.mp fromCondition
      obtain ⟨us, rfl, derivesCondition⟩ := accepts.expression readCondition
      obtain ⟨_, _, readSecond, fromStep⟩ := bind_ok.mp fromSecond
      obtain ⟨second, rfl⟩ := sign_ok.mp readSecond
      obtain ⟨step, _, readStep, fromClose⟩ := bind_ok.mp fromStep
      obtain ⟨vs, rfl, derivesStep⟩ := accepts.expression readStep
      obtain ⟨_, _, readClose, fromBody⟩ := bind_ok.mp fromClose
      obtain ⟨closing, rfl⟩ := sign_ok.mp readClose
      obtain ⟨body, _, readBody, done⟩ := bind_ok.mp fromBody
      obtain ⟨ws, rfl, forms⟩ := block_accepts accepts readBody
      obtain ⟨rfl, rfl⟩ := pure_ok.mp done
      refine ⟨_, ?_, @Forms.forLoop _ _ _ _ _ _ _ _ _ pos opening declaring namePos equals first
        second closing derivesInit derivesCondition derivesStep forms⟩
      simp [key]
  | false =>
      obtain ⟨-, rfl⟩ := accept_false.mp tried
      obtain ⟨name, _, readName, fromIterable⟩ := bind_ok.mp further
      obtain ⟨spelling, namePos, rfl, rfl⟩ := binding_ok.mp readName
      obtain ⟨iterable, _, readIterable, fromClose⟩ := bind_ok.mp fromIterable
      obtain ⟨ts, rfl, derives⟩ := accepts.expression readIterable
      obtain ⟨_, _, readClose, fromBody⟩ := bind_ok.mp fromClose
      obtain ⟨closing, rfl⟩ := sign_ok.mp readClose
      obtain ⟨body, _, readBody, done⟩ := bind_ok.mp fromBody
      obtain ⟨us, rfl, forms⟩ := block_accepts accepts readBody
      obtain ⟨rfl, rfl⟩ := pure_ok.mp done
      refine ⟨_, ?_, @Forms.forOf _ _ _ _ _ pos opening namePos closing derives forms⟩
      simp

theorem caseBody_accepts {pos : Position} {input rest : List Token} {body : Block}
    (reads : caseBody parts pos input = .ok (body, rest)) :
    ∃ used statements, input = used ++ rest ∧ Forms .statements used statements ∧
      body = .mk pos statements := by
  obtain ⟨statements, _, readStatements, done⟩ := bind_ok.mp reads
  obtain ⟨used, rfl, forms⟩ := manyStatements_accepts accepts readStatements
  obtain ⟨rfl, rfl⟩ := pure_ok.mp done
  exact ⟨used, statements, rfl, forms, rfl⟩

/-- The cases of a switch; none of them is a default once one has been seen. -/
theorem switchArms_accepts {seen : Bool} {budget : Nat} {input rest : List Token}
    {clauses : List Arm × Option Block}
    (reads : switchArms parts seen budget input = .ok (clauses, rest)) :
    ∃ used, input = used ++ rest ∧ Forms .clauses used clauses ∧
      (seen = true → clauses.2 = none) := by
  induction budget generalizing seen input rest clauses with
  | zero =>
      obtain ⟨rfl, rfl⟩ := pure_ok.mp reads
      exact ⟨[], rfl, .noClause, fun _ => rfl⟩
  | succ budget ih =>
      rw [switchArms, bind_run (peek_run input)] at reads
      split at reads
      · obtain ⟨rfl, rfl⟩ := pure_ok.mp reads
        exact ⟨[], rfl, .noClause, fun _ => rfl⟩
      rw [bind_run (here_run input)] at reads
      obtain ⟨isCase, _, tried, further⟩ := bind_ok.mp reads
      cases isCase with
      | true =>
          obtain ⟨pos, rfl⟩ := (accept_true (by simp)).mp tried
          obtain ⟨test, _, readTest, fromColon⟩ := bind_ok.mp further
          obtain ⟨ts, rfl, derives⟩ := accepts.expression readTest
          obtain ⟨_, _, readColon, fromBody⟩ := bind_ok.mp fromColon
          obtain ⟨pos', rfl⟩ := sign_ok.mp readColon
          obtain ⟨body, _, readBody, fromOthers⟩ := bind_ok.mp fromBody
          obtain ⟨us, statements, rfl, forms, rfl⟩ := caseBody_accepts accepts readBody
          obtain ⟨⟨arms, otherwise⟩, _, readOthers, done⟩ := bind_ok.mp fromOthers
          obtain ⟨vs, rfl, formsOthers, unique⟩ := ih readOthers
          obtain ⟨rfl, rfl⟩ := pure_ok.mp done
          exact ⟨key .caseKw pos :: (ts ++ sym .colon pos' :: (us ++ vs)), by simp [key],
            .caseClause derives forms formsOthers, unique⟩
      | false =>
          obtain ⟨-, rfl⟩ := accept_false.mp tried
          obtain ⟨isDefault, _, tried, further⟩ := bind_ok.mp further
          cases isDefault with
          | false => exact absurd further fail_ok
          | true =>
              obtain ⟨pos, rfl⟩ := (accept_true (by simp)).mp tried
              cases seen with
              | true =>
                  obtain ⟨_, _, impossible, -⟩ := bind_ok.mp further
                  exact absurd impossible failAt_ok
              | false =>
                  obtain ⟨_, _, readColon, fromBody⟩ := bind_ok.mp further
                  obtain ⟨pos', rfl⟩ := sign_ok.mp readColon
                  obtain ⟨body, _, readBody, fromOthers⟩ := bind_ok.mp fromBody
                  obtain ⟨us, statements, rfl, forms, rfl⟩ := caseBody_accepts accepts readBody
                  obtain ⟨⟨arms, otherwise⟩, _, readOthers, done⟩ := bind_ok.mp fromOthers
                  obtain ⟨vs, rfl, formsOthers, unique⟩ := ih readOthers
                  obtain rfl : otherwise = none := unique rfl
                  obtain ⟨rfl, rfl⟩ := pure_ok.mp done
                  exact ⟨key .defaultKw pos :: sym .colon pos' :: (us ++ vs), by simp [key],
                    .defaultClause forms formsOthers, by simp⟩

theorem switchStatement_accepts {pos : Position} {input rest : List Token} {statement : Statement}
    (reads : switchStatement parts pos input = .ok (statement, rest)) :
    ∃ used, input = used ++ rest ∧ Forms .statement (key .switchKw pos :: used) statement := by
  obtain ⟨selector, _, readSelector, fromOpen⟩ := bind_ok.mp reads
  obtain ⟨ts, rfl, enclosed⟩ := parenthesized_accepts accepts readSelector
  obtain ⟨_, _, readOpen, fromClauses⟩ := bind_ok.mp fromOpen
  obtain ⟨opening, rfl⟩ := sign_ok.mp readOpen
  obtain ⟨⟨arms, otherwise⟩, _, readClauses, fromClose⟩ := bind_ok.mp fromClauses
  obtain ⟨us, rfl, forms, -⟩ := switchArms_accepts accepts readClauses
  obtain ⟨_, _, readClose, done⟩ := bind_ok.mp fromClose
  obtain ⟨closing, rfl⟩ := sign_ok.mp readClose
  obtain ⟨rfl, rfl⟩ := pure_ok.mp done
  exact ⟨ts ++ sym .lbrace opening :: (us ++ [sym .rbrace closing]), by simp,
    .switch enclosed forms⟩

omit accepts in
theorem parameters_accepts : Accepts (parameters parts) Params := by
  intro input rest params reads
  have single : Accepts parameter Param := by
    intro input rest param reads
    obtain ⟨spelling, pos, rfl, rfl⟩ := parameter_ok.mp reads
    exact ⟨[Grammar.word spelling pos], rfl, .mk⟩
  obtain ⟨_, _, readOpen, fromItems⟩ := bind_ok.mp reads
  obtain ⟨pos, rfl⟩ := sign_ok.mp readOpen
  obtain ⟨used, pos', rfl, listed⟩ := listUntil_accepts single fromItems
  exact ⟨sym .lparen pos :: (used ++ [sym .rparen pos']), by simp, .mk listed⟩

theorem function_accepts {pos : Position} {input rest : List Token} {value : Function}
    (reads : function parts pos input = .ok (value, rest)) :
    ∃ used, input = used ++ rest ∧ Forms .function (key .functionKw pos :: used) value := by
  obtain ⟨name, _, readName, fromParams⟩ := bind_ok.mp reads
  obtain ⟨spelling, namePos, rfl, rfl⟩ := binding_ok.mp readName
  obtain ⟨params, _, readParams, fromBody⟩ := bind_ok.mp fromParams
  obtain ⟨ts, rfl, derives⟩ := parameters_accepts readParams
  obtain ⟨body, _, readBody, done⟩ := bind_ok.mp fromBody
  obtain ⟨us, rfl, forms⟩ := block_accepts accepts readBody
  obtain ⟨rfl, rfl⟩ := pure_ok.mp done
  exact ⟨Grammar.word spelling namePos :: (ts ++ us), by simp, .function derives forms⟩

/-- The members of a class; none of them is a constructor once one has been seen. -/
theorem members_accepts {seen : Bool} {budget : Nat} {input rest : List Token}
    {value : Option Constructor × List Function}
    (reads : members parts seen budget input = .ok (value, rest)) :
    ∃ used, input = used ++ rest ∧ Forms .members used value ∧ (seen = true → value.1 = none) := by
  induction budget generalizing seen input rest value with
  | zero =>
      obtain ⟨rfl, rfl⟩ := pure_ok.mp reads
      exact ⟨[], rfl, .noMember, fun _ => rfl⟩
  | succ budget ih =>
      rw [members, bind_run (peek_run input)] at reads
      split at reads
      · obtain ⟨rfl, rfl⟩ := pure_ok.mp reads
        exact ⟨[], rfl, .noMember, fun _ => rfl⟩
      rw [bind_run (here_run input)] at reads
      obtain ⟨isConstructor, _, tried, further⟩ := bind_ok.mp reads
      cases isConstructor with
      | true =>
          obtain ⟨pos, rfl⟩ := (accept_true (by simp)).mp tried
          cases seen with
          | true =>
              obtain ⟨_, _, impossible, -⟩ := bind_ok.mp further
              exact absurd impossible failAt_ok
          | false =>
              obtain ⟨params, _, readParams, fromBody⟩ := bind_ok.mp further
              obtain ⟨ts, rfl, derives⟩ := parameters_accepts readParams
              obtain ⟨body, _, readBody, fromOthers⟩ := bind_ok.mp fromBody
              obtain ⟨us, rfl, forms⟩ := block_accepts accepts readBody
              obtain ⟨⟨constructor, methods⟩, _, readOthers, done⟩ := bind_ok.mp fromOthers
              obtain ⟨vs, rfl, formsOthers, unique⟩ := ih readOthers
              obtain rfl : constructor = none := unique rfl
              obtain ⟨rfl, rfl⟩ := pure_ok.mp done
              exact ⟨key .constructorKw pos :: (ts ++ (us ++ vs)), by simp [key],
                .constructor derives forms formsOthers, by simp⟩
      | false =>
          obtain ⟨-, rfl⟩ := accept_false.mp tried
          obtain ⟨isMethod, _, tried, further⟩ := bind_ok.mp further
          cases isMethod with
          | false => exact absurd further fail_ok
          | true =>
              obtain ⟨pos, rfl⟩ := (accept_true (by simp)).mp tried
              obtain ⟨method, _, readMethod, fromOthers⟩ := bind_ok.mp further
              obtain ⟨ts, rfl, forms⟩ := function_accepts accepts readMethod
              obtain ⟨⟨constructor, methods⟩, _, readOthers, done⟩ := bind_ok.mp fromOthers
              obtain ⟨us, rfl, formsOthers, unique⟩ := ih readOthers
              obtain ⟨rfl, rfl⟩ := pure_ok.mp done
              exact ⟨key .functionKw pos :: ts ++ us, by simp [key],
                .method forms formsOthers, unique⟩

theorem classStatement_accepts {pos : Position} {input rest : List Token} {statement : Statement}
    (reads : classStatement parts pos input = .ok (statement, rest)) :
    ∃ used, input = used ++ rest ∧ Forms .statement (key .classKw pos :: used) statement := by
  obtain ⟨name, behindName, readName, fromOpen⟩ := bind_ok.mp reads
  obtain ⟨spelling, namePos, rfl, rfl⟩ := binding_ok.mp readName
  rw [bind_run (here_run behindName)] at fromOpen
  obtain ⟨_, _, readOpen, fromMembers⟩ := bind_ok.mp fromOpen
  obtain ⟨opening, rfl⟩ := sign_ok.mp readOpen
  obtain ⟨⟨constructor, methods⟩, _, readMembers, fromClose⟩ := bind_ok.mp fromMembers
  obtain ⟨ts, rfl, forms, -⟩ := members_accepts accepts readMembers
  obtain ⟨_, _, readClose, done⟩ := bind_ok.mp fromClose
  obtain ⟨closing, rfl⟩ := sign_ok.mp readClose
  obtain ⟨rfl, rfl⟩ := pure_ok.mp done
  exact ⟨Grammar.word spelling namePos :: sym .lbrace opening :: (ts ++ [sym .rbrace closing]),
    by simp, .classDef forms⟩

theorem tryStatement_accepts {pos : Position} {input rest : List Token} {statement : Statement}
    (reads : tryStatement parts pos input = .ok (statement, rest)) :
    ∃ used, input = used ++ rest ∧ Forms .statement (key .tryKw pos :: used) statement := by
  obtain ⟨body, _, readBody, fromCatch⟩ := bind_ok.mp reads
  obtain ⟨ts, rfl, forms⟩ := block_accepts accepts readBody
  obtain ⟨_, _, readCatch, fromOpen⟩ := bind_ok.mp fromCatch
  obtain ⟨catching, rfl⟩ := word_ok.mp readCatch
  obtain ⟨_, _, readOpen, fromName⟩ := bind_ok.mp fromOpen
  obtain ⟨opening, rfl⟩ := sign_ok.mp readOpen
  obtain ⟨name, _, readName, fromClose⟩ := bind_ok.mp fromName
  obtain ⟨spelling, namePos, rfl, rfl⟩ := binding_ok.mp readName
  obtain ⟨_, _, readClose, fromHandler⟩ := bind_ok.mp fromClose
  obtain ⟨closing, rfl⟩ := sign_ok.mp readClose
  obtain ⟨handler, _, readHandler, done⟩ := bind_ok.mp fromHandler
  obtain ⟨us, rfl, formsHandler⟩ := block_accepts accepts readHandler
  obtain ⟨rfl, rfl⟩ := pure_ok.mp done
  refine ⟨_, ?_, @Forms.tryCatch _ _ _ _ _ pos catching opening namePos closing forms
    formsHandler⟩
  simp

theorem returnStatement_accepts {pos : Position} {input rest : List Token} {statement : Statement}
    (reads : returnStatement parts pos input = .ok (statement, rest)) :
    ∃ used, input = used ++ rest ∧ Forms .statement (key .returnKw pos :: used) statement := by
  obtain ⟨bare, _, tried, further⟩ := bind_ok.mp reads
  cases bare with
  | true =>
      obtain ⟨pos', rfl⟩ := (accept_true (by simp)).mp tried
      obtain ⟨rfl, rfl⟩ := pure_ok.mp further
      exact ⟨[sym .semi pos'], rfl, .returnNothing⟩
  | false =>
      obtain ⟨-, rfl⟩ := accept_false.mp tried
      obtain ⟨value, _, readValue, fromEnd⟩ := bind_ok.mp further
      obtain ⟨ts, rfl, derives⟩ := accepts.expression readValue
      obtain ⟨_, _, readEnd, done⟩ := bind_ok.mp fromEnd
      obtain ⟨pos', rfl⟩ := sign_ok.mp readEnd
      obtain ⟨rfl, rfl⟩ := pure_ok.mp done
      exact ⟨ts ++ [sym .semi pos'], by simp, .returnValue derives⟩

theorem printStatement_accepts {pos : Position} {input rest : List Token} {statement : Statement}
    (reads : printStatement parts pos input = .ok (statement, rest)) :
    ∃ used, input = used ++ rest ∧ Forms .statement (key .printKw pos :: used) statement := by
  obtain ⟨argument, _, readArgument, fromEnd⟩ := bind_ok.mp reads
  obtain ⟨ts, rfl, enclosed⟩ := parenthesized_accepts accepts readArgument
  obtain ⟨_, _, readEnd, done⟩ := bind_ok.mp fromEnd
  obtain ⟨pos', rfl⟩ := sign_ok.mp readEnd
  obtain ⟨rfl, rfl⟩ := pure_ok.mp done
  exact ⟨ts ++ [sym .semi pos'], by simp, .print enclosed⟩

theorem plainStatement_accepts {input rest : List Token} {statement : Statement}
    (reads : plainStatement parts (posOf input) input = .ok (statement, rest)) :
    ∃ used, input = used ++ rest ∧ Forms .statement used statement := by
  obtain ⟨e, _, readExpression, fromEquals⟩ := bind_ok.mp reads
  obtain ⟨ts, rfl, derives⟩ := accepts.expression readExpression
  obtain ⟨first, more, rfl, -⟩ := derives.begins rfl
  obtain ⟨assigns, _, tried, further⟩ := bind_ok.mp fromEquals
  cases assigns with
  | true =>
      obtain ⟨pos, rfl⟩ := (accept_true (by simp)).mp tried
      obtain ⟨_, _, checked, fromValue⟩ := bind_ok.mp further
      obtain ⟨assignable, rfl⟩ := checkAssignable_ok.mp checked
      obtain ⟨value, _, readValue, fromEnd⟩ := bind_ok.mp fromValue
      obtain ⟨us, rfl, derivesValue⟩ := accepts.expression readValue
      obtain ⟨_, _, readEnd, done⟩ := bind_ok.mp fromEnd
      obtain ⟨pos', rfl⟩ := sign_ok.mp readEnd
      obtain ⟨rfl, rfl⟩ := pure_ok.mp done
      exact ⟨first :: more ++ sym .eq pos :: (us ++ [sym .semi pos']), by simp [sym],
        .assign derives assignable derivesValue⟩
  | false =>
      obtain ⟨-, rfl⟩ := accept_false.mp tried
      obtain ⟨_, _, readEnd, done⟩ := bind_ok.mp further
      obtain ⟨pos, rfl⟩ := sign_ok.mp readEnd
      obtain ⟨rfl, rfl⟩ := pure_ok.mp done
      exact ⟨first :: more ++ [sym .semi pos], by simp, .plain derives⟩

theorem statementOf_accepts : Accepts (statementOf parts) (Forms .statement) := by
  intro input rest statement reads
  rw [statementOf, bind_run (here_run input), bind_run (peek_run input)] at reads
  cases input with
  | nil => exact plainStatement_accepts accepts reads
  | cons token others =>
      obtain ⟨kind, pos⟩ := token
      -- what follows the keyword of a statement completes it
      have announced : ∀ {keyword : Keyword}, (∃ used, others = used ++ rest ∧
          Forms .statement (key keyword pos :: used) statement) →
          ∃ used, key keyword pos :: others = used ++ rest ∧ Forms .statement used statement := by
        rintro keyword ⟨used, rfl, forms⟩
        exact ⟨key keyword pos :: used, rfl, forms⟩
      simp only [kindOf, posOf] at reads
      split at reads
      · exact announced (declaration_accepts accepts (by simp [declarations]) reads)
      · exact announced (declaration_accepts accepts (by simp [declarations]) reads)
      · exact announced (ifStatement_accepts accepts reads)
      · exact announced (whileStatement_accepts accepts reads)
      · exact announced (forStatement_accepts accepts reads)
      · exact announced (switchStatement_accepts accepts reads)
      · rw [bind_run (skip_run _)] at reads
        obtain ⟨function, readFunction, rfl⟩ := map_ok.mp reads
        obtain ⟨used, rfl, forms⟩ := function_accepts accepts readFunction
        exact announced ⟨used, rfl, .functionStatement forms⟩
      · exact announced (classStatement_accepts accepts reads)
      · exact announced (tryStatement_accepts accepts reads)
      · exact announced (returnStatement_accepts accepts reads)
      · exact announced (printStatement_accepts accepts reads)
      · rw [bind_run (skip_run _)] at reads
        obtain ⟨_, _, readEnd, done⟩ := bind_ok.mp reads
        obtain ⟨pos', ended⟩ := sign_ok.mp readEnd
        obtain ⟨rfl, rfl⟩ := pure_ok.mp done
        exact announced ⟨[sym .semi pos'], ended, .breakLoop⟩
      · rw [bind_run (skip_run _)] at reads
        obtain ⟨_, _, readEnd, done⟩ := bind_ok.mp reads
        obtain ⟨pos', ended⟩ := sign_ok.mp readEnd
        obtain ⟨rfl, rfl⟩ := pure_ok.mp done
        exact announced ⟨[sym .semi pos'], ended, .continueLoop⟩
      · exact plainStatement_accepts accepts reads

end

/-- At every budget the parser of statements accepts only statements. -/
theorem statement_accepts {expression : Parser Expr}
    (accepts : Accepts expression (Derives (.expr .expression))) (budget : Nat) :
    Accepts (statement expression budget) (Forms .statement) := by
  induction budget with
  | zero => exact fun _ _ _ reads => absurd reads fail_ok
  | succ budget ih => exact statementOf_accepts ⟨accepts, ih⟩

end Qalam.Parser
