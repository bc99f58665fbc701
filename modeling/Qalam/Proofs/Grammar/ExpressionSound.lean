/-
# The parser of expressions accepts only expressions

Each parser, from the tightest level to the loosest, is shown to accept only what its rule
derives, given that about the parsers for nested expressions. The budgets play no part in it: a
loop that stops early has read a shorter expression.
-/

import Qalam.Proofs.Grammar.Reading

namespace Qalam.Grammar

/-- The operators of a level as the parser looks them up. -/
def Tier.op? : Tier → TokenKind → Option BinaryOp
  | logic => Parser.logicOp?
  | relation => Parser.relationOp?
  | sum => Parser.sumOp?
  | product => Parser.productOp?

theorem Tier.op?_eq_some {tier : Tier} {kind : TokenKind} {op : BinaryOp} :
    tier.op? kind = some op ↔
      ∃ symbol, kind = .symbol symbol ∧ (symbol, op) ∈ tier.operators := by
  constructor
  · intro found
    cases tier <;>
      simp only [Tier.op?, Parser.logicOp?, Parser.relationOp?, Parser.sumOp?, Parser.productOp?]
        at found <;>
      split at found <;> cases found <;> exact ⟨_, rfl, by decide⟩
  · rintro ⟨symbol, rfl, mem⟩
    have known : ∀ entry ∈ tier.operators, tier.op? (.symbol entry.1) = some entry.2 := by
      cases tier <;> decide
    exact known _ mem

theorem compoundOp?_eq_some {kind : TokenKind} {op : BinaryOp} :
    Parser.compoundOp? kind = some op ↔
      ∃ symbol, kind = .symbol symbol ∧ (symbol, op) ∈ compounds := by
  constructor
  · intro found
    simp only [Parser.compoundOp?] at found
    split at found <;> cases found <;> exact ⟨_, rfl, by decide⟩
  · rintro ⟨symbol, rfl, mem⟩
    have known : ∀ entry ∈ compounds, Parser.compoundOp? (.symbol entry.1) = some entry.2 := by
      decide
    exact known _ mem

theorem unaryOp?_eq_some {kind : TokenKind} {op : UnaryOp} :
    Parser.unaryOp? kind = some op ↔ ∃ symbol, kind = .symbol symbol ∧
      ((symbol, op) ∈ negations ∧ op.isMutation = false ∨
        (symbol, op) ∈ mutations ∧ op.isMutation = true) := by
  constructor
  · intro found
    simp only [Parser.unaryOp?] at found
    split at found <;> cases found <;> exact ⟨_, rfl, by decide⟩
  · rintro ⟨symbol, rfl, listed⟩
    have known : ∀ entry ∈ negations ++ mutations,
        Parser.unaryOp? (.symbol entry.1) = some entry.2 := by decide
    exact known _ (List.mem_append.mpr (listed.imp And.left And.left))

theorem literal?_eq_some {kind : TokenKind} {value : Literal} :
    Parser.literal? kind = some value ↔ IsLiteral kind value := by
  constructor
  · intro found
    simp only [Parser.literal?] at found
    split at found <;> cases found <;> constructor
  · intro literal
    cases literal <;> rfl

/-- Listed expressions are the arguments of the grammar. -/
theorem arguments_of_listed {ts : List Token} {es : List Expr}
    (listed : Listed (Derives (.expr .expression)) ts es) : Derives .arguments ts es := by
  cases listed with
  | none => exact .noArguments
  | some separated =>
      refine .someArguments ?_
      induction separated with
      | last derived => exact .lastItem derived
      | next derived _ ih => exact .nextItem derived ih

/-- Listed entries are the fields of the grammar. -/
theorem fields_of_listed {ts : List Token} {pairs : List Pair}
    (listed : Listed (Derives .entry) ts pairs) : Derives .fields ts pairs := by
  cases listed with
  | none => exact .noFields
  | some separated =>
      refine .someFields ?_
      induction separated with
      | last derived => exact .lastEntry derived
      | next derived _ ih => exact .nextEntry derived ih

end Qalam.Grammar

namespace Qalam.Parser

open Grammar

/-- The parsers for nested expressions accept only what their rules derive. -/
structure Nested.Accepts (nested : Nested) : Prop where
  expression : Parser.Accepts nested.expression (Derives (.expr .expression))
  ternary : Parser.Accepts nested.ternary (Derives (.expr .ternary))
  unary : Parser.Accepts nested.unary (Derives (.expr .unary))

/-- Input whose next token is a symbol begins with that symbol. -/
theorem exists_sym_of_kindOf {input : List Token} {symbol : Symbol}
    (kind : kindOf input = .symbol symbol) : ∃ pos rest, input = sym symbol pos :: rest := by
  cases input with
  | nil => cases kind
  | cons token rest =>
      obtain ⟨_, pos⟩ := token
      cases kind
      exact ⟨pos, rest, rfl⟩

/-- Input whose next token is a keyword begins with that keyword. -/
theorem exists_key_of_kindOf {input : List Token} {keyword : Keyword}
    (kind : kindOf input = .keyword keyword) : ∃ pos rest, input = key keyword pos :: rest := by
  cases input with
  | nil => cases kind
  | cons token rest =>
      obtain ⟨_, pos⟩ := token
      cases kind
      exact ⟨pos, rest, rfl⟩

theorem chainRest_accepts {tier : Tier} {operand : Parser Expr}
    (accepts : Accepts operand (Derives (.expr tier.operand))) {budget : Nat} {left value : Expr}
    {ts input rest : List Token} (derived : Derives (.expr (.chain tier)) ts left)
    (reads : chainRest tier.op? operand budget left input = .ok (value, rest)) :
    ∃ used, input = used ++ rest ∧ Derives (.expr (.chain tier)) (ts ++ used) value := by
  induction budget generalizing left ts input with
  | zero =>
      obtain ⟨rfl, rfl⟩ := pure_ok.mp reads
      exact ⟨[], rfl, by simpa using derived⟩
  | succ budget ih =>
      rw [chainRest, bind_run (peek_run input)] at reads
      cases found : tier.op? (kindOf input) with
      | none =>
          rw [found] at reads
          obtain ⟨rfl, rfl⟩ := pure_ok.mp reads
          exact ⟨[], rfl, by simpa using derived⟩
      | some op =>
          rw [found] at reads
          obtain ⟨symbol, kind, operator⟩ := Tier.op?_eq_some.mp found
          obtain ⟨pos, others, rfl⟩ := exists_sym_of_kindOf kind
          change (skip >>= _) _ = _ at reads
          rw [bind_run (skip_run _)] at reads
          obtain ⟨right, behind, readRight, further⟩ := bind_ok.mp reads
          obtain ⟨usedRight, rfl, derivedRight⟩ := accepts readRight
          obtain ⟨usedRest, rfl, whole⟩ := ih (.operator derived operator derivedRight) further
          exact ⟨sym symbol pos :: (usedRight ++ usedRest), by simp [sym], by simpa using whole⟩

theorem chain_accepts {tier : Tier} {operand : Parser Expr}
    (accepts : Accepts operand (Derives (.expr tier.operand))) (budget : Nat) :
    Accepts (chain tier.op? operand budget) (Derives (.expr (.chain tier))) := by
  intro input rest value reads
  obtain ⟨first, behind, readFirst, further⟩ := bind_ok.mp reads
  obtain ⟨usedFirst, rfl, derivedFirst⟩ := accepts readFirst
  obtain ⟨usedRest, rfl, whole⟩ := chainRest_accepts accepts (.single derivedFirst) further
  exact ⟨usedFirst ++ usedRest, by simp, whole⟩

/-- All four levels of operators at once. -/
theorem logic_accepts {operand : Parser Expr}
    (accepts : Accepts operand (Derives (.expr .unary))) (budget : Nat) :
    Accepts (logic operand budget) (Derives (.expr (.chain .logic))) := by
  have products := @chain_accepts .product operand accepts budget
  have sums := @chain_accepts .sum (product operand budget) products budget
  have relations := @chain_accepts .relation (sum operand budget) sums budget
  exact @chain_accepts .logic (relation operand budget) relations budget

theorem thisAccess_ok {e value : Expr} {input rest : List Token} :
    thisAccess e input = .ok (value, rest) ↔ input = rest ∧
      ∃ note name entity, e = .ident note name entity ∧
        value = .this (.at note.pos) ⟨name, note⟩ := by
  cases e with
  | ident note name entity =>
      rw [thisAccess, pure_ok]
      constructor
      · rintro ⟨rfl, rfl⟩
        exact ⟨rfl, note, name, entity, rfl, rfl⟩
      · rintro ⟨rfl, _, _, _, ⟨⟩, rfl⟩
        exact ⟨rfl, rfl⟩
  | _ => simp [thisAccess, failAt_ok]

theorem pair_accepts {keyParser valueParser : Parser Expr}
    (keys : Accepts keyParser (Derives (.expr (.chain .logic))))
    (values : Accepts valueParser (Derives (.expr .expression))) :
    Accepts (pair keyParser valueParser) (Derives .entry) := by
  intro input rest value reads
  rw [pair, bind_run (here_run input)] at reads
  obtain ⟨key, behindKey, readKey, further⟩ := bind_ok.mp reads
  obtain ⟨_, behindColon, readColon, further⟩ := bind_ok.mp further
  obtain ⟨inner, behindValue, readValue, done⟩ := bind_ok.mp further
  obtain ⟨rfl, rfl⟩ := pure_ok.mp done
  obtain ⟨usedKey, rfl, derivedKey⟩ := keys readKey
  obtain ⟨pos, rfl⟩ := sign_ok.mp readColon
  obtain ⟨usedValue, rfl, derivedValue⟩ := values readValue
  obtain ⟨first, more, rfl, -⟩ := derivedKey.begins rfl
  exact ⟨first :: more ++ sym .colon pos :: usedValue, by simp, .entry derivedKey derivedValue⟩

theorem primary_accepts {nested : Nested} {keyParser : Parser Expr} (accepts : nested.Accepts)
    (keys : Accepts keyParser (Derives (.expr (.chain .logic)))) (budget : Nat) :
    Accepts (primary nested keyParser budget) (Derives (.expr .primary)) := by
  intro input rest value reads
  rw [primary, bind_run (here_run input), bind_run (peek_run input)] at reads
  cases input with
  | nil => exact absurd reads fail_ok
  | cons token others =>
      obtain ⟨kind, pos⟩ := token
      simp only [kindOf, posOf] at reads
      split at reads
      · rename_i name
        rw [bind_run (skip_run _)] at reads
        obtain ⟨rfl, rfl⟩ := pure_ok.mp reads
        exact ⟨[Grammar.word name pos], rfl, .ident⟩
      · rw [bind_run (skip_run _)] at reads
        obtain ⟨inner, behind, readInner, further⟩ := bind_ok.mp reads
        obtain ⟨_, last, readClose, done⟩ := bind_ok.mp further
        obtain ⟨rfl, rfl⟩ := pure_ok.mp done
        obtain ⟨used, split, derived⟩ := accepts.expression readInner
        obtain ⟨pos', rfl⟩ := sign_ok.mp readClose
        simp only [List.tail_cons] at split
        subst split
        exact ⟨sym .lparen pos :: (used ++ [sym .rparen pos']), by simp [sym],
          .parenthesized derived⟩
      · rw [bind_run (skip_run _)] at reads
        obtain ⟨elements, behind, readElements, done⟩ := bind_ok.mp reads
        obtain ⟨rfl, rfl⟩ := pure_ok.mp done
        obtain ⟨used, pos', split, listed⟩ := listUntil_accepts accepts.expression readElements
        simp only [List.tail_cons] at split
        subst split
        exact ⟨sym .lbracket pos :: (used ++ [sym .rbracket pos']), by simp [sym],
          .array (arguments_of_listed listed)⟩
      · rw [bind_run (skip_run _)] at reads
        obtain ⟨pairs, behind, readPairs, done⟩ := bind_ok.mp reads
        obtain ⟨rfl, rfl⟩ := pure_ok.mp done
        obtain ⟨used, pos', split, listed⟩ :=
          listUntil_accepts (pair_accepts keys accepts.expression) readPairs
        simp only [List.tail_cons] at split
        subst split
        exact ⟨sym .lbrace pos :: (used ++ [sym .rbrace pos']), by simp [sym],
          .object (fields_of_listed listed)⟩
      · cases found : literal? kind with
        | none =>
            simp only [found] at reads
            exact absurd reads fail_ok
        | some constant =>
            simp only [found] at reads
            rw [bind_run (skip_run _)] at reads
            obtain ⟨rfl, rfl⟩ := pure_ok.mp reads
            exact ⟨[⟨kind, pos⟩], rfl, .literal (literal?_eq_some.mp found)⟩

/-- Every round of suffixes extends the expression before it to one with a further suffix. -/
theorem suffixes_accepts {nested : Nested} (accepts : nested.Accepts) {budget : Nat}
    {e value : Expr} {ts input rest : List Token} (derived : Derives (.expr .suffixed) ts e)
    (reads : suffixes nested budget e input = .ok (value, rest)) :
    ∃ used, input = used ++ rest ∧ Derives (.expr .suffixed) (ts ++ used) value := by
  induction budget generalizing e ts input with
  | zero =>
      obtain ⟨rfl, rfl⟩ := pure_ok.mp reads
      exact ⟨[], rfl, by simpa using derived⟩
  | succ budget ih =>
      -- one suffix, then the induction hypothesis for the expression that it builds
      have extend : ∀ {suffix behind : List Token} {longer : Expr},
          Derives (.expr .suffixed) (ts ++ suffix) longer →
          suffixes nested budget longer behind = .ok (value, rest) →
          ∃ used, suffix ++ behind = used ++ rest ∧
            Derives (.expr .suffixed) (ts ++ used) value := by
        intro suffix behind longer longerDerived further
        obtain ⟨used, rfl, whole⟩ := ih longerDerived further
        exact ⟨suffix ++ used, by simp, by simpa using whole⟩
      cases input with
      | nil =>
          obtain ⟨rfl, rfl⟩ := pure_ok.mp reads
          exact ⟨[], rfl, by simpa using derived⟩
      | cons token others =>
          obtain ⟨kind, pos⟩ := token
          unfold suffixes at reads
          rw [bind_run (peek_run _)] at reads
          simp only [kindOf] at reads
          split at reads
          · rw [bind_run (skip_run _)] at reads
            obtain ⟨args, behind, readArgs, further⟩ := bind_ok.mp reads
            obtain ⟨used, pos', rfl, listed⟩ := listUntil_accepts accepts.expression readArgs
            simpa [sym] using extend (.call derived (arguments_of_listed listed)) further
          · rw [bind_run (skip_run _)] at reads
            obtain ⟨found, behind, tried, further⟩ := bind_ok.mp reads
            cases found with
            | true =>
                obtain ⟨pos', rfl⟩ := (accept_true (by simp)).mp tried
                obtain ⟨access, last, readThis, further⟩ := bind_ok.mp further
                obtain ⟨rfl, note, name, entity, rfl, rfl⟩ := thisAccess_ok.mp readThis
                exact extend (.dotThis derived) further
            | false =>
                obtain ⟨-, rfl⟩ := accept_false.mp tried
                obtain ⟨name, last, readName, further⟩ := bind_ok.mp further
                obtain ⟨spelling, pos', rfl, rfl⟩ := field_ok.mp readName
                exact extend (.property derived) further
          · rw [bind_run (skip_run _)] at reads
            obtain ⟨index, behind, readIndex, further⟩ := bind_ok.mp reads
            obtain ⟨_, last, readClose, further⟩ := bind_ok.mp further
            obtain ⟨used, rfl, derivedIndex⟩ := accepts.expression readIndex
            obtain ⟨pos', rfl⟩ := sign_ok.mp readClose
            simpa [sym] using extend (.member derived derivedIndex) further
          · rw [bind_run (skip_run _)] at reads
            obtain ⟨access, last, readThis, further⟩ := bind_ok.mp reads
            obtain ⟨rfl, note, name, entity, rfl, rfl⟩ := thisAccess_ok.mp readThis
            exact extend (.this derived) further
          · split at reads
            · rw [bind_run (skip_run _)] at reads
              exact extend (.new derived) reads
            · exact absurd reads fail_ok
          · obtain ⟨_, behind, checked, further⟩ := bind_ok.mp reads
            obtain ⟨assignable, rfl⟩ := checkAssignable_ok.mp checked
            rw [bind_run (skip_run _)] at further
            exact extend (.mutationBehind derived assignable (by simp [mutations])) further
          · obtain ⟨_, behind, checked, further⟩ := bind_ok.mp reads
            obtain ⟨assignable, rfl⟩ := checkAssignable_ok.mp checked
            rw [bind_run (skip_run _)] at further
            exact extend (.mutationBehind derived assignable (by simp [mutations])) further
          · obtain ⟨rfl, rfl⟩ := pure_ok.mp reads
            exact ⟨[], rfl, by simpa using derived⟩

theorem power_accepts {nested : Nested} {keyParser : Parser Expr} (accepts : nested.Accepts)
    (keys : Accepts keyParser (Derives (.expr (.chain .logic)))) (budget : Nat) :
    Accepts (power nested keyParser budget) (Derives (.expr .power)) := by
  intro input rest value reads
  obtain ⟨first, behindFirst, readFirst, fromSuffixes⟩ := bind_ok.mp reads
  obtain ⟨base, behindBase, readBase, fromExponent⟩ := bind_ok.mp fromSuffixes
  obtain ⟨found, behind, tried, further⟩ := bind_ok.mp fromExponent
  obtain ⟨usedFirst, rfl, derivedFirst⟩ := primary_accepts accepts keys budget readFirst
  obtain ⟨usedSuffixes, rfl, derivedBase⟩ :=
    suffixes_accepts accepts (.noSuffix derivedFirst) readBase
  cases found with
  | true =>
      obtain ⟨pos, rfl⟩ := (accept_true (by simp)).mp tried
      obtain ⟨exponent, last, readExponent, done⟩ := bind_ok.mp further
      obtain ⟨rfl, rfl⟩ := pure_ok.mp done
      obtain ⟨used, rfl, derived⟩ := accepts.unary readExponent
      exact ⟨_, by simp [sym], @Derives.exponent _ _ _ _ pos derivedBase derived⟩
  | false =>
      obtain ⟨-, rfl⟩ := accept_false.mp tried
      obtain ⟨rfl, rfl⟩ := pure_ok.mp further
      exact ⟨_, by simp, .noExponent derivedBase⟩

theorem unary_accepts {nested : Nested} {keyParser : Parser Expr} (accepts : nested.Accepts)
    (keys : Accepts keyParser (Derives (.expr (.chain .logic)))) (budget : Nat) :
    Accepts (unary nested keyParser budget) (Derives (.expr .unary)) := by
  intro input rest value reads
  rw [unary, bind_run (here_run input), bind_run (peek_run input)] at reads
  split at reads
  · rename_i kind
    obtain ⟨pos, others, rfl⟩ := exists_key_of_kindOf kind
    rw [bind_run (skip_run _)] at reads
    obtain ⟨operand, behind, readOperand, done⟩ := bind_ok.mp reads
    obtain ⟨rfl, rfl⟩ := pure_ok.mp done
    obtain ⟨used, rfl, derived⟩ := accepts.unary readOperand
    exact ⟨key .typeOfKw pos :: used, rfl, .typeOf derived⟩
  · cases found : unaryOp? (kindOf input) with
    | none =>
        simp only [found] at reads
        obtain ⟨used, rfl, derived⟩ := power_accepts accepts keys budget reads
        exact ⟨used, rfl, .noOperator derived⟩
    | some op =>
        simp only [found] at reads
        obtain ⟨symbol, kind, operator⟩ := unaryOp?_eq_some.mp found
        obtain ⟨pos, others, rfl⟩ := exists_sym_of_kindOf kind
        rw [bind_run (skip_run _)] at reads
        obtain ⟨operand, behind, readOperand, further⟩ := bind_ok.mp reads
        obtain ⟨used, rfl, derived⟩ := accepts.unary readOperand
        rcases operator with ⟨operator, mutates⟩ | ⟨operator, mutates⟩
        · rw [mutates, if_neg (by simp)] at further
          obtain ⟨rfl, rfl⟩ := pure_ok.mp further
          exact ⟨sym symbol pos :: used, rfl, .negation operator derived⟩
        · rw [mutates, if_pos rfl] at further
          obtain ⟨_, _, checked, done⟩ := bind_ok.mp further
          obtain ⟨assignable, rfl⟩ := checkAssignable_ok.mp checked
          obtain ⟨rfl, rfl⟩ := pure_ok.mp done
          exact ⟨sym symbol pos :: used, rfl, .mutationBefore operator derived assignable⟩

theorem ternary_accepts {nested : Nested} {conditionParser : Parser Expr}
    (accepts : nested.Accepts)
    (conditions : Accepts conditionParser (Derives (.expr (.chain .logic)))) :
    Accepts (ternary nested conditionParser) (Derives (.expr .ternary)) := by
  intro input rest value reads
  obtain ⟨condition, behindCondition, readCondition, fromQuestion⟩ := bind_ok.mp reads
  obtain ⟨found, behind, tried, further⟩ := bind_ok.mp fromQuestion
  obtain ⟨usedCondition, rfl, derivedCondition⟩ := conditions readCondition
  cases found with
  | true =>
      obtain ⟨pos, rfl⟩ := (accept_true (by simp)).mp tried
      obtain ⟨yes, behindYes, readYes, further⟩ := bind_ok.mp further
      obtain ⟨_, behindColon, readColon, further⟩ := bind_ok.mp further
      obtain ⟨no, behindNo, readNo, done⟩ := bind_ok.mp further
      obtain ⟨rfl, rfl⟩ := pure_ok.mp done
      obtain ⟨usedYes, rfl, derivedYes⟩ := accepts.ternary readYes
      obtain ⟨pos', rfl⟩ := sign_ok.mp readColon
      obtain ⟨usedNo, rfl, derivedNo⟩ := accepts.ternary readNo
      exact ⟨_, by simp [sym],
        @Derives.conditional _ _ _ _ _ _ pos pos' derivedCondition derivedYes derivedNo⟩
  | false =>
      obtain ⟨-, rfl⟩ := accept_false.mp tried
      obtain ⟨rfl, rfl⟩ := pure_ok.mp further
      exact ⟨usedCondition, rfl, .unconditional derivedCondition⟩

theorem compound_accepts {nested : Nested} {leftParser : Parser Expr} (accepts : nested.Accepts)
    (lefts : Accepts leftParser (Derives (.expr .ternary))) :
    Accepts (compound nested leftParser) (Derives (.expr .expression)) := by
  intro input rest value reads
  obtain ⟨left, behind, readLeft, further⟩ := bind_ok.mp reads
  obtain ⟨usedLeft, rfl, derivedLeft⟩ := lefts readLeft
  rw [bind_run (peek_run behind)] at further
  cases found : compoundOp? (kindOf behind) with
  | none =>
      simp only [found] at further
      obtain ⟨rfl, rfl⟩ := pure_ok.mp further
      exact ⟨usedLeft, rfl, .plain derivedLeft⟩
  | some op =>
      simp only [found] at further
      obtain ⟨symbol, kind, operator⟩ := compoundOp?_eq_some.mp found
      obtain ⟨pos, others, rfl⟩ := exists_sym_of_kindOf kind
      rw [bind_run (skip_run _)] at further
      obtain ⟨_, _, checked, fromRight⟩ := bind_ok.mp further
      obtain ⟨assignable, rfl⟩ := checkAssignable_ok.mp checked
      obtain ⟨right, last, readRight, done⟩ := bind_ok.mp fromRight
      obtain ⟨rfl, rfl⟩ := pure_ok.mp done
      obtain ⟨usedRight, rfl, derivedRight⟩ := accepts.expression readRight
      exact ⟨_, by simp [sym],
        @Derives.compound _ _ _ _ _ _ pos derivedLeft assignable operator derivedRight⟩

/-- At every budget the parsers of expressions accept only expressions. -/
theorem nested_accepts (budget : Nat) : (nested budget).Accepts := by
  induction budget with
  | zero => constructor <;> exact fun _ _ _ reads => absurd reads fail_ok
  | succ budget ih =>
      have unaries := unary_accepts ih (logic_accepts ih.unary budget) (budget + 1)
      have ternaries := ternary_accepts ih (logic_accepts unaries (budget + 1))
      exact ⟨compound_accepts ih ternaries, ternaries, unaries⟩

end Qalam.Parser
