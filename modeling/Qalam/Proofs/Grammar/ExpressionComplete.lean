/-
# The parser of expressions finds every expression

A phrase of the grammar is read to its end and no further, whatever stands behind it, as long as
the next token does not continue the phrase at its own level or a tighter one. For a chain of
operators and for suffixes nothing is asked of the next token: the loop arrives behind the phrase
with the tree built so far and enough budget left for the tokens that remain.
-/

import Qalam.Proofs.Grammar.ExpressionSound

namespace Qalam.Grammar

/-- The strength of a level, growing from the loosest to the tightest. -/
def Level.strength : Level → Nat
  | expression => 0
  | ternary => 1
  | chain .logic => 2
  | chain .relation => 3
  | chain .sum => 4
  | chain .product => 5
  | unary | power => 6
  | suffixed => 7
  | primary => 8

/-- The strength with which a token binds to the expression before it, if it does so at all. -/
def binds : TokenKind → Option Nat
  | .symbol .plusEq | .symbol .minusEq => some 0
  | .symbol .question => some 1
  | .symbol .andAnd | .symbol .orOr => some 2
  | .symbol .eqEq | .symbol .notEq | .symbol .lt | .symbol .le | .symbol .gt | .symbol .ge => some 3
  | .symbol .plus | .symbol .minus => some 4
  | .symbol .star | .symbol .slash | .symbol .percent => some 5
  | .symbol .starStar => some 6
  | .symbol .lparen | .symbol .dot | .symbol .lbracket | .symbol .plusPlus | .symbol .minusMinus
  | .keyword .thisKw | .keyword .newKw => some 7
  | _ => none

/-- Whether a token behind an expression of a level would still be taken into it. -/
def continues (level : Level) (kind : TokenKind) : Bool :=
  (binds kind).any (level.strength ≤ ·)

/-- What does not continue a looser expression does not continue a tighter one. -/
theorem continues_tighter {looser tighter : Level} {kind : TokenKind}
    (stops : continues looser kind = false) (order : looser.strength ≤ tighter.strength) :
    continues tighter kind = false := by
  unfold continues at *
  cases bound : binds kind with
  | none => rfl
  | some strength =>
      rw [bound] at stops
      simp only [Option.any_some, decide_eq_false_iff_not] at stops ⊢
      omega

theorem Tier.operand_strength (tier : Tier) :
    (Level.chain tier).strength ≤ tier.operand.strength := by
  cases tier <;> decide

/-- Behind a complete chain stands no operator of its level. -/
theorem Tier.op?_eq_none {tier : Tier} {kind : TokenKind}
    (stops : continues (.chain tier) kind = false) : tier.op? kind = none := by
  cases found : tier.op? kind with
  | none => rfl
  | some op =>
      obtain ⟨symbol, rfl, operator⟩ := Tier.op?_eq_some.mp found
      have table : ∀ entry ∈ tier.operators, continues (.chain tier) (.symbol entry.1) = true := by
        cases tier <;> decide
      rw [table _ operator] at stops
      cases stops

/-- An operator of a level ends the operand before it. -/
theorem Tier.operator_ends {tier : Tier} {symbol : Symbol} {op : BinaryOp}
    (operator : (symbol, op) ∈ tier.operators) :
    continues tier.operand (.symbol symbol) = false := by
  have table : ∀ entry ∈ tier.operators, continues tier.operand (.symbol entry.1) = false := by
    cases tier <;> decide
  exact table _ operator

theorem compoundOp?_eq_none {kind : TokenKind} (stops : continues .expression kind = false) :
    Parser.compoundOp? kind = none := by
  cases found : Parser.compoundOp? kind with
  | none => rfl
  | some op =>
      obtain ⟨symbol, rfl, operator⟩ := compoundOp?_eq_some.mp found
      simp only [compounds, List.mem_cons, Prod.mk.injEq, List.not_mem_nil, or_false] at operator
      rcases operator with ⟨rfl, -⟩ | ⟨rfl, -⟩ <;> cases stops

/-- Parts of an expression that no prefix operator begins. -/
def Phrase.isOperand : Phrase → Bool
  | expr .power | expr .suffixed | expr .primary => true
  | _ => false

/-- Operands begin with a token of their own, not with a prefix operator. -/
theorem Derives.unprefixed {phrase : Phrase} {ts : List Token} {tree : phrase.Tree}
    (derives : Derives phrase ts tree) (operand : phrase.isOperand = true) :
    ∃ first rest, ts = first :: rest ∧ first.kind ≠ .keyword .typeOfKw ∧
      Parser.unaryOp? first.kind = none := by
  induction derives with
  | noExponent _ ih | noSuffix _ ih => exact ih rfl
  | exponent _ _ ih | call _ _ ih | property _ ih | member _ _ ih | this _ ih | dotThis _ ih
  | new _ ih | mutationBehind _ _ _ ih =>
      obtain ⟨first, rest, rfl, start⟩ := ih rfl
      exact ⟨first, _, rfl, start⟩
  | literal literal => exact ⟨_, _, rfl, by cases literal <;> simp [Parser.unaryOp?]⟩
  | ident | parenthesized | array | object =>
      exact ⟨_, _, rfl, by simp [sym, word, Parser.unaryOp?]⟩
  | _ => cases operand

end Qalam.Grammar

namespace Qalam.Parser

open Grammar

variable {α : Type}

/-- The parser for the operands of a level, for a bounded number of tokens. -/
def operandAt : Tier → Nat → Parser Expr
  | .logic, budget => relation (nested budget).unary budget
  | .relation, budget => sum (nested budget).unary budget
  | .sum, budget => product (nested budget).unary budget
  | .product, budget => (nested budget).unary

/-- The parser for a level of operators, for a bounded number of tokens. -/
def chainAt (tier : Tier) (budget : Nat) : Parser Expr :=
  chain tier.op? (operandAt tier budget) budget

/-- The parser for an operand with its suffixes, inside of which the budget applies. -/
def suffixedAt (budget : Nat) : Parser Expr := do
  let first ← primary (nested budget) (chainAt .logic budget) (budget + 1)
  suffixes (nested budget) (budget + 1) first

/-- A parser takes exactly the given tokens from the front of any input that does not continue
them, if it may read that many tokens. -/
def Takes (parser : Nat → Parser α) (level : Level) (ts : List Token) (value : α) : Prop :=
  ∀ (budget : Nat) (rest : List Token), ts.length ≤ budget →
    continues level (kindOf rest) = false → parser budget (ts ++ rest) = .ok (value, rest)

/-- A listed expression. -/
def TakesItem (ts : List Token) (e : Expr) : Prop :=
  Begins ts ∧ Takes (fun budget => (nested budget).expression) .expression ts e

/-- A listed entry of an object. -/
def TakesEntry (ts : List Token) (entry : Pair) : Prop :=
  Begins ts ∧
    Takes (fun budget => pair (chainAt .logic budget) (nested budget).expression) .expression ts
      entry

/-- What the parsers do with a phrase. -/
def Found : (phrase : Phrase) → List Token → phrase.Tree → Prop
  | .expr .expression, ts, e => Takes (fun budget => (nested budget).expression) .expression ts e
  | .expr .ternary, ts, e => Takes (fun budget => (nested budget).ternary) .ternary ts e
  | .expr (.chain tier), ts, e => ∀ (budget : Nat) (rest : List Token), ts.length ≤ budget →
      continues tier.operand (kindOf rest) = false → ∃ left, budget + 1 ≤ left + ts.length ∧
        chainAt tier budget (ts ++ rest) =
          chainRest tier.op? (operandAt tier budget) left e rest
  | .expr .unary, ts, e => Takes (fun budget => (nested budget).unary) .unary ts e
  | .expr .power, ts, e => ∀ (budget : Nat) (rest : List Token), ts.length ≤ budget + 1 →
      continues .power (kindOf rest) = false →
      power (nested budget) (chainAt .logic budget) (budget + 1) (ts ++ rest) = .ok (e, rest)
  | .expr .suffixed, ts, e => ∀ (budget : Nat) (rest : List Token), ts.length ≤ budget + 1 →
      ∃ left, budget + 2 ≤ left + ts.length ∧
        suffixedAt budget (ts ++ rest) = suffixes (nested budget) left e rest
  | .expr .primary, ts, e => ∀ (budget : Nat) (rest : List Token), ts.length ≤ budget + 1 →
      primary (nested budget) (chainAt .logic budget) (budget + 1) (ts ++ rest) = .ok (e, rest)
  | .items, ts, es => Separated TakesItem ts es
  | .arguments, ts, es => Listed TakesItem ts es
  | .entry, ts, entry => TakesEntry ts entry
  | .entries, ts, pairs => Separated TakesEntry ts pairs
  | .fields, ts, pairs => Listed TakesEntry ts pairs

/-! ## Chains of operators -/

/-- A chain ends before a token that is no operator of its level. -/
theorem chainRest_stops {tier : Tier} {operand : Parser Expr} {e : Expr} {rest : List Token}
    (stops : continues (.chain tier) (kindOf rest) = false) (budget : Nat) :
    chainRest tier.op? operand budget e rest = .ok (e, rest) := by
  cases budget with
  | zero => rfl
  | succ budget =>
      rw [chainRest, bind_run (peek_run rest), Tier.op?_eq_none stops]
      rfl

/-- A chain is read to its end. -/
theorem Found.chain {tier : Tier} {ts : List Token} {e : Expr}
    (found : Found (.expr (.chain tier)) ts e) : Takes (chainAt tier) (.chain tier) ts e := by
  intro budget rest fits stops
  obtain ⟨left, -, reads⟩ := found budget rest fits (continues_tighter stops tier.operand_strength)
  rw [reads, chainRest_stops stops]

/-- The operands of a level are read to their end. -/
theorem Found.operand {tier : Tier} {ts : List Token} {e : Expr}
    (found : Found (.expr tier.operand) ts e) : Takes (operandAt tier) tier.operand ts e := by
  cases tier with
  | product => exact found
  | logic | relation | sum => exact Found.chain found

theorem Found.single {tier : Tier} {ts : List Token} {e : Expr} (begins : Begins ts)
    (found : Found (.expr tier.operand) ts e) : Found (.expr (.chain tier)) ts e := by
  intro budget rest fits stops
  obtain ⟨first, more, rfl, -⟩ := begins
  refine ⟨budget, by simp, ?_⟩
  rw [chainAt, Parser.chain, bind_run (found.operand budget rest fits stops)]

theorem Found.operator {tier : Tier} {ts us : List Token} {left right : Expr} {symbol : Symbol}
    {op : BinaryOp} (pos : Position) (foundLeft : Found (.expr (.chain tier)) ts left)
    (operator : (symbol, op) ∈ tier.operators) (foundRight : Found (.expr tier.operand) us right) :
    Found (.expr (.chain tier)) (ts ++ sym symbol pos :: us)
      (.binary (.at left.pos) op left right) := by
  intro budget rest fits stops
  simp only [List.length_append, List.length_cons] at fits
  obtain ⟨remaining, enough, reads⟩ := foundLeft budget (sym symbol pos :: (us ++ rest))
    (by omega) (Tier.operator_ends operator)
  obtain ⟨fewer, rfl⟩ : ∃ fewer, remaining = fewer + 1 := ⟨remaining - 1, by omega⟩
  refine ⟨fewer, by simp only [List.length_append, List.length_cons]; omega, ?_⟩
  have looked : tier.op? (kindOf (sym symbol pos :: (us ++ rest))) = some op :=
    Tier.op?_eq_some.mpr ⟨symbol, rfl, operator⟩
  rw [List.append_assoc, List.cons_append, reads, chainRest, bind_run (peek_run _), looked]
  change (skip >>= _) _ = _
  rw [bind_run (skip_run _)]
  exact bind_run (foundRight.operand budget rest (by omega) stops)

/-! ## Prefix operators and powers -/

theorem nested_unary (budget : Nat) :
    (nested (budget + 1)).unary =
      unary (nested budget) (chainAt .logic budget) (budget + 1) := rfl

/-- After a prefix operator an operand is left to be read, with one token less. -/
theorem exists_budget {budget : Nat} {token : Token} {ts : List Token}
    (fits : (token :: ts).length ≤ budget) :
    ∃ fewer, budget = fewer + 1 ∧ ts.length ≤ fewer :=
  ⟨budget - 1, by simp only [List.length_cons] at fits; omega, by
    simp only [List.length_cons] at fits; omega⟩

theorem Found.typeOf {ts : List Token} {operand : Expr} (pos : Position)
    (found : Found (.expr .unary) ts operand) :
    Found (.expr .unary) (key .typeOfKw pos :: ts) (.typeOf (.at pos) operand) := by
  intro budget rest fits stops
  obtain ⟨fewer, rfl, enough⟩ := exists_budget fits
  have reads := found fewer rest enough stops
  simp only [nested_unary]
  rw [unary, bind_run (here_run _), bind_run (peek_run _), if_pos (by rfl),
    bind_run (skip_run _)]
  exact bind_run reads

/-- A prefix operator, with the check of its operand if it changes it. -/
theorem Found.before {ts : List Token} {operand : Expr} {symbol : Symbol} {op : UnaryOp}
    (pos : Position) (looked : unaryOp? (.symbol symbol) = some op)
    (found : Found (.expr .unary) ts operand)
    (checked : op.isMutation = true → operand.isAssignable = true) :
    Found (.expr .unary) (sym symbol pos :: ts) (.unary (.at pos) op .before operand) := by
  intro budget rest fits stops
  obtain ⟨fewer, rfl, enough⟩ := exists_budget fits
  have reads := found fewer rest enough stops
  simp only [nested_unary]
  rw [unary, bind_run (here_run _), bind_run (peek_run _), if_neg (by simp [kindOf, sym])]
  simp only [List.cons_append, kindOf, sym, looked]
  rw [bind_run (skip_run _), List.tail_cons, bind_run reads]
  cases mutates : op.isMutation with
  | false => rfl
  | true =>
      rw [if_pos rfl, bind_run (checkAssignable_run (checked mutates) .increment rest)]
      rfl

theorem Found.noOperator {ts : List Token} {e : Expr} (derives : Derives (.expr .power) ts e)
    (found : Found (.expr .power) ts e) : Found (.expr .unary) ts e := by
  intro budget rest fits stops
  obtain ⟨first, more, rfl, noTypeOf, noOperator⟩ := derives.unprefixed rfl
  obtain ⟨fewer, rfl, -⟩ := exists_budget fits
  simp only [nested_unary]
  rw [unary, bind_run (here_run _), bind_run (peek_run _), if_neg (by simpa [kindOf] using noTypeOf)]
  simp only [List.cons_append, kindOf, noOperator]
  exact found fewer rest fits stops

/-- Suffixes end before a token that is none. -/
theorem suffixes_stops {nested : Nested} {e : Expr} {rest : List Token}
    (stops : continues .suffixed (kindOf rest) = false) (budget : Nat) :
    suffixes nested budget e rest = .ok (e, rest) := by
  cases budget with
  | zero => rfl
  | succ budget =>
      unfold suffixes
      rw [bind_run (peek_run rest)]
      generalize kindOf rest = kind at stops ⊢
      split <;> first | rfl | cases stops

theorem power_eq (budget : Nat) (input : List Token) :
    power (nested budget) (chainAt .logic budget) (budget + 1) input =
      (do
        let base ← suffixedAt budget
        if ← accept (.symbol .starStar) then
          let exponent ← (nested budget).unary
          return .binary (.at base.pos) .pow base exponent
        else
          return base : Parser Expr) input := by
  rw [power, suffixedAt, bind_assoc]

/-- An operand is read with all its suffixes. -/
theorem Found.suffixed {ts : List Token} {e : Expr} (found : Found (.expr .suffixed) ts e)
    {budget : Nat} (rest : List Token) (fits : ts.length ≤ budget + 1)
    (stops : continues .suffixed (kindOf rest) = false) :
    suffixedAt budget (ts ++ rest) = .ok (e, rest) := by
  obtain ⟨left, -, reads⟩ := found budget rest fits
  rw [reads, suffixes_stops stops]

theorem Found.noExponent {ts : List Token} {e : Expr} (found : Found (.expr .suffixed) ts e) :
    Found (.expr .power) ts e := by
  intro budget rest fits stops
  have noPower : kindOf rest ≠ .symbol .starStar := by
    intro kind
    rw [kind] at stops
    cases stops
  rw [power_eq, bind_run (found.suffixed rest fits (continues_tighter stops (by decide))),
    bind_run (accept_false.mpr ⟨noPower, rfl⟩)]
  rfl

theorem Found.exponent {ts us : List Token} {base exponent : Expr} (pos : Position)
    (foundBase : Found (.expr .suffixed) ts base) (foundExponent : Found (.expr .unary) us exponent)
    (begins : Begins ts) :
    Found (.expr .power) (ts ++ sym .starStar pos :: us)
      (.binary (.at base.pos) .pow base exponent) := by
  intro budget rest fits stops
  have nonempty := begins.length_pos
  simp only [List.length_append, List.length_cons] at fits
  have reads := foundExponent budget rest (by omega) stops
  rw [power_eq, List.append_assoc, List.cons_append,
    bind_run (foundBase.suffixed (sym .starStar pos :: (us ++ rest)) (by omega) rfl),
    bind_run (accept_sym .starStar pos (us ++ rest)), if_pos rfl]
  exact bind_run reads

/-! ## Lists -/

/-- Arguments and elements are read up to the closing symbol. -/
theorem items_take {budget room : Nat} {close : Symbol} {ts rest : List Token} {es : List Expr}
    {pos : Position} (listed : Listed TakesItem ts es) (fits : ts.length ≤ budget)
    (enough : ts.length ≤ room) (closing : continues .expression (.symbol close) = false)
    (different : close ≠ .comma) (outside : beginsExpression (.symbol close) = false) :
    listUntil close (nested budget).expression room (ts ++ sym close pos :: rest) =
      .ok (es, rest) := by
  have finds : Finds (nested budget).expression TakesItem budget
      (fun kind => !continues .expression kind) := by
    intro used value behind takes within follow
    exact takes.2 budget behind within (by simpa using follow)
  refine listUntil_finds finds rfl (by simp [closing]) different ?_ listed fits enough
  rintro used value ⟨⟨first, more, rfl, start⟩, -⟩
  refine ⟨first, more, rfl, ?_⟩
  rintro same
  rw [same, outside] at start
  cases start

/-- The entries of an object are read up to its closing brace. -/
theorem entries_take {budget room : Nat} {ts rest : List Token} {pairs : List Pair}
    {pos : Position} (listed : Listed TakesEntry ts pairs) (fits : ts.length ≤ budget)
    (enough : ts.length ≤ room) :
    listUntil .rbrace (pair (chainAt .logic budget) (nested budget).expression) room
      (ts ++ sym .rbrace pos :: rest) = .ok (pairs, rest) := by
  have finds : Finds (pair (chainAt .logic budget) (nested budget).expression) TakesEntry budget
      (fun kind => !continues .expression kind) := by
    intro used value behind takes within follow
    exact takes.2 budget behind within (by simpa using follow)
  refine listUntil_finds finds rfl rfl (by decide) ?_ listed fits enough
  rintro used value ⟨⟨first, more, rfl, start⟩, -⟩
  refine ⟨first, more, rfl, ?_⟩
  rintro same
  rw [same] at start
  cases start

/-! ## Suffixes -/

theorem Found.noSuffix {ts : List Token} {e : Expr} (begins : Begins ts)
    (found : Found (.expr .primary) ts e) : Found (.expr .suffixed) ts e := by
  intro budget rest fits
  have nonempty := begins.length_pos
  exact ⟨budget + 1, by omega, bind_run (found budget rest fits)⟩

/-- One more suffix: it is enough to read it with the budget that is left. -/
theorem Found.suffix {ts suffix : List Token} {e longer : Expr}
    (found : Found (.expr .suffixed) ts e) (nonempty : 0 < suffix.length)
    (reads : ∀ (budget left : Nat) (rest : List Token), suffix.length ≤ budget + 1 →
      suffix.length ≤ left + 1 → suffixes (nested budget) (left + 1) e (suffix ++ rest) =
        suffixes (nested budget) left longer rest) :
    Found (.expr .suffixed) (ts ++ suffix) longer := by
  intro budget rest fits
  simp only [List.length_append] at fits
  obtain ⟨remaining, enough, before⟩ := found budget (suffix ++ rest) (by omega)
  obtain ⟨left, rfl⟩ : ∃ left, remaining = left + 1 := ⟨remaining - 1, by omega⟩
  refine ⟨left, by simp only [List.length_append]; omega, ?_⟩
  rw [List.append_assoc, before, reads budget left rest (by omega) (by omega)]

theorem Found.call {ts us : List Token} {callee : Expr} {args : List Expr} (pos pos' : Position)
    (found : Found (.expr .suffixed) ts callee) (arguments : Found .arguments us args) :
    Found (.expr .suffixed) (ts ++ sym .lparen pos :: (us ++ [sym .rparen pos']))
      (.call (.at callee.pos) callee args) := by
  refine found.suffix (by simp) ?_
  intro budget left rest fits enough
  simp only [List.length_append, List.length_cons, List.length_nil] at fits enough
  have reads : listUntil .rparen (nested budget).expression left
      (us ++ sym .rparen pos' :: rest) = .ok (args, rest) :=
    items_take arguments (by omega) (by omega) rfl (by decide) rfl
  rw [List.cons_append, List.append_assoc]
  change (listUntil .rparen (nested budget).expression left >>= fun args =>
    suffixes (nested budget) left (.call (.at callee.pos) callee args)) _ = _
  exact bind_run reads

theorem Found.property {ts : List Token} {base : Expr} {name : String} (pos pos' : Position)
    (found : Found (.expr .suffixed) ts base) :
    Found (.expr .suffixed) (ts ++ [sym .dot pos, Grammar.word name pos'])
      (.property (.at base.pos) base ⟨name, .at pos'⟩) :=
  found.suffix (by simp) fun _ _ _ _ _ => rfl

theorem Found.member {ts us : List Token} {base index : Expr} (pos pos' : Position)
    (found : Found (.expr .suffixed) ts base) (inner : Found (.expr .expression) us index) :
    Found (.expr .suffixed) (ts ++ sym .lbracket pos :: (us ++ [sym .rbracket pos']))
      (.member (.at base.pos) base index) := by
  refine found.suffix (by simp) ?_
  intro budget left rest fits _
  simp only [List.length_append, List.length_cons, List.length_nil] at fits
  have reads := inner budget (sym .rbracket pos' :: rest) (by omega) rfl
  rw [List.cons_append, List.append_assoc]
  change ((nested budget).expression >>= fun index => sign .rbracket >>= fun _ =>
    suffixes (nested budget) left (.member (.at base.pos) base index)) _ = _
  refine (bind_run reads).trans ?_
  exact bind_run (sign_run .rbracket pos' rest)

theorem Found.this {ts : List Token} {note : Note} {name : String} {entity : Option EntityId}
    (pos : Position) (found : Found (.expr .suffixed) ts (.ident note name entity)) :
    Found (.expr .suffixed) (ts ++ [key .thisKw pos]) (.this (.at note.pos) ⟨name, note⟩) :=
  found.suffix (by simp) fun _ _ _ _ _ => rfl

theorem Found.dotThis {ts : List Token} {note : Note} {name : String} {entity : Option EntityId}
    (pos pos' : Position) (found : Found (.expr .suffixed) ts (.ident note name entity)) :
    Found (.expr .suffixed) (ts ++ [sym .dot pos, key .thisKw pos'])
      (.this (.at note.pos) ⟨name, note⟩) :=
  found.suffix (by simp) fun _ _ _ _ _ => rfl

theorem Found.new {ts : List Token} {note : Note} {callee : Expr} {args : List Expr}
    (pos : Position) (found : Found (.expr .suffixed) ts (.call note callee args)) :
    Found (.expr .suffixed) (ts ++ [key .newKw pos]) (.new (.at note.pos) callee args) :=
  found.suffix (by simp) fun _ _ _ _ _ => rfl

theorem Found.mutationBehind {ts : List Token} {operand : Expr} {symbol : Symbol} {op : UnaryOp}
    (pos : Position) (found : Found (.expr .suffixed) ts operand)
    (assignable : operand.isAssignable = true) (operator : (symbol, op) ∈ mutations) :
    Found (.expr .suffixed) (ts ++ [sym symbol pos])
      (.unary (.at operand.pos) op .behind operand) := by
  refine found.suffix (by simp) ?_
  intro budget left rest _ _
  simp only [mutations, List.mem_cons, Prod.mk.injEq, List.not_mem_nil, or_false] at operator
  rcases operator with ⟨rfl, rfl⟩ | ⟨rfl, rfl⟩
  all_goals
    change (checkAssignable operand .increment >>= fun _ => skip >>= fun _ =>
      suffixes (nested budget) left (.unary (.at operand.pos) _ .behind operand)) _ = _
    exact bind_run (checkAssignable_run assignable .increment _)

/-! ## Expressions that are closed in themselves -/

theorem Found.literal {kind : TokenKind} {value : Literal} (pos : Position)
    (literal : IsLiteral kind value) :
    Found (.expr .primary) [⟨kind, pos⟩] (.literal (.at pos) value) := by
  intro budget rest _
  cases literal <;> rfl

theorem Found.parenthesized {ts : List Token} {e : Expr} (pos pos' : Position)
    (found : Found (.expr .expression) ts e) :
    Found (.expr .primary) (sym .lparen pos :: (ts ++ [sym .rparen pos'])) e := by
  intro budget rest fits
  simp only [List.length_append, List.length_cons, List.length_nil] at fits
  have reads := found budget (sym .rparen pos' :: rest) (by omega) rfl
  rw [List.cons_append, List.append_assoc]
  change ((nested budget).expression >>= fun e => sign .rparen >>= fun _ => pure e) _ = _
  refine (bind_run reads).trans ?_
  exact bind_run (sign_run .rparen pos' rest)

theorem Found.array {ts : List Token} {elements : List Expr} (pos pos' : Position)
    (found : Found .arguments ts elements) :
    Found (.expr .primary) (sym .lbracket pos :: (ts ++ [sym .rbracket pos']))
      (.array (.at pos) elements) := by
  intro budget rest fits
  simp only [List.length_append, List.length_cons, List.length_nil] at fits
  have reads : listUntil .rbracket (nested budget).expression (budget + 1)
      (ts ++ sym .rbracket pos' :: rest) = .ok (elements, rest) :=
    items_take found (by omega) (by omega) rfl (by decide) rfl
  rw [List.cons_append, List.append_assoc]
  change (listUntil .rbracket (nested budget).expression (budget + 1) >>= fun elements =>
    pure (Expr.array (.at pos) elements)) _ = _
  exact bind_run reads

theorem Found.object {ts : List Token} {pairs : List Pair} (pos pos' : Position)
    (found : Found .fields ts pairs) :
    Found (.expr .primary) (sym .lbrace pos :: (ts ++ [sym .rbrace pos']))
      (.object (.at pos) pairs) := by
  intro budget rest fits
  simp only [List.length_append, List.length_cons, List.length_nil] at fits
  have reads : listUntil .rbrace (pair (chainAt .logic budget) (nested budget).expression)
      (budget + 1) (ts ++ sym .rbrace pos' :: rest) = .ok (pairs, rest) :=
    entries_take found (by omega) (by omega)
  rw [List.cons_append, List.append_assoc]
  change (listUntil .rbrace (pair (chainAt .logic budget) (nested budget).expression)
    (budget + 1) >>= fun pairs => pure (Expr.object (.at pos) pairs)) _ = _
  exact bind_run reads

theorem Found.entry {first : Token} {ts us : List Token} {key value : Expr} (pos : Position)
    (begins : Begins (first :: ts)) (foundKey : Found (.expr (.chain .logic)) (first :: ts) key)
    (foundValue : Found (.expr .expression) us value) :
    Found .entry (first :: ts ++ sym .colon pos :: us) (.mk first.pos key value none) := by
  refine ⟨begins.append _, ?_⟩
  intro budget rest fits stops
  simp only [List.length_append, List.length_cons] at fits
  have readKey := foundKey.chain budget (sym .colon pos :: (us ++ rest))
    (by simp only [List.length_cons]; omega) rfl
  have readValue := foundValue budget rest (by omega) stops
  rw [List.append_assoc]
  change (here >>= fun pos => chainAt .logic budget >>= fun key => sign .colon >>= fun _ =>
    (nested budget).expression >>= fun value => pure (Pair.mk pos key value none)) _ = _
  rw [bind_run (here_run _)]
  refine (bind_run readKey).trans ?_
  rw [bind_run (sign_run .colon pos (us ++ rest))]
  exact bind_run readValue

/-! ## The loosest levels -/

theorem nested_ternary (budget : Nat) :
    (nested (budget + 1)).ternary = ternary (nested budget) (chainAt .logic (budget + 1)) := rfl

theorem nested_expression (budget : Nat) :
    (nested (budget + 1)).expression = compound (nested budget) (nested (budget + 1)).ternary :=
  rfl

theorem Found.unconditional {ts : List Token} {e : Expr} (begins : Begins ts)
    (found : Found (.expr (.chain .logic)) ts e) : Found (.expr .ternary) ts e := by
  intro budget rest fits stops
  have nonempty := begins.length_pos
  obtain ⟨fewer, rfl⟩ : ∃ fewer, budget = fewer + 1 := ⟨budget - 1, by omega⟩
  have reads := found.chain (fewer + 1) rest fits (continues_tighter stops (by decide))
  have noQuestion : kindOf rest ≠ .symbol .question := by
    intro kind
    rw [kind] at stops
    cases stops
  simp only [nested_ternary]
  rw [ternary, bind_run reads, bind_run (accept_false.mpr ⟨noQuestion, rfl⟩)]
  rfl

theorem Found.conditional {ts us vs : List Token} {condition yes no : Expr} (pos pos' : Position)
    (foundCondition : Found (.expr (.chain .logic)) ts condition)
    (foundYes : Found (.expr .ternary) us yes) (foundNo : Found (.expr .ternary) vs no) :
    Found (.expr .ternary) (ts ++ sym .question pos :: (us ++ sym .colon pos' :: vs))
      (.ternary (.at condition.pos) condition yes no) := by
  intro budget rest fits stops
  simp only [List.length_append, List.length_cons] at fits
  obtain ⟨fewer, rfl⟩ : ∃ fewer, budget = fewer + 1 := ⟨budget - 1, by omega⟩
  have readCondition := foundCondition.chain (fewer + 1)
    (sym .question pos :: (us ++ sym .colon pos' :: (vs ++ rest))) (by omega) rfl
  have readYes := foundYes fewer (sym .colon pos' :: (vs ++ rest)) (by omega) rfl
  have readNo := foundNo fewer rest (by omega) stops
  simp only [nested_ternary, List.append_assoc, List.cons_append]
  rw [ternary, bind_run readCondition, bind_run (accept_sym .question pos _), if_pos rfl,
    bind_run readYes, bind_run (sign_run .colon pos' (vs ++ rest))]
  exact bind_run readNo

theorem Found.plain {ts : List Token} {e : Expr} (begins : Begins ts)
    (found : Found (.expr .ternary) ts e) : Found (.expr .expression) ts e := by
  intro budget rest fits stops
  have nonempty := begins.length_pos
  obtain ⟨fewer, rfl⟩ : ∃ fewer, budget = fewer + 1 := ⟨budget - 1, by omega⟩
  have reads := found (fewer + 1) rest fits (continues_tighter stops (by decide))
  simp only [nested_expression]
  rw [compound, bind_run reads, bind_run (peek_run rest), compoundOp?_eq_none stops]
  rfl

theorem Found.compound {ts us : List Token} {left right : Expr} {symbol : Symbol} {op : BinaryOp}
    (pos : Position) (foundLeft : Found (.expr .ternary) ts left)
    (assignable : left.isAssignable = true) (operator : (symbol, op) ∈ compounds)
    (foundRight : Found (.expr .expression) us right) :
    Found (.expr .expression) (ts ++ sym symbol pos :: us)
      (.binary (.at left.pos) op left right) := by
  intro budget rest fits stops
  simp only [List.length_append, List.length_cons] at fits
  obtain ⟨fewer, rfl⟩ : ∃ fewer, budget = fewer + 1 := ⟨budget - 1, by omega⟩
  have ends : continues .ternary (.symbol symbol) = false := by
    simp only [compounds, List.mem_cons, Prod.mk.injEq, List.not_mem_nil, or_false] at operator
    rcases operator with ⟨rfl, -⟩ | ⟨rfl, -⟩ <;> rfl
  have readLeft := foundLeft (fewer + 1) (sym symbol pos :: (us ++ rest)) (by omega) ends
  have readRight := foundRight fewer rest (by omega) stops
  have looked : compoundOp? (kindOf (sym symbol pos :: (us ++ rest))) = some op :=
    compoundOp?_eq_some.mpr ⟨symbol, rfl, operator⟩
  simp only [nested_expression, List.append_assoc, List.cons_append]
  rw [Parser.compound, bind_run readLeft, bind_run (peek_run _), looked]
  change (skip >>= _) _ = _
  rw [bind_run (skip_run _), bind_run (checkAssignable_run assignable .compoundAssignment _)]
  exact bind_run readRight

/-- The parsers find every phrase of the grammar. -/
theorem found_of_derives {phrase : Phrase} {ts : List Token} {tree : phrase.Tree}
    (derives : Derives phrase ts tree) : Found phrase ts tree := by
  induction derives with
  | plain derived ih => exact .plain (derived.begins rfl) ih
  | compound _ assignable operator _ ihLeft ihRight =>
      exact .compound _ ihLeft assignable operator ihRight
  | unconditional derived ih => exact .unconditional (derived.begins rfl) ih
  | conditional _ _ _ ihCondition ihYes ihNo => exact .conditional _ _ ihCondition ihYes ihNo
  | single derived ih => exact .single (derived.begins rfl) ih
  | operator _ operator _ ihLeft ihRight => exact .operator _ ihLeft operator ihRight
  | typeOf _ ih => exact .typeOf _ ih
  | negation operator _ ih =>
      refine .before _ (unaryOp?_eq_some.mpr ⟨_, rfl, .inl ⟨operator, ?_⟩⟩) ih ?_
      all_goals
        simp only [negations, List.mem_cons, Prod.mk.injEq, List.not_mem_nil, or_false] at operator
        rcases operator with ⟨-, rfl⟩ | ⟨-, rfl⟩ <;> simp [UnaryOp.isMutation]
  | mutationBefore operator _ assignable ih =>
      refine .before _ (unaryOp?_eq_some.mpr ⟨_, rfl, .inr ⟨operator, ?_⟩⟩) ih fun _ => assignable
      simp only [mutations, List.mem_cons, Prod.mk.injEq, List.not_mem_nil, or_false] at operator
      rcases operator with ⟨-, rfl⟩ | ⟨-, rfl⟩ <;> rfl
  | noOperator derived ih => exact .noOperator derived ih
  | noExponent _ ih => exact .noExponent ih
  | exponent derived _ ihBase ihExponent =>
      exact .exponent _ ihBase ihExponent (derived.begins rfl)
  | noSuffix derived ih => exact .noSuffix (derived.begins rfl) ih
  | call _ _ ih ihArguments => exact .call _ _ ih ihArguments
  | property _ ih => exact .property _ _ ih
  | member _ _ ih ihIndex => exact .member _ _ ih ihIndex
  | this _ ih => exact .this _ ih
  | dotThis _ ih => exact .dotThis _ _ ih
  | new _ ih => exact .new _ ih
  | mutationBehind _ assignable operator ih => exact .mutationBehind _ ih assignable operator
  | literal literal => exact .literal _ literal
  | ident => exact fun _ _ _ => rfl
  | parenthesized _ ih => exact .parenthesized _ _ ih
  | array _ ih => exact .array _ _ ih
  | object _ ih => exact .object _ _ ih
  | lastItem derived ih => exact Separated.last ⟨derived.begins rfl, ih⟩
  | nextItem derived _ ih ihOthers => exact Separated.next ⟨derived.begins rfl, ih⟩ ihOthers
  | noArguments => exact Listed.none
  | someArguments _ ih => exact Listed.some ih
  | entry derived _ ihKey ihValue => exact .entry _ (derived.begins rfl) ihKey ihValue
  | lastEntry _ ih => exact Separated.last ih
  | nextEntry _ _ ih ihOthers => exact Separated.next ih ihOthers
  | noFields => exact Listed.none
  | someFields _ ih => exact Listed.some ih

/-- Expressions of a bounded number of tokens are found. -/
theorem nested_finds (budget : Nat) :
    Finds (nested budget).expression (Derives (.expr .expression)) budget
      (fun kind => !continues .expression kind) := by
  intro used value rest derives fits follow
  exact found_of_derives derives budget rest fits (by simpa using follow)

end Qalam.Parser
