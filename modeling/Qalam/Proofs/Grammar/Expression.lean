/-
# The grammar of expressions, by its rules

Which sequences of tokens are expressions, and the tree that each rule builds. The rules are
stated without a reading strategy: nothing says how far an operand reaches or which rule is tried
first. From the loosest to the tightest: compound assignment, the conditional, four levels of
operators that associate to the left, prefix operators, powers, suffixes, and what is closed in
itself. A rule that builds a node gives it the position of its first operand, and a rule that
begins with a token of its own the position of that token.
-/

import Qalam.Token
import Qalam.Tree

namespace Qalam.Grammar

/-- A symbol at a position. -/
def sym (symbol : Symbol) (pos : Position) : Token := ⟨.symbol symbol, pos⟩

/-- A keyword at a position. -/
def key (keyword : Keyword) (pos : Position) : Token := ⟨.keyword keyword, pos⟩

/-- An identifier at a position. -/
def word (name : String) (pos : Position) : Token := ⟨.ident name, pos⟩

/-- One or more items with commas between them. -/
inductive Separated {α : Type} (item : List Token → α → Prop) : List Token → List α → Prop
  | last {ts : List Token} {x : α} : item ts x → Separated item ts [x]
  | next {ts us : List Token} {x : α} {xs : List α} {pos : Position} :
      item ts x → Separated item us xs → Separated item (ts ++ sym .comma pos :: us) (x :: xs)

/-- Any number of items with commas between them. -/
inductive Listed {α : Type} (item : List Token → α → Prop) : List Token → List α → Prop
  | none : Listed item [] []
  | some {ts : List Token} {xs : List α} : Separated item ts xs → Listed item ts xs

/-- Any number of items one after the other. -/
inductive Sequence {α : Type} (item : List Token → α → Prop) : List Token → List α → Prop
  | nil : Sequence item [] []
  | cons {ts us : List Token} {x : α} {xs : List α} :
      item ts x → Sequence item us xs → Sequence item (ts ++ us) (x :: xs)

/-- The levels of operators that associate to the left, the loosest one first. -/
inductive Tier
  | logic | relation | sum | product
  deriving DecidableEq

/-- The operators of a level. -/
def Tier.operators : Tier → List (Symbol × BinaryOp)
  | logic => [(.andAnd, .and), (.orOr, .or)]
  | relation => [(.eqEq, .eq), (.notEq, .ne), (.lt, .lt), (.le, .le), (.gt, .gt), (.ge, .ge)]
  | sum => [(.plus, .add), (.minus, .sub)]
  | product => [(.star, .mul), (.slash, .div), (.percent, .mod)]

/-- Compound assignments. -/
def compounds : List (Symbol × BinaryOp) := [(.plusEq, .addAssign), (.minusEq, .subAssign)]

/-- Prefix operators that leave their operand as it is. -/
def negations : List (Symbol × UnaryOp) := [(.minus, .neg), (.bang, .not)]

/-- Operators that change their operand, before or behind it. -/
def mutations : List (Symbol × UnaryOp) :=
  [(.plusPlus, .increment), (.minusMinus, .decrement)]

/-- The constants that are a single token. -/
inductive IsLiteral : TokenKind → Literal → Prop
  | int (value : Nat) : IsLiteral (.int value) (.int value)
  | float (value : Binary64) : IsLiteral (.float value) (.number value)
  | str (value : String) : IsLiteral (.str value) (.str value)
  | yes : IsLiteral (.keyword .trueKw) (.bool true)
  | no : IsLiteral (.keyword .falseKw) (.bool false)
  | null : IsLiteral (.keyword .nullKw) .null
  | undefined : IsLiteral (.keyword .undefinedKw) .undefined

/-- How tightly an expression is bound together, the loosest first. -/
inductive Level
  | expression | ternary | chain (tier : Tier) | unary | power | suffixed | primary
  deriving DecidableEq

/-- The level of what the operators of a level stand between. -/
def Tier.operand : Tier → Level
  | logic => .chain .relation
  | relation => .chain .sum
  | sum => .chain .product
  | product => .unary

/-- The parts of an expression that the rules define. `items` are one or more expressions with
commas between them, `arguments` any number of them; `entries` and `fields` likewise for the
entries of an object. -/
inductive Phrase
  | expr (level : Level)
  | items | arguments | entry | entries | fields

/-- What is built for a part of an expression. -/
@[reducible]
def Phrase.Tree : Phrase → Type
  | expr _ => Expr
  | items | arguments => List Expr
  | entry => Pair
  | entries | fields => List Pair

/-- The rules of the grammar of expressions. -/
inductive Derives : (phrase : Phrase) → List Token → phrase.Tree → Prop
  | plain {ts : List Token} {e : Expr} :
      Derives (.expr .ternary) ts e → Derives (.expr .expression) ts e
  | compound {ts us : List Token} {left right : Expr} {symbol : Symbol} {op : BinaryOp}
      {pos : Position} :
      Derives (.expr .ternary) ts left → left.isAssignable = true → (symbol, op) ∈ compounds →
      Derives (.expr .expression) us right →
      Derives (.expr .expression) (ts ++ sym symbol pos :: us)
        (.binary (.at left.pos) op left right)
  | unconditional {ts : List Token} {e : Expr} :
      Derives (.expr (.chain .logic)) ts e → Derives (.expr .ternary) ts e
  | conditional {ts us vs : List Token} {condition yes no : Expr} {pos pos' : Position} :
      Derives (.expr (.chain .logic)) ts condition → Derives (.expr .ternary) us yes →
      Derives (.expr .ternary) vs no →
      Derives (.expr .ternary) (ts ++ sym .question pos :: (us ++ sym .colon pos' :: vs))
        (.ternary (.at condition.pos) condition yes no)
  | single {tier : Tier} {ts : List Token} {e : Expr} :
      Derives (.expr tier.operand) ts e → Derives (.expr (.chain tier)) ts e
  | operator {tier : Tier} {ts us : List Token} {left right : Expr} {symbol : Symbol}
      {op : BinaryOp} {pos : Position} :
      Derives (.expr (.chain tier)) ts left → (symbol, op) ∈ tier.operators →
      Derives (.expr tier.operand) us right →
      Derives (.expr (.chain tier)) (ts ++ sym symbol pos :: us)
        (.binary (.at left.pos) op left right)
  | typeOf {ts : List Token} {operand : Expr} {pos : Position} :
      Derives (.expr .unary) ts operand →
      Derives (.expr .unary) (key .typeOfKw pos :: ts) (.typeOf (.at pos) operand)
  | negation {ts : List Token} {operand : Expr} {symbol : Symbol} {op : UnaryOp}
      {pos : Position} :
      (symbol, op) ∈ negations → Derives (.expr .unary) ts operand →
      Derives (.expr .unary) (sym symbol pos :: ts) (.unary (.at pos) op .before operand)
  | mutationBefore {ts : List Token} {operand : Expr} {symbol : Symbol} {op : UnaryOp}
      {pos : Position} :
      (symbol, op) ∈ mutations → Derives (.expr .unary) ts operand → operand.isAssignable = true →
      Derives (.expr .unary) (sym symbol pos :: ts) (.unary (.at pos) op .before operand)
  | noOperator {ts : List Token} {e : Expr} :
      Derives (.expr .power) ts e → Derives (.expr .unary) ts e
  | noExponent {ts : List Token} {e : Expr} :
      Derives (.expr .suffixed) ts e → Derives (.expr .power) ts e
  | exponent {ts us : List Token} {base exponent : Expr} {pos : Position} :
      Derives (.expr .suffixed) ts base → Derives (.expr .unary) us exponent →
      Derives (.expr .power) (ts ++ sym .starStar pos :: us)
        (.binary (.at base.pos) .pow base exponent)
  | noSuffix {ts : List Token} {e : Expr} :
      Derives (.expr .primary) ts e → Derives (.expr .suffixed) ts e
  | call {ts us : List Token} {callee : Expr} {args : List Expr} {pos pos' : Position} :
      Derives (.expr .suffixed) ts callee → Derives .arguments us args →
      Derives (.expr .suffixed) (ts ++ sym .lparen pos :: (us ++ [sym .rparen pos']))
        (.call (.at callee.pos) callee args)
  | property {ts : List Token} {base : Expr} {name : String} {pos pos' : Position} :
      Derives (.expr .suffixed) ts base →
      Derives (.expr .suffixed) (ts ++ [sym .dot pos, word name pos'])
        (.property (.at base.pos) base ⟨name, .at pos'⟩)
  | member {ts us : List Token} {base index : Expr} {pos pos' : Position} :
      Derives (.expr .suffixed) ts base → Derives (.expr .expression) us index →
      Derives (.expr .suffixed) (ts ++ sym .lbracket pos :: (us ++ [sym .rbracket pos']))
        (.member (.at base.pos) base index)
  | this {ts : List Token} {note : Note} {name : String} {entity : Option EntityId}
      {pos : Position} :
      Derives (.expr .suffixed) ts (.ident note name entity) →
      Derives (.expr .suffixed) (ts ++ [key .thisKw pos]) (.this (.at note.pos) ⟨name, note⟩)
  | dotThis {ts : List Token} {note : Note} {name : String} {entity : Option EntityId}
      {pos pos' : Position} :
      Derives (.expr .suffixed) ts (.ident note name entity) →
      Derives (.expr .suffixed) (ts ++ [sym .dot pos, key .thisKw pos'])
        (.this (.at note.pos) ⟨name, note⟩)
  | new {ts : List Token} {note : Note} {callee : Expr} {args : List Expr} {pos : Position} :
      Derives (.expr .suffixed) ts (.call note callee args) →
      Derives (.expr .suffixed) (ts ++ [key .newKw pos]) (.new (.at note.pos) callee args)
  | mutationBehind {ts : List Token} {operand : Expr} {symbol : Symbol} {op : UnaryOp}
      {pos : Position} :
      Derives (.expr .suffixed) ts operand → operand.isAssignable = true → (symbol, op) ∈ mutations →
      Derives (.expr .suffixed) (ts ++ [sym symbol pos])
        (.unary (.at operand.pos) op .behind operand)
  | literal {kind : TokenKind} {value : Literal} {pos : Position} :
      IsLiteral kind value → Derives (.expr .primary) [⟨kind, pos⟩] (.literal (.at pos) value)
  | ident {name : String} {pos : Position} :
      Derives (.expr .primary) [word name pos] (.ident (.at pos) name none)
  | parenthesized {ts : List Token} {e : Expr} {pos pos' : Position} :
      Derives (.expr .expression) ts e →
      Derives (.expr .primary) (sym .lparen pos :: (ts ++ [sym .rparen pos'])) e
  | array {ts : List Token} {elements : List Expr} {pos pos' : Position} :
      Derives .arguments ts elements →
      Derives (.expr .primary) (sym .lbracket pos :: (ts ++ [sym .rbracket pos']))
        (.array (.at pos) elements)
  | object {ts : List Token} {pairs : List Pair} {pos pos' : Position} :
      Derives .fields ts pairs →
      Derives (.expr .primary) (sym .lbrace pos :: (ts ++ [sym .rbrace pos']))
        (.object (.at pos) pairs)
  | lastItem {ts : List Token} {e : Expr} :
      Derives (.expr .expression) ts e → Derives .items ts [e]
  | nextItem {ts us : List Token} {e : Expr} {others : List Expr} {pos : Position} :
      Derives (.expr .expression) ts e → Derives .items us others →
      Derives .items (ts ++ sym .comma pos :: us) (e :: others)
  | noArguments : Derives .arguments [] []
  | someArguments {ts : List Token} {es : List Expr} :
      Derives .items ts es → Derives .arguments ts es
  | entry {first : Token} {ts us : List Token} {key value : Expr} {pos : Position} :
      Derives (.expr (.chain .logic)) (first :: ts) key → Derives (.expr .expression) us value →
      Derives .entry (first :: ts ++ sym .colon pos :: us) (.mk first.pos key value none)
  | lastEntry {ts : List Token} {pair : Pair} : Derives .entry ts pair → Derives .entries ts [pair]
  | nextEntry {ts us : List Token} {pair : Pair} {others : List Pair} {pos : Position} :
      Derives .entry ts pair → Derives .entries us others →
      Derives .entries (ts ++ sym .comma pos :: us) (pair :: others)
  | noFields : Derives .fields [] []
  | someFields {ts : List Token} {pairs : List Pair} :
      Derives .entries ts pairs → Derives .fields ts pairs

/-- Tokens with which an expression can begin. -/
def beginsExpression : TokenKind → Bool
  | .int _ | .float _ | .str _ | .ident _ => true
  | .keyword .trueKw | .keyword .falseKw | .keyword .nullKw | .keyword .undefinedKw
  | .keyword .typeOfKw => true
  | .symbol .lparen | .symbol .lbracket | .symbol .lbrace => true
  | .symbol .minus | .symbol .bang | .symbol .plusPlus | .symbol .minusMinus => true
  | _ => false

/-- Parts of an expression that can be empty. -/
def Phrase.mayBeEmpty : Phrase → Bool
  | arguments | fields => true
  | _ => false

/-- A sequence of tokens that begins like an expression. -/
def Begins (ts : List Token) : Prop :=
  ∃ first rest, ts = first :: rest ∧ beginsExpression first.kind = true

theorem Begins.append {ts : List Token} (begins : Begins ts) (us : List Token) :
    Begins (ts ++ us) := by
  obtain ⟨first, rest, rfl, start⟩ := begins
  exact ⟨first, rest ++ us, rfl, start⟩

theorem Begins.length_pos {ts : List Token} (begins : Begins ts) : 0 < ts.length := by
  obtain ⟨first, rest, rfl, -⟩ := begins
  exact Nat.succ_pos _

/-- What cannot be empty begins like an expression. -/
theorem Derives.begins {phrase : Phrase} {ts : List Token} {tree : phrase.Tree}
    (derives : Derives phrase ts tree) (full : phrase.mayBeEmpty = false) : Begins ts := by
  induction derives with
  | plain _ ih | unconditional _ ih | single _ ih | noOperator _ ih | noExponent _ ih
  | noSuffix _ ih | lastItem _ ih | lastEntry _ ih => exact ih rfl
  | compound _ _ _ _ ih | conditional _ _ _ ih | operator _ _ _ ih | exponent _ _ ih
  | call _ _ ih | property _ ih | member _ _ ih | this _ ih | dotThis _ ih | new _ ih
  | mutationBehind _ _ _ ih | nextItem _ _ ih | nextEntry _ _ ih => exact (ih rfl).append _
  | entry _ _ ih => exact (ih rfl).append _
  | negation operator | mutationBefore operator =>
      refine ⟨_, _, rfl, ?_⟩
      simp only [negations, mutations, List.mem_cons, Prod.mk.injEq, List.not_mem_nil, or_false]
        at operator
      rcases operator with ⟨rfl, -⟩ | ⟨rfl, -⟩ <;> rfl
  | literal literal => exact ⟨_, _, rfl, by cases literal <;> rfl⟩
  | typeOf | ident | parenthesized | array | object => exact ⟨_, _, rfl, rfl⟩
  | noArguments | noFields | someArguments | someFields => cases full

/-- No part of an expression reaches beyond the end of the text. -/
theorem Derives.no_eof {phrase : Phrase} {ts : List Token} {tree : phrase.Tree}
    (derives : Derives phrase ts tree) : ∀ token ∈ ts, token.kind ≠ .eof := by
  induction derives with
  | literal literal => cases literal <;> simp
  | _ =>
      simp_all only [List.forall_mem_append, List.forall_mem_cons, sym, key, word, ne_eq,
        reduceCtorEq, not_false_eq_true, and_self, List.not_mem_nil, false_implies,
        implies_true]

end Qalam.Grammar
