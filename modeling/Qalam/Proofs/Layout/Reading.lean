/-
# Reading looks at kinds only

The parser decides by the kinds of tokens and by the shape of what it has read. Positions pass
through it, and what binding would add is never there. So relabelled tokens are read as the
relabelled tree, and a fault stays the same fault. One statement, `Carries`, is shown for every
parser by going through it step by step: here for the common parsers and for expressions.

Behind the last token the parser assumes the first position of a text, which a relabelling may
move. Tokens of a text say where they end, and the parser never goes beyond that token: it skips
only what it has found to be of another kind.
-/

import Qalam.Proofs.Grammar.Reading
import Qalam.Proofs.Structure.Relabel

namespace Qalam.Relabel

open Qalam.Parser

variable {α β : Type} (change : Relabel)

/-- A fault of form, with its position changed. -/
def syntaxError (error : SyntaxError) : SyntaxError := ⟨error.fault, change.pos error.pos⟩

/-- Nothing is read behind the last token, or what is assumed about it there does not move. -/
def Fits (tokens : List Token) : Prop :=
  change.pos .start = .start ∨ ∃ token ∈ tokens, token.kind = .eof

/-- From a token of a given kind on, a second parser does with the relabelled tokens what a first
one does with the tokens themselves. -/
def CarriesAt (kind : TokenKind) (parser parser' : Parser α) (result : α → α) : Prop :=
  ∀ tokens, change.Fits tokens → kindOf tokens = kind → match parser tokens with
    | .ok (value, rest) =>
      parser' (tokens.map change.token) = .ok (result value, rest.map change.token) ∧
        change.Fits rest
    | .error error => parser' (tokens.map change.token) = .error (change.syntaxError error)

/-- The same from any token on. -/
def Carries (parser parser' : Parser α) (result : α → α) : Prop :=
  ∀ kind, change.CarriesAt kind parser parser' result

variable {change}

theorem kindOf_map (tokens : List Token) : kindOf (tokens.map change.token) = kindOf tokens := by
  cases tokens <;> rfl

theorem posOf_map {tokens : List Token} (fits : change.Fits tokens) :
    posOf (tokens.map change.token) = change.pos (posOf tokens) := by
  cases tokens with
  | cons token others => rfl
  | nil =>
      rcases fits with still | ⟨_, impossible, _⟩
      · exact still.symm
      · cases impossible

/-- Of tokens that say where they end, those behind one that does not end them still do. -/
theorem Fits.tail {tokens : List Token} (fits : change.Fits tokens)
    (real : kindOf tokens ≠ .eof) : change.Fits tokens.tail := by
  rcases fits with still | ⟨last, mem, ends⟩
  · exact .inl still
  · cases tokens with
    | nil => cases mem
    | cons token others =>
        rcases List.mem_cons.mp mem with rfl | later
        · exact absurd ends real
        · exact .inr ⟨last, later, ends⟩

theorem note_at (plain : change.Plain) (pos : Position) :
    change.note (.at pos) = .at (change.pos pos) := by
  rw [note, Note.at, Note.at, plain.tag]

theorem field_at (plain : change.Plain) (name : String) (pos : Position) :
    change.field ⟨name, .at pos⟩ = ⟨name, .at (change.pos pos)⟩ := by
  rw [field, plain.name, note_at plain]

namespace CarriesAt

variable {kind : TokenKind} {parser parser' : Parser α} {result : α → α}

theorem pure {value value' : α} (same : value' = result value) :
    change.CarriesAt kind (Pure.pure value) (Pure.pure value') result := by
  subst same
  exact fun _ fits _ => ⟨rfl, fits⟩

theorem failAt (fault : SyntaxFault) (pos : Position) :
    change.CarriesAt kind (Parser.failAt fault pos) (Parser.failAt fault (change.pos pos)) result :=
  fun _ _ _ => rfl

/-- One parser after another. -/
theorem bind {next next' : α → Parser β} {result' : β → β}
    (here : change.CarriesAt kind parser parser' result)
    (there : ∀ value, change.Carries (next value) (next' (result value)) result') :
    change.CarriesAt kind (parser >>= next) (parser' >>= next') result' := by
  intro tokens fits known
  have step := here tokens fits known
  show match Except.bind (parser tokens) fun reached => next reached.1 reached.2 with
    | .ok (value, rest) => _
    | .error error => _
  cases reached : parser tokens with
  | error error =>
      rw [reached] at step
      show Except.bind (parser' _) _ = _
      rw [step]
      rfl
  | ok pair =>
      obtain ⟨value, rest⟩ := pair
      rw [reached] at step
      have further := there value (kindOf rest) rest step.2 rfl
      show match next value rest with
        | .ok (value, rest) => _
        | .error error => _
      rw [bind_run step.1]
      exact further

theorem here_bind {next next' : Position → Parser α}
    (there : ∀ pos, change.CarriesAt kind (next pos) (next' (change.pos pos)) result) :
    change.CarriesAt kind (here >>= next) (here >>= next') result := by
  intro tokens fits known
  rw [bind_run (here_run tokens), bind_run (here_run _), posOf_map fits]
  exact there (posOf tokens) tokens fits known

theorem peek_bind {next next' : TokenKind → Parser α}
    (there : change.CarriesAt kind (next kind) (next' kind) result) :
    change.CarriesAt kind (peek >>= next) (peek >>= next') result := by
  intro tokens fits known
  rw [bind_run (peek_run tokens), bind_run (peek_run _), kindOf_map, known]
  exact there tokens fits known

theorem skip_bind {next next' : Unit → Parser α} (real : kind ≠ .eof)
    (there : change.Carries (next ()) (next' ()) result) :
    change.CarriesAt kind (skip >>= next) (skip >>= next') result := by
  intro tokens fits known
  rw [bind_run (skip_run tokens), bind_run (skip_run _), ← List.map_tail]
  rw [← known] at real
  exact there _ tokens.tail (fits.tail real) rfl

theorem skip (real : kind ≠ .eof) : change.CarriesAt kind Parser.skip Parser.skip id := by
  intro tokens fits known
  rw [← known] at real
  exact ⟨by rw [skip_run, ← List.map_tail], fits.tail real⟩

theorem checkAssignable_bind {next next' : Unit → Parser α} (e : Expr) (mutation : Mutation)
    (there : change.CarriesAt kind (next ()) (next' ()) result) :
    change.CarriesAt kind (checkAssignable e mutation >>= next)
      (checkAssignable (change.expr e) mutation >>= next') result := by
  intro tokens fits known
  cases assignable : e.isAssignable with
  | true =>
      rw [bind_run (checkAssignable_run assignable mutation tokens),
        bind_run (checkAssignable_run ((change.isAssignable_expr e).trans assignable) mutation _)]
      exact there tokens fits known
  | false =>
      simp only [checkAssignable, isAssignable_expr, assignable, Bool.not_false, if_true, pos_expr]
      rfl

theorem fail (wanted : Wanted) :
    change.CarriesAt kind (Parser.fail wanted) (Parser.fail wanted) result :=
  peek_bind (here_bind fun _ => failAt _ _)

end CarriesAt

namespace Carries

variable {parser parser' : Parser α} {result : α → α}

theorem pure {value value' : α} (same : value' = result value) :
    change.Carries (Pure.pure value) (Pure.pure value') result :=
  fun _ => CarriesAt.pure same

theorem bind {next next' : α → Parser β} {result' : β → β}
    (here : change.Carries parser parser' result)
    (there : ∀ value, change.Carries (next value) (next' (result value)) result') :
    change.Carries (parser >>= next) (parser' >>= next') result' :=
  fun kind => (here kind).bind there

theorem accept {kind : TokenKind} (real : kind ≠ .eof) :
    change.Carries (accept kind) (accept kind) id := by
  intro next
  apply CarriesAt.peek_bind
  by_cases same : next = kind
  · rw [if_pos same]
    apply CarriesAt.skip_bind (same ▸ real)
    exact pure rfl
  · rw [if_neg same]
    exact CarriesAt.pure rfl

theorem expect {kind : TokenKind} (real : kind ≠ .eof) :
    change.Carries (expect kind) (expect kind) id := by
  intro next
  apply CarriesAt.peek_bind
  by_cases same : next = kind
  · rw [if_pos same]
    exact CarriesAt.skip (same ▸ real)
  · rw [if_neg same]
    exact CarriesAt.fail _

theorem sign (symbol : Symbol) : change.Carries (sign symbol) (sign symbol) id :=
  expect (by simp)

theorem word (keyword : Keyword) : change.Carries (word keyword) (word keyword) id :=
  expect (by simp)

theorem identifier : change.Carries identifier identifier id := by
  intro kind
  apply CarriesAt.peek_bind
  cases kind with
  | ident name => exact CarriesAt.skip_bind (by simp) (pure rfl)
  | _ => exact CarriesAt.fail _

/-- What is made of an identifier and its position. -/
theorem spelled {make : String → Position → α}
    (fits : ∀ name pos, make name (change.pos pos) = result (make name pos)) :
    change.Carries
      (do
        let pos ← here
        let name ← Parser.identifier
        return make name pos)
      (do
        let pos ← here
        let name ← Parser.identifier
        return make name pos) result := by
  intro kind
  apply CarriesAt.here_bind
  intro pos
  apply (identifier kind).bind
  intro name
  exact pure (fits name pos)

theorem binding (plain : change.Plain) :
    change.Carries Parser.binding Parser.binding change.binding := by
  apply spelled
  intro name pos
  rw [Relabel.binding, plain.name, plain.entity]

theorem field (plain : change.Plain) : change.Carries Parser.field Parser.field change.field := by
  apply spelled
  intro name pos
  rw [field_at plain]

theorem parameter (plain : change.Plain) :
    change.Carries Parser.parameter Parser.parameter change.parameter := by
  apply spelled
  intro name pos
  rw [Relabel.parameter, plain.name, note_at plain, plain.entity]

theorem manyUntil {item : Parser α} (stop : TokenKind → Bool)
    (each : change.Carries item item result) (budget : Nat) :
    change.Carries (manyUntil stop item budget) (manyUntil stop item budget) (List.map result) := by
  induction budget with
  | zero => exact pure rfl
  | succ budget ih =>
      intro kind
      apply CarriesAt.peek_bind
      cases stop kind with
      | true => exact CarriesAt.pure rfl
      | false =>
          apply (each kind).bind
          intro first
          apply ih.bind
          intro others
          exact pure rfl

theorem commaItems {item : Parser α} (each : change.Carries item item result) (budget : Nat) :
    change.Carries (commaItems item budget) (commaItems item budget) (List.map result) := by
  induction budget with
  | zero => exact pure rfl
  | succ budget ih =>
      apply (accept (by simp)).bind
      intro comma
      cases comma with
      | false => exact pure rfl
      | true =>
          apply each.bind
          intro first
          apply ih.bind
          intro others
          exact pure rfl

theorem listUntil {item : Parser α} (close : Symbol) (each : change.Carries item item result)
    (budget : Nat) :
    change.Carries (listUntil close item budget) (listUntil close item budget)
      (List.map result) := by
  apply (accept (by simp)).bind
  intro closed
  cases closed with
  | true => exact pure rfl
  | false =>
      apply each.bind
      intro first
      apply (commaItems each budget).bind
      intro others
      apply (sign close).bind
      intro _
      exact pure rfl

end Carries

/-! ## Expressions -/

/-- The parsers for what is nested inside an expression look at no record. -/
structure Nests (change : Relabel) (nested : Nested) : Prop where
  expression : change.Carries nested.expression nested.expression change.expr
  ternary : change.Carries nested.ternary nested.ternary change.expr
  unary : change.Carries nested.unary nested.unary change.expr

namespace Carries

variable {nested : Nested} {operand keyParser : Parser Expr}

theorem chainRest (plain : change.Plain) (op? : TokenKind → Option BinaryOp)
    (silent : op? .eof = none) (each : change.Carries operand operand change.expr) (budget : Nat)
    (left : Expr) :
    change.Carries (chainRest op? operand budget left)
      (chainRest op? operand budget (change.expr left)) change.expr := by
  induction budget generalizing left with
  | zero => exact pure rfl
  | succ budget ih =>
      intro kind
      apply CarriesAt.peek_bind
      cases found : op? kind with
      | none => exact CarriesAt.pure rfl
      | some op =>
          have real : kind ≠ .eof := by
            rintro rfl
            rw [silent] at found
            cases found
          apply CarriesAt.skip_bind real
          apply each.bind
          intro right
          have further := ih (.binary (.at left.pos) op left right)
          rwa [expr, note_at plain, ← pos_expr] at further

theorem chain (plain : change.Plain) (op? : TokenKind → Option BinaryOp)
    (silent : op? .eof = none) (each : change.Carries operand operand change.expr)
    (budget : Nat) :
    change.Carries (chain op? operand budget) (chain op? operand budget) change.expr := by
  apply each.bind
  exact chainRest plain op? silent each budget

theorem logic (plain : change.Plain) (each : change.Carries operand operand change.expr)
    (budget : Nat) :
    change.Carries (logic operand budget) (logic operand budget) change.expr :=
  chain plain logicOp? rfl (chain plain relationOp? rfl (chain plain sumOp? rfl
    (chain plain productOp? rfl each budget) budget) budget) budget

theorem thisAccess (plain : change.Plain) (e : Expr) :
    change.Carries (thisAccess e) (thisAccess (change.expr e)) change.expr := by
  intro kind
  cases e with
  | ident note name entity =>
      apply CarriesAt.pure
      rw [expr, note_at plain]
      rfl
  | _ => exact CarriesAt.failAt _ _

theorem pair (plain : change.Plain) (readsKey : change.Carries keyParser keyParser change.expr)
    (readsValue : change.Carries operand operand change.expr) :
    change.Carries (Parser.pair keyParser operand) (Parser.pair keyParser operand) change.pair := by
  intro kind
  apply CarriesAt.here_bind
  intro pos
  apply (readsKey kind).bind
  intro key
  apply (sign .colon).bind
  intro _
  apply readsValue.bind
  intro value
  apply pure
  rw [Relabel.pair, plain.key]

theorem primary (plain : change.Plain) (nests : change.Nests nested)
    (readsKey : change.Carries keyParser keyParser change.expr) (budget : Nat) :
    change.Carries (primary nested keyParser budget) (primary nested keyParser budget)
      change.expr := by
  intro kind
  apply CarriesAt.here_bind
  intro pos
  apply CarriesAt.peek_bind
  split
  · rename_i name
    apply CarriesAt.skip_bind (by simp)
    apply pure
    rw [expr, note_at plain, plain.name, plain.entity]
  · apply CarriesAt.skip_bind (by simp)
    apply nests.expression.bind
    intro e
    apply (sign .rparen).bind
    intro _
    exact pure rfl
  · apply CarriesAt.skip_bind (by simp)
    apply (listUntil .rbracket nests.expression budget).bind
    intro elements
    apply pure
    rw [expr, note_at plain, exprs_eq_map]
  · apply CarriesAt.skip_bind (by simp)
    apply (listUntil .rbrace (pair plain readsKey nests.expression) budget).bind
    intro entries
    apply pure
    rw [expr, note_at plain, pairs_eq_map]
  · cases found : literal? kind with
    | none => exact CarriesAt.fail _
    | some value =>
        have real : kind ≠ .eof := by
          rintro rfl
          cases found
        apply CarriesAt.skip_bind real
        apply pure
        rw [expr, note_at plain]

theorem suffixes (plain : change.Plain) (nests : change.Nests nested) (budget : Nat) (e : Expr) :
    change.Carries (suffixes nested budget e) (suffixes nested budget (change.expr e))
      change.expr := by
  induction budget generalizing e with
  | zero => exact pure rfl
  | succ budget ih =>
      intro kind
      apply CarriesAt.peek_bind
      split
      · apply CarriesAt.skip_bind (by simp)
        apply (listUntil .rparen nests.expression budget).bind
        intro args
        have further := ih (.call (.at e.pos) e args)
        rwa [expr, note_at plain, ← pos_expr, exprs_eq_map] at further
      · apply CarriesAt.skip_bind (by simp)
        apply (accept (by simp)).bind
        intro isThis
        cases isThis with
        | true =>
            apply (thisAccess plain e).bind
            exact ih
        | false =>
            apply (field plain).bind
            intro name
            have further := ih (.property (.at e.pos) e name)
            rwa [expr, note_at plain, ← pos_expr] at further
      · apply CarriesAt.skip_bind (by simp)
        apply nests.expression.bind
        intro index
        apply (sign .rbracket).bind
        intro _
        have further := ih (.member (.at e.pos) e index)
        rwa [expr, note_at plain, ← pos_expr] at further
      · apply CarriesAt.skip_bind (by simp)
        apply (thisAccess plain e).bind
        exact ih
      · cases e with
        | call note callee args =>
            apply CarriesAt.skip_bind (by simp)
            have further := ih (.new (.at note.pos) callee args)
            rwa [expr, note_at plain] at further
        | _ => exact CarriesAt.fail _
      · apply CarriesAt.checkAssignable_bind
        apply CarriesAt.skip_bind (by simp)
        have further := ih (.unary (.at e.pos) .increment .behind e)
        rwa [expr, note_at plain, ← pos_expr] at further
      · apply CarriesAt.checkAssignable_bind
        apply CarriesAt.skip_bind (by simp)
        have further := ih (.unary (.at e.pos) .decrement .behind e)
        rwa [expr, note_at plain, ← pos_expr] at further
      · exact CarriesAt.pure rfl

theorem power (plain : change.Plain) (nests : change.Nests nested)
    (readsKey : change.Carries keyParser keyParser change.expr) (budget : Nat) :
    change.Carries (power nested keyParser budget) (power nested keyParser budget)
      change.expr := by
  apply (primary plain nests readsKey budget).bind
  intro first
  apply (suffixes plain nests budget first).bind
  intro base
  apply (accept (by simp)).bind
  intro raised
  cases raised with
  | false => exact pure rfl
  | true =>
      apply nests.unary.bind
      intro exponent
      apply pure
      rw [expr, note_at plain, pos_expr]

theorem unary (plain : change.Plain) (nests : change.Nests nested)
    (readsKey : change.Carries keyParser keyParser change.expr) (budget : Nat) :
    change.Carries (unary nested keyParser budget) (unary nested keyParser budget)
      change.expr := by
  intro kind
  apply CarriesAt.here_bind
  intro pos
  apply CarriesAt.peek_bind
  by_cases named : kind = .keyword .typeOfKw
  · rw [if_pos named, if_pos named]
    apply CarriesAt.skip_bind (by simp [named])
    apply nests.unary.bind
    intro operand
    apply pure
    rw [expr, note_at plain]
  · rw [if_neg named, if_neg named]
    cases found : unaryOp? kind with
    | none => exact power plain nests readsKey budget kind
    | some op =>
        have real : kind ≠ .eof := by
          rintro rfl
          cases found
        have built : ∀ operand, change.Carries (Pure.pure (.unary (.at pos) op .before operand))
            (Pure.pure (.unary (.at (change.pos pos)) op .before (change.expr operand)))
            change.expr := by
          intro operand
          apply pure
          rw [expr, note_at plain]
        apply CarriesAt.skip_bind real
        apply nests.unary.bind
        intro operand
        cases op.isMutation with
        | false => exact built operand
        | true => exact fun _ => CarriesAt.checkAssignable_bind _ _ (built operand _)

theorem ternary (plain : change.Plain) (nests : change.Nests nested)
    (test : change.Carries operand operand change.expr) :
    change.Carries (ternary nested operand) (ternary nested operand) change.expr := by
  apply test.bind
  intro condition
  apply (accept (by simp)).bind
  intro asked
  cases asked with
  | false => exact pure rfl
  | true =>
      apply nests.ternary.bind
      intro yes
      apply (sign .colon).bind
      intro _
      apply nests.ternary.bind
      intro no
      apply pure
      rw [expr, note_at plain, pos_expr]

theorem compound (plain : change.Plain) (nests : change.Nests nested)
    (target : change.Carries operand operand change.expr) :
    change.Carries (compound nested operand) (compound nested operand) change.expr := by
  apply target.bind
  intro left kind
  apply CarriesAt.peek_bind
  cases found : compoundOp? kind with
  | none => exact CarriesAt.pure rfl
  | some op =>
      have real : kind ≠ .eof := by
        rintro rfl
        cases found
      apply CarriesAt.skip_bind real
      intro next
      apply CarriesAt.checkAssignable_bind
      apply (nests.expression next).bind
      intro right
      apply pure
      rw [expr, note_at plain, pos_expr]

end Carries

theorem nests (plain : change.Plain) (budget : Nat) : change.Nests (nested budget) := by
  induction budget with
  | zero => exact ⟨fun _ => .fail _, fun _ => .fail _, fun _ => .fail _⟩
  | succ budget ih =>
      have reads := Carries.unary plain ih (Carries.logic plain ih.unary budget) (budget + 1)
      have chooses := Carries.ternary plain ih (Carries.logic plain reads (budget + 1))
      exact ⟨Carries.compound plain ih chooses, chooses, reads⟩

end Qalam.Relabel
