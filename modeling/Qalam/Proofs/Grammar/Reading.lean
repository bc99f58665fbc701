/-
# What the parser's primitives read

Each primitive of the parser is characterised by the tokens that it takes from the front of the
input. On top of that stand two statements about a parser and a rule: the parser accepts only
what the rule derives, and it finds what the rule derives, provided that the next token does not
continue it. Lists with commas and sequences inherit both from their items.
-/

import Qalam.Parse.Statement
import Qalam.Proofs.Grammar.Expression

namespace Qalam.Parser

open Grammar

variable {α β : Type}

/-- The kind of the next token; at the end of the list it is the end of the text. -/
def kindOf : List Token → TokenKind
  | token :: _ => token.kind
  | [] => .eof

/-- The position of the next token. -/
def posOf : List Token → Position
  | token :: _ => token.pos
  | [] => .start

theorem peek_run (input : List Token) : peek input = .ok (kindOf input, input) := by
  cases input <;> rfl

theorem here_run (input : List Token) : here input = .ok (posOf input, input) := by
  cases input <;> rfl

theorem skip_run (input : List Token) : skip input = .ok ((), input.tail) := rfl

theorem pure_ok {value result : α} {input rest : List Token} :
    (pure value : Parser α) input = .ok (result, rest) ↔ value = result ∧ input = rest := by
  change Except.ok (value, input) = Except.ok (result, rest) ↔ _
  rw [Except.ok.injEq, Prod.mk.injEq]

/-- A sequence succeeds if its first part does and then its second part. -/
theorem bind_ok {first : Parser α} {next : α → Parser β} {input rest : List Token} {value : β} :
    (first >>= next) input = .ok (value, rest) ↔
      ∃ middle between, first input = .ok (middle, between) ∧
        next middle between = .ok (value, rest) := by
  change Except.bind (first input) (fun reached => next reached.1 reached.2) = _ ↔ _
  cases ended : first input with
  | error error => simp [Except.bind]
  | ok reached =>
      obtain ⟨middle, between⟩ := reached
      simp only [Except.bind, Except.ok.injEq, Prod.mk.injEq]
      constructor
      · intro reads
        exact ⟨middle, between, ⟨rfl, rfl⟩, reads⟩
      · rintro ⟨_, _, ⟨rfl, rfl⟩, reads⟩
        exact reads

/-- A sequence whose first part succeeds goes on with the second part. -/
theorem bind_run {first : Parser α} {next : α → Parser β} {input between : List Token}
    {middle : α} (reads : first input = .ok (middle, between)) :
    (first >>= next) input = next middle between := by
  change Except.bind (first input) (fun reached => next reached.1 reached.2) = _
  rw [reads]
  rfl

theorem map_ok {change : α → β} {parser : Parser α} {input rest : List Token} {value : β} :
    (change <$> parser) input = .ok (value, rest) ↔
      ∃ inner, parser input = .ok (inner, rest) ∧ change inner = value := by
  rw [map_eq_pure_bind, bind_ok]
  simp only [pure_ok]
  constructor
  · rintro ⟨inner, _, reads, rfl, rfl⟩
    exact ⟨inner, reads, rfl⟩
  · rintro ⟨inner, reads, rfl⟩
    exact ⟨inner, rest, reads, rfl, rfl⟩

theorem failAt_ok {fault : SyntaxFault} {pos : Position} {input rest : List Token} {value : α} :
    ¬ failAt fault pos input = .ok (value, rest) := by
  intro impossible
  cases impossible

theorem fail_ok {wanted : Wanted} {input rest : List Token} {value : α} :
    ¬ fail wanted input = .ok (value, rest) := by
  intro impossible
  rw [fail, bind_run (peek_run input), bind_run (here_run input)] at impossible
  exact failAt_ok impossible

theorem expect_ok {kind : TokenKind} {input rest : List Token} {value : Unit} (real : kind ≠ .eof) :
    expect kind input = .ok (value, rest) ↔ ∃ pos, input = ⟨kind, pos⟩ :: rest := by
  rw [expect, bind_run (peek_run input)]
  cases input with
  | nil =>
      rw [if_neg (by simpa [kindOf] using real.symm)]
      simp [fail_ok]
  | cons token others =>
      obtain ⟨found, pos⟩ := token
      by_cases same : found = kind
      · subst same
        simp [kindOf, skip_run]
      · rw [if_neg (by simpa [kindOf] using same)]
        simp [fail_ok, same]

theorem sign_ok {symbol : Symbol} {input rest : List Token} {value : Unit} :
    sign symbol input = .ok (value, rest) ↔ ∃ pos, input = sym symbol pos :: rest :=
  expect_ok (by simp)

theorem word_ok {keyword : Keyword} {input rest : List Token} {value : Unit} :
    word keyword input = .ok (value, rest) ↔ ∃ pos, input = key keyword pos :: rest :=
  expect_ok (by simp)

theorem sign_run (symbol : Symbol) (pos : Position) (rest : List Token) :
    sign symbol (sym symbol pos :: rest) = .ok ((), rest) :=
  sign_ok.mpr ⟨pos, rfl⟩

theorem word_run (keyword : Keyword) (pos : Position) (rest : List Token) :
    word keyword (key keyword pos :: rest) = .ok ((), rest) :=
  word_ok.mpr ⟨pos, rfl⟩

theorem accept_run (kind : TokenKind) (input : List Token) :
    accept kind input =
      if kindOf input = kind then .ok (true, input.tail) else .ok (false, input) := by
  rw [accept, bind_run (peek_run input)]
  split
  · rw [bind_run (skip_run input)]
    rfl
  · rfl

theorem accept_true {kind : TokenKind} {input rest : List Token} (real : kind ≠ .eof) :
    accept kind input = .ok (true, rest) ↔ ∃ pos, input = ⟨kind, pos⟩ :: rest := by
  rw [accept_run]
  cases input with
  | nil => simp [kindOf, real.symm]
  | cons token others =>
      obtain ⟨found, pos⟩ := token
      by_cases same : found = kind <;> simp [kindOf, same]

theorem accept_false {kind : TokenKind} {input rest : List Token} :
    accept kind input = .ok (false, rest) ↔ kindOf input ≠ kind ∧ input = rest := by
  rw [accept_run]
  split <;> simp_all

theorem accept_sym (symbol : Symbol) (pos : Position) (rest : List Token) :
    accept (.symbol symbol) (sym symbol pos :: rest) = .ok (true, rest) :=
  (accept_true (by simp)).mpr ⟨pos, rfl⟩

theorem accept_key (keyword : Keyword) (pos : Position) (rest : List Token) :
    accept (.keyword keyword) (key keyword pos :: rest) = .ok (true, rest) :=
  (accept_true (by simp)).mpr ⟨pos, rfl⟩

theorem identifier_ok {name : String} {input rest : List Token} :
    identifier input = .ok (name, rest) ↔ ∃ pos, input = Grammar.word name pos :: rest := by
  rw [identifier, bind_run (peek_run input)]
  cases input with
  | nil => simp [kindOf, fail_ok]
  | cons token others =>
      obtain ⟨found, pos⟩ := token
      cases found with
      | ident found =>
          simp only [kindOf]
          rw [bind_run (skip_run _), pure_ok]
          simp [Grammar.word]
      | _ => simp [kindOf, fail_ok, Grammar.word]

/-- What is made of an identifier and its position. -/
theorem spelled_ok {make : String → Position → α} {value : α} {input rest : List Token} :
    (do
        let pos ← here
        let name ← identifier
        return make name pos : Parser α) input = .ok (value, rest) ↔
      ∃ spelling pos, input = Grammar.word spelling pos :: rest ∧ value = make spelling pos := by
  rw [bind_run (here_run input), bind_ok]
  constructor
  · rintro ⟨spelling, between, reads, done⟩
    obtain ⟨pos, rfl⟩ := identifier_ok.mp reads
    obtain ⟨rfl, rfl⟩ := pure_ok.mp done
    exact ⟨spelling, pos, rfl, rfl⟩
  · rintro ⟨spelling, pos, rfl, rfl⟩
    exact ⟨spelling, rest, identifier_ok.mpr ⟨pos, rfl⟩, rfl⟩

theorem binding_ok {name : Binding} {input rest : List Token} :
    binding input = .ok (name, rest) ↔
      ∃ spelling pos, input = Grammar.word spelling pos :: rest ∧ name = ⟨spelling, pos, none⟩ :=
  spelled_ok

theorem binding_run (name : String) (pos : Position) (rest : List Token) :
    binding (Grammar.word name pos :: rest) = .ok (⟨name, pos, none⟩, rest) :=
  binding_ok.mpr ⟨name, pos, rfl, rfl⟩

theorem field_ok {name : Field} {input rest : List Token} :
    field input = .ok (name, rest) ↔
      ∃ spelling pos, input = Grammar.word spelling pos :: rest ∧ name = ⟨spelling, .at pos⟩ :=
  spelled_ok

theorem parameter_ok {param : Parameter} {input rest : List Token} :
    parameter input = .ok (param, rest) ↔ ∃ spelling pos,
      input = Grammar.word spelling pos :: rest ∧ param = ⟨spelling, .at pos, none⟩ :=
  spelled_ok

theorem checkAssignable_ok {e : Expr} {mutation : Mutation} {input rest : List Token}
    {value : Unit} :
    checkAssignable e mutation input = .ok (value, rest) ↔
      e.isAssignable = true ∧ input = rest := by
  rw [checkAssignable]
  cases e.isAssignable with
  | true => simp [pure_ok]
  | false => simp [failAt_ok]

theorem checkAssignable_run {e : Expr} (assignable : e.isAssignable = true) (mutation : Mutation)
    (input : List Token) : checkAssignable e mutation input = .ok ((), input) :=
  checkAssignable_ok.mpr ⟨assignable, rfl⟩

/-! ## Parsers and rules -/

/-- Whatever a parser accepts is derived by a rule. -/
def Accepts (parser : Parser α) (rule : List Token → α → Prop) : Prop :=
  ∀ ⦃input rest : List Token⦄ ⦃value : α⦄, parser input = .ok (value, rest) →
    ∃ used, input = used ++ rest ∧ rule used value

/-- A parser finds whatever a rule derives from a bounded number of tokens, if the token behind it
is one of those that may follow. -/
def Finds (parser : Parser α) (rule : List Token → α → Prop) (limit : Nat)
    (mayFollow : TokenKind → Bool) : Prop :=
  ∀ ⦃used : List Token⦄ ⦃value : α⦄ (rest : List Token), rule used value →
    used.length ≤ limit → mayFollow (kindOf rest) = true →
    parser (used ++ rest) = .ok (value, rest)

/-- The items after the first one, each with the comma before it. -/
theorem commaItems_accepts {item : Parser α} {rule : List Token → α → Prop}
    (accepts : Accepts item rule) {budget : Nat} {input rest : List Token} {values : List α}
    (reads : commaItems item budget input = .ok (values, rest)) :
    ∃ used, input = used ++ rest ∧
      ∀ ts x, rule ts x → Separated rule (ts ++ used) (x :: values) := by
  induction budget generalizing input values with
  | zero =>
      obtain ⟨rfl, rfl⟩ := pure_ok.mp reads
      exact ⟨[], rfl, fun ts x derived => by simpa using Separated.last derived⟩
  | succ budget ih =>
      rw [commaItems] at reads
      obtain ⟨comma, between, tried, further⟩ := bind_ok.mp reads
      cases comma with
      | false =>
          obtain ⟨-, rfl⟩ := accept_false.mp tried
          obtain ⟨rfl, rfl⟩ := pure_ok.mp further
          exact ⟨[], rfl, fun ts x derived => by simpa using Separated.last derived⟩
      | true =>
          obtain ⟨pos, rfl⟩ := (accept_true (by simp)).mp tried
          obtain ⟨first, behind, readFirst, further⟩ := bind_ok.mp further
          obtain ⟨others, final, readOthers, done⟩ := bind_ok.mp further
          obtain ⟨rfl, rfl⟩ := pure_ok.mp done
          obtain ⟨usedFirst, rfl, derivedFirst⟩ := accepts readFirst
          obtain ⟨usedOthers, rfl, separated⟩ := ih readOthers
          refine ⟨sym .comma pos :: (usedFirst ++ usedOthers), by simp [sym], ?_⟩
          intro ts x derived
          exact Separated.next derived (separated usedFirst first derivedFirst)

theorem listUntil_accepts {close : Symbol} {item : Parser α} {rule : List Token → α → Prop}
    (accepts : Accepts item rule) {budget : Nat} {input rest : List Token} {values : List α}
    (reads : listUntil close item budget input = .ok (values, rest)) :
    ∃ used pos, input = used ++ sym close pos :: rest ∧ Listed rule used values := by
  rw [listUntil] at reads
  obtain ⟨closed, between, tried, further⟩ := bind_ok.mp reads
  cases closed with
  | true =>
      obtain ⟨pos, rfl⟩ := (accept_true (by simp)).mp tried
      obtain ⟨rfl, rfl⟩ := pure_ok.mp further
      exact ⟨[], pos, rfl, .none⟩
  | false =>
      obtain ⟨-, rfl⟩ := accept_false.mp tried
      obtain ⟨first, behind, readFirst, further⟩ := bind_ok.mp further
      obtain ⟨others, final, readOthers, further⟩ := bind_ok.mp further
      obtain ⟨_, last, readClose, done⟩ := bind_ok.mp further
      obtain ⟨rfl, rfl⟩ := pure_ok.mp done
      obtain ⟨usedFirst, rfl, derivedFirst⟩ := accepts readFirst
      obtain ⟨usedOthers, rfl, separated⟩ := commaItems_accepts accepts readOthers
      obtain ⟨pos, rfl⟩ := sign_ok.mp readClose
      exact ⟨usedFirst ++ usedOthers, pos, by simp, .some (separated _ _ derivedFirst)⟩

/-- A sequence is read up to a token that ends it, unless the budget is used up before. -/
theorem manyUntil_accepts {stop : TokenKind → Bool} {item : Parser α}
    {rule : List Token → α → Prop} (accepts : Accepts item rule)
    (consumes : ∀ used value, rule used value → used ≠ []) {budget : Nat}
    {input rest : List Token} {values : List α}
    (reads : manyUntil stop item budget input = .ok (values, rest)) :
    ∃ used, input = used ++ rest ∧ Sequence rule used values ∧
      (stop (kindOf rest) = true ∨ budget ≤ used.length) := by
  induction budget generalizing input values with
  | zero =>
      obtain ⟨rfl, rfl⟩ := pure_ok.mp reads
      exact ⟨[], rfl, .nil, .inr (Nat.le_refl _)⟩
  | succ budget ih =>
      rw [manyUntil, bind_run (peek_run input)] at reads
      split at reads
      · rename_i stops
        obtain ⟨rfl, rfl⟩ := pure_ok.mp reads
        exact ⟨[], rfl, .nil, .inl stops⟩
      · obtain ⟨first, behind, readFirst, further⟩ := bind_ok.mp reads
        obtain ⟨others, final, readOthers, done⟩ := bind_ok.mp further
        obtain ⟨rfl, rfl⟩ := pure_ok.mp done
        obtain ⟨usedFirst, rfl, derivedFirst⟩ := accepts readFirst
        obtain ⟨usedOthers, rfl, sequence, ended⟩ := ih readOthers
        refine ⟨usedFirst ++ usedOthers, by simp, .cons derivedFirst sequence, ?_⟩
        have some := List.length_pos_iff.mpr (consumes _ _ derivedFirst)
        rw [List.length_append]
        exact ended.imp_right fun enough => by omega

theorem commaItems_finds {item : Parser α} {rule : List Token → α → Prop} {limit : Nat}
    {mayFollow : TokenKind → Bool} (finds : Finds item rule limit mayFollow)
    (comma : mayFollow (.symbol .comma) = true) {budget : Nat} {used : List Token}
    {values : List α} (rest : List Token) (separated : Separated rule used values)
    (fits : used.length ≤ limit)
    (enough : used.length ≤ budget) (follow : mayFollow (kindOf rest) = true)
    (ends : kindOf rest ≠ .symbol .comma) :
    (do
        let first ← item
        let others ← commaItems item budget
        return first :: others) (used ++ rest) = .ok (values, rest) := by
  induction separated generalizing budget with
  | last derived =>
      rw [bind_run (finds rest derived fits follow)]
      have stops : commaItems item budget rest = .ok ([], rest) := by
        cases budget with
        | zero => rfl
        | succ budget =>
            rw [commaItems, bind_run (accept_false.mpr ⟨ends, rfl⟩)]
            rfl
      rw [bind_run stops]
      rfl
  | @next ts us x xs pos derived others ih =>
      simp only [List.length_append, List.length_cons] at fits enough
      obtain ⟨left, rfl⟩ : ∃ left, budget = left + 1 := ⟨budget - 1, by omega⟩
      rw [List.append_assoc, List.cons_append, 
        bind_run (finds (sym .comma pos :: (us ++ rest)) derived (by omega) comma)]
      have goesOn := @ih left (by omega) (by omega)
      have reads : commaItems item (left + 1) (sym .comma pos :: (us ++ rest)) =
          .ok (xs, rest) := by
        rw [commaItems, bind_run (accept_sym .comma pos (us ++ rest))]
        exact goesOn
      rw [bind_run reads]
      rfl

theorem listUntil_finds {close : Symbol} {item : Parser α} {rule : List Token → α → Prop}
    {limit : Nat} {mayFollow : TokenKind → Bool} (finds : Finds item rule limit mayFollow)
    (comma : mayFollow (.symbol .comma) = true) (closing : mayFollow (.symbol close) = true)
    (different : close ≠ .comma)
    (begins : ∀ used value, rule used value →
      ∃ first more, used = first :: more ∧ first.kind ≠ .symbol close)
    {budget : Nat} {used rest : List Token} {values : List α} {pos : Position}
    (listed : Listed rule used values) (fits : used.length ≤ limit)
    (enough : used.length ≤ budget) :
    listUntil close item budget (used ++ sym close pos :: rest) = .ok (values, rest) := by
  cases listed with
  | none =>
      rw [listUntil, List.nil_append, bind_run (accept_sym close pos rest)]
      rfl
  | some separated =>
      have opens : kindOf (used ++ sym close pos :: rest) ≠ .symbol close := by
        cases separated with
        | last derived =>
            obtain ⟨first, more, rfl, differs⟩ := begins _ _ derived
            exact differs
        | next derived _ =>
            obtain ⟨first, more, rfl, differs⟩ := begins _ _ derived
            exact differs
      have found := commaItems_finds finds comma (sym close pos :: rest) separated fits
        enough closing (by simpa [kindOf, sym] using different)
      obtain ⟨first, behind, readFirst, further⟩ := bind_ok.mp found
      obtain ⟨others, final, readOthers, done⟩ := bind_ok.mp further
      obtain ⟨rfl, rfl⟩ := pure_ok.mp done
      rw [listUntil, bind_run (accept_false.mpr ⟨opens, rfl⟩), if_neg (by simp),
        bind_run readFirst, bind_run readOthers, bind_run (sign_run close pos rest)]
      rfl

theorem manyUntil_finds {stop : TokenKind → Bool} {item : Parser α}
    {rule : List Token → α → Prop} {limit : Nat} {mayFollow : TokenKind → Bool}
    (finds : Finds item rule limit mayFollow)
    (begins : ∀ used value, rule used value → ∃ first more, used = first :: more ∧
      stop first.kind = false ∧ mayFollow first.kind = true)
    {budget : Nat} {used rest : List Token} {values : List α}
    (sequence : Sequence rule used values) (fits : used.length ≤ limit)
    (enough : used.length ≤ budget) (ends : stop (kindOf rest) = true)
    (follow : mayFollow (kindOf rest) = true) :
    manyUntil stop item budget (used ++ rest) = .ok (values, rest) := by
  induction sequence generalizing budget with
  | nil =>
      cases budget with
      | zero => rfl
      | succ budget =>
          rw [List.nil_append, manyUntil, bind_run (peek_run rest), if_pos ends]
          rfl
  | @cons ts us x xs derived others ih =>
      obtain ⟨first, more, rfl, goesOn, -⟩ := begins _ _ derived
      simp only [List.length_append, List.length_cons] at fits enough
      obtain ⟨left, rfl⟩ : ∃ left, budget = left + 1 := ⟨budget - 1, by omega⟩
      have next : mayFollow (kindOf (us ++ rest)) = true := by
        cases others with
        | nil => exact follow
        | cons second _ =>
            obtain ⟨head, tail, rfl, -, allowed⟩ := begins _ _ second
            exact allowed
      have readFirst := finds (us ++ rest) derived (by simp; omega) next
      have readOthers := @ih left (by omega) (by omega)
      rw [List.append_assoc, manyUntil, bind_run (peek_run _),
        if_neg (by simpa [kindOf] using goesOn), bind_run readFirst, bind_run readOthers]
      rfl

end Qalam.Parser
