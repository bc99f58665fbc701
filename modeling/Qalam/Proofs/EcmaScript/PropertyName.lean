/-
# Which keys are property names

The text of a key stands in front of its colon without brackets around it. It is a property name
if it is a single word, number or string, or one expression in square brackets. Constants and plain
names are written as the former, and a list with one element as the latter, whose meaning is then
the element. No other key has such a text: what begins with an opening bracket either closes it
before the end, or has commas or nothing between the brackets.
-/

import Qalam.Proofs.EcmaScript.Regrouping

namespace Qalam.EcmaScript

/-- The tokens of a property name. -/
def IsPropertyName (ts : List Token) : Prop :=
  (∃ token, ts = [token] ∧ token.isKey = true) ∨
    ∃ us t, ts = .sign "[" :: (us ++ [.sign "]"]) ∧ Derives .assignment us t

/-! ## Brackets that close -/

/-- Brackets that open. -/
def openings : List Token := [.sign "(", .sign "[", .sign "\x7b"]

/-- Brackets that close. -/
def closings : List Token := [.sign ")", .sign "]", .sign "\x7d"]

/-- The number of open brackets behind a token. Outside of all brackets nothing is closed, and no
comma stands there. -/
def depthAfter (depth : Nat) (token : Token) : Option Nat :=
  if token ∈ openings then some (depth + 1)
  else if token ∈ closings then (if depth = 0 then none else some (depth - 1))
  else if token = .sign "," ∧ depth = 0 then none
  else some depth

/-- The number of open brackets behind several tokens. -/
def scan (depth : Nat) (ts : List Token) : Option Nat := ts.foldlM depthAfter depth

/-- Tokens that close their brackets and have commas inside brackets only. -/
def Enclosed (ts : List Token) : Prop := ∀ depth, scan depth ts = some depth

/-- Tokens that close their brackets. -/
def Listed (ts : List Token) : Prop := ∀ depth, scan (depth + 1) ts = some (depth + 1)

/-- Tokens that are neither brackets nor commas. -/
def isInner (token : Token) : Bool := token ∉ .sign "," :: openings ++ closings

theorem scan_cons (depth : Nat) (token : Token) (ts : List Token) :
    scan depth (token :: ts) = (depthAfter depth token).bind fun next => scan next ts := rfl

theorem scan_append (depth : Nat) (ts us : List Token) :
    scan depth (ts ++ us) = (scan depth ts).bind fun next => scan next us := by
  simp [scan]

theorem depthAfter_succ {depth next : Nat} {token : Token}
    (known : depthAfter depth token = some next) :
    depthAfter (depth + 1) token = some (next + 1) := by
  unfold depthAfter at known ⊢
  by_cases opens : token ∈ openings
  · rw [if_pos opens] at known ⊢
    cases known
    rfl
  by_cases closes : token ∈ closings
  · rw [if_neg opens, if_pos closes] at known ⊢
    cases depth with
    | zero => cases known
    | succ depth =>
        cases known
        rfl
  · rw [if_neg opens, if_neg closes] at known ⊢
    split at known
    · cases known
    · cases known
      simp

/-- Inside of further brackets the same is open, and these. -/
theorem scan_succ {depth next : Nat} {ts : List Token} (known : scan depth ts = some next) :
    scan (depth + 1) ts = some (next + 1) := by
  induction ts generalizing depth with
  | nil =>
      cases known
      rfl
  | cons token ts ih =>
      rw [scan_cons, Option.bind_eq_some_iff] at known
      obtain ⟨middle, here, further⟩ := known
      rw [scan_cons, depthAfter_succ here]
      exact ih further

theorem depthAfter_inner {token : Token} (inner : isInner token = true) (depth : Nat) :
    depthAfter depth token = some depth := by
  simp only [isInner, List.cons_append, List.mem_cons, List.mem_append, not_or,
    decide_eq_true_eq] at inner
  rw [depthAfter, if_neg inner.2.1, if_neg inner.2.2, if_neg fun comma => inner.1 comma.1]

namespace Enclosed

variable {ts us : List Token}

theorem nil : Enclosed [] := fun _ => rfl

theorem append (first : Enclosed ts) (second : Enclosed us) : Enclosed (ts ++ us) := by
  intro depth
  rw [scan_append, first]
  exact second depth

theorem cons {token : Token} (inner : isInner token = true) (others : Enclosed ts) :
    Enclosed (token :: ts) := by
  intro depth
  rw [scan_cons, depthAfter_inner inner]
  exact others depth

theorem listed (enclosed : Enclosed ts) : Listed ts := fun depth => enclosed (depth + 1)

/-- Brackets around tokens that close theirs. -/
theorem of_listed {opening closing : Token} (opens : opening ∈ openings)
    (closes : closing ∈ closings) (inside : Listed ts) :
    Enclosed (opening :: (ts ++ [closing])) := by
  intro depth
  have different : ∀ closing ∈ closings, closing ∉ openings := by decide
  rw [scan_cons, depthAfter, if_pos opens, Option.bind_some, scan_append, inside,
    Option.bind_some, scan_cons, depthAfter, if_neg (different closing closes), if_pos closes]
  rfl

theorem wrapped (inside : Listed ts) : Enclosed (EcmaScript.wrapped ts) :=
  of_listed (by decide) (by decide) inside

end Enclosed

namespace Listed

variable {ts us : List Token}

theorem append (first : Listed ts) (second : Listed us) : Listed (ts ++ us) := by
  intro depth
  rw [scan_append, first]
  exact second depth

theorem comma (first : Listed ts) (second : Listed us) : Listed (ts ++ .sign "," :: us) := by
  refine first.append fun depth => ?_
  have stays : depthAfter (depth + 1) (.sign ",") = some (depth + 1) := by
    rw [depthAfter, if_neg (by decide), if_neg (by decide), if_neg (by simp)]
  rw [scan_cons, stays]
  exact second depth

end Listed

/-- What is in square brackets does not close these before the end. -/
theorem not_enclosed_front {us front back : List Token} (enclosed : Enclosed us)
    (same : .sign "[" :: (us ++ [.sign "]"]) = front ++ back) (some : front ≠ [])
    (more : back ≠ []) : ¬ Enclosed front := by
  intro closed
  obtain ⟨first, front, rfl⟩ := List.exists_cons_of_ne_nil some
  obtain ⟨back, last, rfl⟩ := (List.eq_nil_or_concat' back).resolve_left more
  rw [List.cons_append, ← List.append_assoc] at same
  obtain ⟨rfl, inside⟩ := List.cons.inj same
  obtain ⟨rfl, -⟩ := List.append_inj' inside rfl
  -- behind the first part of what is inside, the square bracket is still open
  have whole := enclosed 0
  rw [scan_append, Option.bind_eq_some_iff] at whole
  obtain ⟨depth, known, -⟩ := whole
  have open' := closed 0
  rw [scan_cons, depthAfter, if_pos (by decide), Option.bind_some, scan_succ known] at open'
  cases open'

/-! ## The brackets of expressions -/

/-- Whether commas stand outside of brackets in the tokens of a form. -/
def Goal.isListed : Goal → Bool
  | .expression | .items | .entries => true
  | _ => false

/-- How the tokens of a form are nested. -/
def Nested (goal : Goal) (ts : List Token) : Prop :=
  if goal.isListed then Listed ts else Enclosed ts

theorem isInner_operators {op : Token}
    (known : op ∈ tiers.flatten ++ assignments ++ unaries ++ updates) :
    isInner op = true := by
  have table : ∀ op ∈ tiers.flatten ++ assignments ++ unaries ++ updates, isInner op = true := by
    decide
  exact table op known

theorem isInner_key {key : Token} (known : key.isKey = true) : isInner key = true := by
  cases key with
  | sign => cases known
  | _ => simp [isInner, openings, closings]

/-- Brackets close in whatever the grammar derives. -/
theorem Derives.nested {goal : Goal} {ts : List Token} {t : Tree} (derives : Derives goal ts t) :
    Nested goal ts := by
  induction derives with
  | noComma _ ih => exact Enclosed.listed ih
  | comma _ _ ih ih' => exact Listed.comma ih (Enclosed.listed ih')
  | noAssignment _ ih | noCondition _ ih | noOperator _ _ ih | lastTier _ ih | noExponent _ ih
  | noUnary _ ih | noUpdate _ ih | leftNew _ ih | leftCall _ ih | newMember _ ih
  | memberPrimary _ ih => exact ih
  | assign _ _ known _ ih ih' =>
      exact Enclosed.append ih (.cons (isInner_operators (by simp [known])) ih')
  | conditional _ _ _ ih ih' ih'' =>
      exact Enclosed.append ih (.cons (by decide) (Enclosed.append ih' (.cons (by decide) ih'')))
  | operator level mem _ _ ih ih' =>
      have listed := List.mem_flatten.mpr ⟨_, List.mem_of_getElem? level, mem⟩
      exact Enclosed.append ih (.cons (isInner_operators (by simp [listed])) ih')
  | exponent _ _ ih ih' => exact Enclosed.append ih (.cons (by decide) ih')
  | unary known _ ih => exact Enclosed.cons (isInner_operators (by simp [known])) ih
  | updateBehind _ _ known ih =>
      exact Enclosed.append ih (.cons (isInner_operators (by simp [known])) .nil)
  | updateBefore known _ _ ih => exact Enclosed.cons (isInner_operators (by simp [known])) ih
  | call _ _ ih ih' | callCall _ _ ih ih' => exact Enclosed.append ih (.wrapped ih')
  | callIndex _ _ ih ih' | memberIndex _ _ ih ih' =>
      exact Enclosed.append ih (.of_listed (by decide) (by decide) ih')
  | callField _ ih | memberField _ ih =>
      exact Enclosed.append ih (.cons (by decide) (.cons (isInner_key rfl) .nil))
  | newBare _ ih => exact Enclosed.cons (by decide) ih
  | memberNew _ _ ih ih' => exact Enclosed.cons (by decide) (Enclosed.append ih (.wrapped ih'))
  | name | constant | number | text => exact Enclosed.cons (isInner_key rfl) .nil
  | array _ ih | object _ ih => exact Enclosed.of_listed (by decide) (by decide) ih
  | parenthesized _ ih => exact Enclosed.wrapped ih
  | noItem | noEntry => exact Enclosed.listed .nil
  | lastItem _ ih => exact Enclosed.listed ih
  | nextItem _ _ ih ih' => exact Listed.comma (Enclosed.listed ih) ih'
  | lastEntry known _ ih =>
      exact Enclosed.listed (.cons (isInner_key known) (.cons (by decide) ih))
  | nextEntry known _ _ ih ih' =>
      exact Listed.comma (Enclosed.listed (.cons (isInner_key known) (.cons (by decide) ih))) ih'

theorem isInner_literal (value : Literal) : isInner (literal value) = true := by
  cases value with
  | number value => cases value <;> exact isInner_key rfl
  | _ => exact isInner_key rfl

theorem isInner_binary (op : BinaryOp) : isInner (.sign (JavaScript.operator op)) = true := by
  cases op <;> decide

theorem isInner_unary (op : UnaryOp) : isInner (.sign op.text) = true := by
  cases op <;> decide

namespace Enclosed

theorem operand {e : Expr} (enclosed : Enclosed (tokens e)) :
    Enclosed (asOperand e (tokens e)) := by
  unfold asOperand
  split
  · exact wrapped enclosed.listed
  · exact enclosed

mutual

theorem expr : ∀ e : Expr, Enclosed (tokens e)
  | .literal note value => by
      rw [tokens]
      exact cons (isInner_literal value) nil
  | .ident note name entity => by
      rw [tokens]
      exact cons (isInner_key rfl) nil
  | .call note callee args => by
      rw [tokens]
      exact (expr callee).operand.append (wrapped (list args))
  | .this note field => by
      rw [tokens]
      exact cons (by decide) (cons (by decide) (cons (isInner_key rfl) nil))
  | .new note target args => by
      rw [tokens]
      exact cons (by decide) ((expr target).operand.append (wrapped (list args)))
  | .typeOf note operand => by
      rw [tokens]
      exact cons (by decide) (expr operand).operand
  | .ternary note condition yes no => by
      rw [tokens]
      exact (expr condition).operand.append (cons (by decide)
        ((expr yes).operand.append (cons (by decide) (expr no).operand)))
  | .binary note op left right => by
      have inner := (expr left).operand.append (cons (isInner_binary op) (expr right).operand)
      rw [tokens]
      split
      · exact inner
      · exact wrapped inner.listed
  | .unary note op .before operand => by
      rw [tokens]
      exact cons (isInner_unary op) (wrapped (expr operand).operand.listed)
  | .unary note op .behind operand => by
      rw [tokens]
      exact (expr operand).operand.append (cons (isInner_unary op) nil)
  | .array note elements => by
      rw [tokens]
      exact of_listed (by decide) (by decide) (list elements)
  | .object note entries => by
      rw [tokens]
      exact of_listed (by decide) (by decide) (pairs entries)
  | .member note base index => by
      rw [tokens]
      exact (expr base).operand.append (of_listed (by decide) (by decide) (expr index).listed)
  | .property note base field => by
      rw [tokens]
      exact (expr base).operand.append (cons (by decide) (cons (isInner_key rfl) nil))

theorem list : ∀ es : List Expr, Listed (EcmaScript.list es)
  | [] => nil.listed
  | [e] => (expr e).listed
  | e :: e' :: others => (expr e).listed.comma (list (e' :: others))

theorem pair : ∀ entry : Pair, Enclosed (EcmaScript.pair entry)
  | .mk pos key value canonical => (expr key).append (cons (by decide) (expr value))

theorem pairs : ∀ entries : List Pair, Listed (EcmaScript.pairs entries)
  | [] => nil.listed
  | [entry] => (pair entry).listed
  | entry :: entry' :: others => (pair entry).listed.comma (pairs (entry' :: others))

end

end Enclosed

/-! ## The keys that are property names -/

theorem tokens_ne_nil (e : Expr) : tokens e ≠ [] := by
  cases e with
  | unary note op side operand => cases side <;> simp [tokens]
  | binary note op left right =>
      rw [tokens]
      split <;> simp [wrapped]
  | _ => simp [tokens, wrapped]

theorem operand_ne_nil (e : Expr) : asOperand e (tokens e) ≠ [] := by
  unfold asOperand
  split
  · simp [wrapped]
  · exact tokens_ne_nil e

/-- Tokens with a front that closes its brackets before the end, or that begin with a bracket of
another sort. -/
inductive Apart : List Token → Prop
  | front {ts us : List Token} : Enclosed ts → ts ≠ [] → us ≠ [] → Apart (ts ++ us)
  | bracket {opening : Token} {ts : List Token} :
      opening ∈ [Token.sign "(", .sign "\x7b"] → ts ≠ [] → Apart (opening :: ts)

theorem Apart.cons {token : Token} {ts : List Token} (inner : isInner token = true)
    (some : ts ≠ []) :
    Apart (token :: ts) :=
  @Apart.front [token] ts (.cons inner .nil) (List.cons_ne_nil _ _) some

theorem Apart.not_isPropertyName {ts : List Token} (apart : Apart ts) : ¬ IsPropertyName ts := by
  cases apart with
  | @front ts us enclosed some more =>
      rintro (⟨token, same, -⟩ | ⟨inside, t, same, derives⟩)
      · obtain ⟨first, rest, rfl⟩ := List.exists_cons_of_ne_nil some
        obtain ⟨next, others, rfl⟩ := List.exists_cons_of_ne_nil more
        simp at same
      · exact not_enclosed_front derives.nested same.symm some more enclosed
  | bracket known some =>
      rintro (⟨token, same, -⟩ | ⟨inside, t, same, derives⟩)
      · exact some (List.cons.inj same).2
      · rw [(List.cons.inj same).1] at known
        exact absurd known (by decide)

/-- Besides constants, names and lists, every expression is written apart. -/
theorem apart_tokens {e : Expr} (other : isPlainKey e = false)
    (noList : ∀ note elements, e ≠ .array note elements) : Apart (tokens e) := by
  have operand : ∀ e, Enclosed (asOperand e (tokens e)) := fun e => (Enclosed.expr e).operand
  cases e with
  | literal | ident => cases other
  | array note elements => exact absurd rfl (noList note elements)
  | call note callee args =>
      rw [tokens]
      exact .front (operand callee) (operand_ne_nil callee) (by simp [wrapped])
  | this note field =>
      rw [tokens]
      exact .cons (isInner_key rfl) (by simp)
  | new note target args =>
      rw [tokens]
      exact .cons (isInner_key rfl) (by simp [wrapped])
  | typeOf note inner =>
      rw [tokens]
      exact .cons (isInner_key rfl) (operand_ne_nil inner)
  | ternary note condition yes no =>
      rw [tokens]
      exact .front (operand condition) (operand_ne_nil condition) (by simp)
  | binary note op left right =>
      rw [tokens]
      split
      · exact .front (operand left) (operand_ne_nil left) (by simp)
      · exact .bracket (by decide) (by simp)
  | unary note op side inner =>
      cases side with
      | before =>
          rw [tokens]
          exact .cons (isInner_unary op) (by simp [wrapped])
      | behind =>
          rw [tokens]
          exact .front (operand inner) (operand_ne_nil inner) (by simp)
  | object note entries =>
      rw [tokens]
      exact .bracket (by decide) (by simp)
  | member note base index =>
      rw [tokens]
      exact .front (operand base) (operand_ne_nil base) (by simp)
  | property note base field =>
      rw [tokens]
      exact .front (operand base) (operand_ne_nil base) (by simp)

/-- In square brackets stands a property name just if one expression stands there. -/
theorem isPropertyName_array {note : Note} {elements : List Expr} :
    IsPropertyName (tokens (.array note elements)) ↔
      ∃ e t, elements = [e] ∧ Derives .assignment (tokens e) t := by
  rw [tokens]
  constructor
  · rintro (⟨token, same, -⟩ | ⟨us, t, same, derives⟩)
    · simp at same
    · obtain ⟨rfl, -⟩ := List.append_inj' (List.cons.inj same).2 rfl
      match elements, derives with
      | [], derives =>
          obtain ⟨first, rest, same, -⟩ := derives.begins rfl
          cases same
      | [e], derives => exact ⟨e, t, rfl, derives⟩
      | e :: e' :: others, derives =>
          -- the comma between the first two elements stands outside of all brackets
          have closes : Enclosed (tokens e ++ .sign "," :: list (e' :: others)) := derives.nested
          have whole := closes 0
          rw [scan_append, Enclosed.expr e, Option.bind_some, scan_cons, depthAfter,
            if_neg (by decide), if_neg (by decide), if_pos (by simp)] at whole
          cases whole
  · rintro ⟨e, t, rfl, derives⟩
    exact .inr ⟨_, t, rfl, derives⟩

/-- The keys whose text is a property name. -/
theorem isPropertyName_tokens (key : Expr) :
    IsPropertyName (tokens key) ↔ isPlainKey key = true ∨
      ∃ note e t, key = .array note [e] ∧ Derives .assignment (tokens e) t := by
  cases plain : isPlainKey key with
  | true =>
      obtain ⟨same, known⟩ := @key_spec default key key none plain
      exact iff_of_true (.inl ⟨_, same, known⟩) (.inl rfl)
  | false =>
      by_cases noList : ∀ note elements, key ≠ .array note elements
      · refine iff_of_false (apart_tokens plain noList).not_isPropertyName ?_
        rintro (other | ⟨note, e, t, rfl, -⟩)
        · cases other
        · exact noList _ _ rfl
      · push Not at noList
        obtain ⟨note, elements, rfl⟩ := noList
        rw [isPropertyName_array]
        constructor
        · rintro ⟨e, t, rfl, derives⟩
          exact .inr ⟨note, e, t, rfl, derives⟩
        · rintro (other | ⟨note, e, t, same, derives⟩)
          · cases other
          · cases same
            exact ⟨e, t, rfl, derives⟩

end Qalam.EcmaScript

namespace Qalam

open EcmaScript

/-- What is inside an entry is inside the object. -/
theorem Parts.pair_subset {entries : List Pair} {entry : Pair} (listed : entry ∈ entries) :
    Parts.pair entry ⊆ Parts.pairs entries := by
  induction entries with
  | nil => cases listed
  | cons first others ih =>
      rw [Parts.pairs]
      rcases List.mem_cons.mp listed with rfl | further
      · exact List.subset_append_left _ _
      · exact List.subset_append_of_subset_right _ (ih further)

/-- The text of the key of an entry. -/
theorem EcmaScript.lex_key {entry : Pair}
    (word : ∀ {note name entity}, entry.key = .ident note name entity → IsWord name)
    (legible : ∀ x ∈ Parts.pair entry, Legible x) :
    lex (JavaScript.expr entry.key) = some (tokens entry.key) := by
  obtain ⟨pos, key, value, canonical⟩ := entry
  by_cases plain : Parts.isName key = true
  · cases key with
    | ident note name entity =>
        rw [Pair.key, JavaScript.expr, tokens]
        exact (lexes_word (word rfl)).loosen.lex
    | _ => cases plain
  · rw [Parts.pair, if_neg plain, List.forall_mem_append] at legible
    exact (Read.expr legible.1).text.lex

/-- The text of a key in an accepted program is read token by token. -/
theorem Program.key_tokens {source : List Token} {program : Program} {bound : BoundProgram}
    (parsed : Program.ofTokens source = .ok program) (binds : program.bind = .ok bound)
    {oracle : Naming.Oracle} {note : Note} {entries : List Pair}
    (part : .object note entries ∈ (bound.program.rename oracle).parts) {entry : Pair}
    (listed : entry ∈ entries) :
    lex (JavaScript.expr entry.key) = some (tokens entry.key) := by
  have legible : ∀ x ∈ Parts.expr (.object note entries), Legible x :=
    fun x mem => (Program.parts_rename parsed binds part x mem).1
  rw [Parts.expr, List.forall_mem_cons] at legible
  exact lex_key (legible.1 entry listed) fun x mem => legible.2 x (Parts.pair_subset listed mem)

/-- The text of a key in an object literal of an accepted program is a property name just if the
key is a constant, a plain name, or a list whose one element is written as an expression. -/
theorem Program.key_isPropertyName {source : List Token} {program : Program}
    {bound : BoundProgram} (parsed : Program.ofTokens source = .ok program)
    (binds : program.bind = .ok bound) (oracle : Naming.Oracle) {note : Note} {entries : List Pair}
    (part : .object note entries ∈ (bound.program.rename oracle).parts) {entry : Pair}
    (listed : entry ∈ entries) :
    ∃ ts, lex (JavaScript.expr entry.key) = some ts ∧
      (IsPropertyName ts ↔ isPlainKey entry.key = true ∨
        ∃ note e t, entry.key = .array note [e] ∧ Derives .assignment (tokens e) t) :=
  ⟨_, Program.key_tokens parsed binds part listed, isPropertyName_tokens entry.key⟩

/-- The tokens of `let x = 1; print(\x7bx + 1: 2, 7: 3\x7d);`. -/
def keyedTokens : List Token :=
  [⟨.keyword .letKw, ⟨1, 1⟩⟩, ⟨.ident "x", ⟨1, 2⟩⟩, ⟨.symbol .eq, ⟨1, 3⟩⟩, ⟨.int 1, ⟨1, 4⟩⟩,
    ⟨.symbol .semi, ⟨1, 5⟩⟩, ⟨.keyword .printKw, ⟨2, 1⟩⟩, ⟨.symbol .lparen, ⟨2, 2⟩⟩,
    ⟨.symbol .lbrace, ⟨2, 3⟩⟩, ⟨.ident "x", ⟨2, 4⟩⟩, ⟨.symbol .plus, ⟨2, 5⟩⟩, ⟨.int 1, ⟨2, 6⟩⟩,
    ⟨.symbol .colon, ⟨2, 7⟩⟩, ⟨.int 2, ⟨2, 8⟩⟩, ⟨.symbol .comma, ⟨2, 9⟩⟩, ⟨.int 7, ⟨2, 10⟩⟩,
    ⟨.symbol .colon, ⟨2, 11⟩⟩, ⟨.int 3, ⟨2, 12⟩⟩, ⟨.symbol .rbrace, ⟨2, 13⟩⟩,
    ⟨.symbol .rparen, ⟨2, 14⟩⟩, ⟨.symbol .semi, ⟨2, 15⟩⟩, ⟨.eof, ⟨2, 16⟩⟩]

/-- The key that is a sum, before and after binding and with the name of the text. -/
def keyedSum (tag : Tag → Option Tag) (x : String) (entity : Option EntityId) : Expr :=
  .binary ⟨⟨2, 4⟩, tag .number⟩ .add (.ident ⟨⟨2, 4⟩, tag .int⟩ x entity)
    (.literal ⟨⟨2, 6⟩, tag .int⟩ (.int 1))

/-- The entries of the object. -/
def keyedEntries (tag : Tag → Option Tag) (x : String) (entity : Option EntityId)
    (canonical : String → Option String) : List Pair :=
  [.mk ⟨2, 4⟩ (keyedSum tag x entity) (.literal ⟨⟨2, 8⟩, tag .int⟩ (.int 2))
      (canonical "<expr@2:4>"),
    .mk ⟨2, 10⟩ (.literal ⟨⟨2, 10⟩, tag .int⟩ (.int 7)) (.literal ⟨⟨2, 12⟩, tag .int⟩ (.int 3))
      (canonical "7")]

/-- The program with the object. -/
def keyedProgram (tag : Tag → Option Tag) (x : String) (entity : Option EntityId)
    (canonical : String → Option String) : Program :=
  ⟨[.declare ⟨1, 1⟩ false ⟨x, ⟨1, 2⟩, entity⟩ (some (.literal ⟨⟨1, 4⟩, tag .int⟩ (.int 1))),
    .print ⟨2, 1⟩ (.object ⟨⟨2, 3⟩, tag .object⟩ (keyedEntries tag x entity canonical))]⟩

/-- The program after binding. -/
def keyedBound : BoundProgram :=
  ⟨keyedProgram some "x" (some ⟨0⟩) some, ⟨#[.variable "x" false .int]⟩⟩

theorem keyedProgram_parsed : Program.ofTokens keyedTokens =
    .ok (keyedProgram (fun _ => none) "x" none fun _ => none) := rfl

theorem keyedProgram_binds :
    (keyedProgram (fun _ => none) "x" none fun _ => none).bind = .ok keyedBound := rfl

theorem keyedObject_part :
    .object ⟨⟨2, 3⟩, some .object⟩ (keyedEntries some "var_1" (some ⟨0⟩) some) ∈
      (keyedBound.program.rename .silent).parts := by
  have same : keyedBound.program.rename .silent = keyedProgram some "var_1" (some ⟨0⟩) some := rfl
  rw [same]
  simp [Program.parts, keyedProgram, Parts.statements, Parts.statement, Parts.mem_self]

theorem Program.key_isPropertyName_number :
    ∃ ts, lex (JavaScript.expr (.literal ⟨⟨2, 10⟩, some .int⟩ (.int 7))) = some ts ∧
      (IsPropertyName ts ↔ isPlainKey (.literal ⟨⟨2, 10⟩, some .int⟩ (.int 7)) = true ∨
        ∃ note e t, Expr.literal ⟨⟨2, 10⟩, some .int⟩ (.int 7) = .array note [e] ∧
          Derives .assignment (tokens e) t) :=
  Program.key_isPropertyName keyedProgram_parsed keyedProgram_binds .silent keyedObject_part
    (List.mem_cons_of_mem _ List.mem_cons_self)

/-- A sum is accepted as a key, and its text is no property name. -/
theorem Program.sum_not_property_name :
    Program.ofTokens keyedTokens = .ok (keyedProgram (fun _ => none) "x" none fun _ => none) ∧
      (keyedProgram (fun _ => none) "x" none fun _ => none).bind = .ok keyedBound ∧
      .object ⟨⟨2, 3⟩, some .object⟩ (keyedEntries some "var_1" (some ⟨0⟩) some) ∈
        (keyedBound.program.rename .silent).parts ∧
      ∃ entry ∈ keyedEntries some "var_1" (some ⟨0⟩) some, ∃ ts,
        lex (JavaScript.expr entry.key) = some ts ∧ ¬ IsPropertyName ts := by
  refine ⟨keyedProgram_parsed, keyedProgram_binds, keyedObject_part, _, List.mem_cons_self, _,
    Program.key_tokens keyedProgram_parsed keyedProgram_binds keyedObject_part List.mem_cons_self,
    ?_⟩
  rw [isPropertyName_tokens]
  rintro (plain | ⟨note, e, t, same, -⟩)
  · cases plain
  · cases same

example : JavaScript.expr (.object ⟨⟨2, 3⟩, some .object⟩
    (keyedEntries some "var_1" (some ⟨0⟩) some)) = "\x7b(var_1 + 1): 2, 7: 3\x7d" := by
  decide +kernel

end Qalam
