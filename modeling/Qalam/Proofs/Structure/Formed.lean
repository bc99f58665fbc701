/-
# What later passes may rely on

Binding, naming and writing never look at a tree that was not read from tokens, and they rely on
what reading promises: what is assigned to can be assigned to, a declaration of several names has
several, an `if` has an alternative, and nothing is recorded that only binding finds out. Every part
of the tree is read from a stretch of the tokens and has the position of its first token. An
expression may have opening parentheses before that token, which leave no trace in the tree.

The promises are made for every derivation of the grammar, one rule after the other. What stands at
the beginning of an expression is known first, since the rules for suffixes build a new node around
an expression that has been read already.
-/

import Qalam.Proofs.Structure.Nodes
import Qalam.Proofs.Structure.Written

namespace Qalam

open Grammar

namespace Grammar

/-- The position of the first token that is no opening parenthesis. -/
def leadPos? (ts : List Token) : Option Position :=
  (ts.find? fun token => token.kind ≠ .symbol .lparen).map Token.pos

theorem leadPos?_append {ts : List Token} {pos : Position} (leads : leadPos? ts = some pos)
    (us : List Token) : leadPos? (ts ++ us) = some pos := by
  obtain ⟨token, found, rfl⟩ := Option.map_eq_some_iff.mp leads
  rw [leadPos?, List.find?_append, found]
  rfl

theorem leadPos?_cons {token : Token} (other : token.kind ≠ .symbol .lparen) (ts : List Token) :
    leadPos? (token :: ts) = some token.pos := by
  rw [leadPos?, List.find?_cons_of_pos (by simpa using other)]
  rfl

theorem ne_lparen_of_mem_negations {symbol : Symbol} {op : UnaryOp}
    (mem : (symbol, op) ∈ negations) : symbol ≠ .lparen := by
  rintro rfl
  simp [negations] at mem

theorem ne_lparen_of_mem_mutations {symbol : Symbol} {op : UnaryOp}
    (mem : (symbol, op) ∈ mutations) : symbol ≠ .lparen := by
  rintro rfl
  simp [mutations] at mem

end Grammar

/-! ## What reading promises -/

/-- An expression was read from tokens that begin with the one at its position, parentheses aside.
If it is a name, then it was read from the token of that name. -/
structure Expr.LedBy (ts : List Token) (e : Expr) : Prop where
  pos : leadPos? ts = some e.pos
  tag : e.note.tag = none
  name : ∀ note name entity, e = .ident note name entity → [word name note.pos] <:+: ts

namespace Node

/-- Nothing is recorded in a node that binding adds. -/
def Blank : Node → Prop
  | expr e => e.note.tag = none ∧ e.entity? = none
  | pair (.mk _ _ _ canonical) => canonical = none
  | binding name => name.entity = none
  | parameter param => param.note.tag = none ∧ param.entity = none
  | field name => name.note.tag = none
  | _ => True

/-- What is stored into can be stored into, several names are declared where several are promised,
and an `if` has an alternative. -/
def Shaped : Node → Prop
  | expr e => e.Written
  | statement (.assign _ target _) => target.isAssignable = true
  | statement (.declareAll _ _ entries) => 2 ≤ entries.length
  | statement (.ifElse _ alternatives _) => alternatives ≠ []
  | _ => True

/-- The tokens that a node was read from, with the first of them at its position. -/
def ReadFrom (ts : List Token) : Node → Prop
  | statement s => Forms .statement ts s ∧ ts.head?.map Token.pos = some s.pos
  | expr e => ∃ level, Derives (.expr level) ts e ∧ leadPos? ts = some e.pos
  | binding name => ts = [word name.name name.pos]
  | parameter param => ts = [word param.name param.note.pos]
  | field name => ts = [word name.name name.note.pos]
  | _ => True

/-- What reading promises about a node of a tree. -/
structure Formed (ts : List Token) (node : Node) : Prop where
  blank : node.Blank
  shaped : node.Shaped
  placed : ∀ pos ∈ node.positions, ∃ token ∈ ts, token.pos = pos
  read : ∃ used, used <:+: ts ∧ node.ReadFrom used

theorem Formed.mono {ts us : List Token} {node : Node} (formed : node.Formed ts)
    (inside : ts <:+: us) : node.Formed us where
  blank := formed.blank
  shaped := formed.shaped
  placed pos mem := by
    obtain ⟨token, listed, same⟩ := formed.placed pos mem
    exact ⟨token, inside.subset listed, same⟩
  read := by
    obtain ⟨used, part, read⟩ := formed.read
    exact ⟨used, part.trans inside, read⟩

theorem formed_mono {nodes : List Node} {ts us : List Token}
    (formed : ∀ node ∈ nodes, node.Formed ts) (inside : ts <:+: us) :
    ∀ node ∈ nodes, node.Formed us :=
  fun node mem => (formed node mem).mono inside

/-- A node without tokens of its own has its position from a token around it. -/
theorem formed_of_mem {ts : List Token} {node : Node} {token : Token} (mem : token ∈ ts)
    (positions : node.positions = [token.pos]) (blank : node.Blank) (shaped : node.Shaped)
    (read : node.ReadFrom ts) : node.Formed ts := by
  refine ⟨blank, shaped, ?_, ts, List.infix_rfl, read⟩
  rw [positions, List.forall_mem_singleton]
  exact ⟨token, mem, rfl⟩

theorem formed_binding {ts : List Token} {name : String} {pos : Position}
    (inside : [word name pos] <:+: ts) : (binding ⟨name, pos, none⟩).Formed ts := by
  have here : (binding ⟨name, pos, none⟩).Formed [word name pos] :=
    formed_of_mem List.mem_cons_self rfl rfl trivial rfl
  exact here.mono inside

theorem formed_parameter {ts : List Token} {name : String} {pos : Position}
    (inside : [word name pos] <:+: ts) : (parameter ⟨name, .at pos, none⟩).Formed ts := by
  have here : (parameter ⟨name, .at pos, none⟩).Formed [word name pos] :=
    formed_of_mem List.mem_cons_self rfl ⟨rfl, rfl⟩ trivial rfl
  exact here.mono inside

theorem formed_field {ts : List Token} {name : String} {note : Note} (blank : note.tag = none)
    (inside : [word name note.pos] <:+: ts) : (field ⟨name, note⟩).Formed ts := by
  have here : (field ⟨name, note⟩).Formed [word name note.pos] :=
    formed_of_mem List.mem_cons_self rfl blank trivial rfl
  exact here.mono inside

end Node

namespace Grammar

open Node

/-! ## Expressions -/

/-- How the tokens of a part of an expression begin. -/
def Phrase.Led (ts : List Token) : (phrase : Phrase) → phrase.Tree → Prop
  | .expr _, e => e.LedBy ts
  | _, _ => True

/-- What is built around an expression begins where the expression does. -/
theorem LedBy.extend {ts : List Token} {e whole : Expr} (led : e.LedBy ts) (us : List Token)
    (same : whole.note = .at e.pos) (other : Parts.isName whole = false) :
    whole.LedBy (ts ++ us) := by
  refine ⟨?_, by rw [same]; rfl, ?_⟩
  · rw [Expr.pos, same]
    exact leadPos?_append led.pos us
  · rintro note name entity rfl
    cases other

theorem Derives.led {phrase : Phrase} {ts : List Token} {tree : phrase.Tree}
    (derives : Derives phrase ts tree) : phrase.Led ts tree := by
  have first : ∀ {token : Token} {us : List Token} {e : Expr}, token.kind ≠ .symbol .lparen →
      e.note = .at token.pos → Parts.isName e = false → e.LedBy (token :: us) := by
    intro token us e closed same other
    refine ⟨?_, by rw [same]; rfl, ?_⟩
    · rw [Expr.pos, same]
      exact leadPos?_cons closed us
    · rintro note name entity rfl
      cases other
  induction derives with
  | plain _ ih | unconditional _ ih | single _ ih | noOperator _ ih | noExponent _ ih
  | noSuffix _ ih => exact ih
  | compound _ _ _ _ ih | conditional _ _ _ ih | operator _ _ _ ih | exponent _ _ ih | call _ _ ih
  | property _ ih | member _ _ ih | this _ ih | dotThis _ ih | mutationBehind _ _ _ ih =>
      exact LedBy.extend ih _ rfl rfl
  | new _ ih => exact LedBy.extend ih _ rfl rfl
  | typeOf => exact first (by simp [key]) rfl rfl
  | negation known =>
      exact first (by simpa [sym] using ne_lparen_of_mem_negations known) rfl rfl
  | mutationBefore known =>
      exact first (by simpa [sym] using ne_lparen_of_mem_mutations known) rfl rfl
  | literal known => exact first (by cases known <;> simp) rfl rfl
  | ident =>
      refine ⟨leadPos?_cons (by simp [word]) _, rfl, ?_⟩
      rintro _ _ _ ⟨⟩
      exact List.infix_rfl
  | @parenthesized ts e pos pos' _ ih =>
      have led : e.LedBy ts := ih
      refine ⟨?_, led.tag, fun note name entity same => ?_⟩
      · rw [leadPos?, List.find?_cons_of_neg (by simp [sym])]
        exact leadPos?_append led.pos _
      · have inside : [word name note.pos] <:+: ts := led.name note name entity same
        exact inside.trans ⟨[sym .lparen pos], [sym .rparen pos'], by simp⟩
  | array | object => exact first (by simp [sym]) rfl rfl
  | lastItem | nextItem | noArguments | someArguments | entry | lastEntry | nextEntry | noFields
  | someFields => trivial

/-- What was read as an expression is a node of the tree. -/
theorem Derives.formed_self {level : Level} {ts : List Token} {e : Expr}
    (derives : Derives (.expr level) ts e) : (expr e).Formed ts := by
  have led : e.LedBy ts := derives.led
  obtain ⟨token, found, same⟩ := Option.map_eq_some_iff.mp led.pos
  refine ⟨⟨led.tag, derives.written.2⟩, derives.written_expr e (Parts.mem_self e), ?_,
    ts, List.infix_rfl, level, derives, led.pos⟩
  rw [positions, List.forall_mem_singleton]
  exact ⟨token, List.mem_of_find?_eq_some found, same⟩

/-- The nodes of a part of an expression. -/
def Phrase.nodes : (phrase : Phrase) → phrase.Tree → List Node
  | .expr _, e => Nodes.expr e
  | .items, es | .arguments, es => Nodes.exprs es
  | .entry, made => Nodes.pair made
  | .entries, made | .fields, made => Nodes.pairs made

theorem infix_behind (ts us : List Token) (token : Token) : us <:+: ts ++ token :: us :=
  ⟨ts ++ [token], [], by simp⟩

theorem infix_enclosed (ts us vs : List Token) (token : Token) :
    us <:+: ts ++ token :: (us ++ vs) :=
  ⟨ts ++ [token], vs, by simp⟩

@[grind ←]
theorem infix_front (ts us : List Token) : ts <:+: ts ++ us := ⟨[], us, rfl⟩

@[grind ←]
theorem infix_head (token : Token) (ts : List Token) : [token] <:+: token :: ts := ⟨[], ts, rfl⟩

@[grind ←]
theorem infix_skip {us vs : List Token} (ts : List Token) (inside : us <:+: vs) :
    us <:+: ts ++ vs :=
  inside.trans ⟨ts, [], by simp⟩

attribute [local grind ←] List.infix_cons

theorem Derives.formed {phrase : Phrase} {ts : List Token} {tree : phrase.Tree}
    (derives : Derives phrase ts tree) : ∀ node ∈ phrase.nodes tree, node.Formed ts := by
  induction derives with
  | plain _ ih | unconditional _ ih | single _ ih | noOperator _ ih | noExponent _ ih
  | noSuffix _ ih | someArguments _ ih | someFields _ ih => exact ih
  | compound left assignable known right ih ih' =>
      simp only [Phrase.nodes, Nodes.expr, List.forall_mem_cons, List.forall_mem_append]
      exact ⟨formed_self (.compound left assignable known right), formed_mono ih (infix_front _ _),
        formed_mono ih' (infix_behind _ _ _)⟩
  | operator left known right ih ih' =>
      simp only [Phrase.nodes, Nodes.expr, List.forall_mem_cons, List.forall_mem_append]
      exact ⟨formed_self (.operator left known right), formed_mono ih (infix_front _ _),
        formed_mono ih' (infix_behind _ _ _)⟩
  | exponent left right ih ih' =>
      simp only [Phrase.nodes, Nodes.expr, List.forall_mem_cons, List.forall_mem_append]
      exact ⟨formed_self (.exponent left right), formed_mono ih (infix_front _ _),
        formed_mono ih' (infix_behind _ _ _)⟩
  | conditional condition yes no ih ih' ih'' =>
      simp only [Phrase.nodes, Nodes.expr, List.forall_mem_cons, List.forall_mem_append]
      exact ⟨formed_self (.conditional condition yes no), formed_mono ih (infix_front _ _),
        formed_mono ih' (infix_enclosed _ _ _ _),
        formed_mono ih'' ((infix_behind _ _ _).trans (infix_behind _ _ _))⟩
  | typeOf operand ih =>
      simp only [Phrase.nodes, Nodes.expr, List.forall_mem_cons]
      exact ⟨formed_self (.typeOf operand), formed_mono ih (infix_behind [] _ _)⟩
  | negation known operand ih =>
      simp only [Phrase.nodes, Nodes.expr, List.forall_mem_cons]
      exact ⟨formed_self (.negation known operand), formed_mono ih (infix_behind [] _ _)⟩
  | mutationBefore known operand assignable ih =>
      simp only [Phrase.nodes, Nodes.expr, List.forall_mem_cons]
      exact ⟨formed_self (.mutationBefore known operand assignable),
        formed_mono ih (infix_behind [] _ _)⟩
  | call callee args ih ih' =>
      simp only [Phrase.nodes, Nodes.expr, List.forall_mem_cons, List.forall_mem_append]
      exact ⟨formed_self (.call callee args), formed_mono ih (infix_front _ _),
        formed_mono ih' (infix_enclosed _ _ _ _)⟩
  | member base index ih ih' =>
      simp only [Phrase.nodes, Nodes.expr, List.forall_mem_cons, List.forall_mem_append]
      exact ⟨formed_self (.member base index), formed_mono ih (infix_front _ _),
        formed_mono ih' (infix_enclosed _ _ _ _)⟩
  | property base ih =>
      simp only [Phrase.nodes, Nodes.expr, List.forall_mem_cons]
      exact ⟨formed_self (.property base), formed_field rfl (infix_behind _ _ _),
        formed_mono ih (infix_front _ _)⟩
  | this named =>
      have led : Expr.LedBy _ (.ident _ _ _) := named.led
      simp only [Phrase.nodes, Nodes.expr, List.forall_mem_cons]
      exact ⟨formed_self (.this named),
        formed_field led.tag ((led.name _ _ _ rfl).trans (infix_front _ _)), List.forall_mem_nil _⟩
  | dotThis named =>
      have led : Expr.LedBy _ (.ident _ _ _) := named.led
      simp only [Phrase.nodes, Nodes.expr, List.forall_mem_cons]
      exact ⟨formed_self (.dotThis named),
        formed_field led.tag ((led.name _ _ _ rfl).trans (infix_front _ _)), List.forall_mem_nil _⟩
  | new call ih =>
      simp only [Phrase.nodes, Nodes.expr, List.forall_mem_cons, List.forall_mem_append] at ih ⊢
      exact ⟨formed_self (.new call), formed_mono ih.2.1 (infix_front _ _),
        formed_mono ih.2.2 (infix_front _ _)⟩
  | mutationBehind operand assignable known ih =>
      simp only [Phrase.nodes, Nodes.expr, List.forall_mem_cons]
      exact ⟨formed_self (.mutationBehind operand assignable known),
        formed_mono ih (infix_front _ _)⟩
  | literal known =>
      simp only [Phrase.nodes, Nodes.expr, List.forall_mem_singleton]
      exact formed_self (.literal known)
  | ident =>
      simp only [Phrase.nodes, Nodes.expr, List.forall_mem_singleton]
      exact formed_self .ident
  | parenthesized _ ih => exact formed_mono ih (infix_enclosed [] _ _ _)
  | array elements ih =>
      simp only [Phrase.nodes, Nodes.expr, List.forall_mem_cons]
      exact ⟨formed_self (.array elements), formed_mono ih (infix_enclosed [] _ _ _)⟩
  | object entries ih =>
      simp only [Phrase.nodes, Nodes.expr, List.forall_mem_cons]
      exact ⟨formed_self (.object entries), formed_mono ih (infix_enclosed [] _ _ _)⟩
  | lastItem _ ih =>
      simp only [Phrase.nodes, Nodes.exprs, List.append_nil]
      exact ih
  | nextItem _ _ ih ih' =>
      simp only [Phrase.nodes, Nodes.exprs, List.forall_mem_append]
      exact ⟨formed_mono ih (infix_front _ _), formed_mono ih' (infix_behind _ _ _)⟩
  | noArguments | noFields =>
      intro node mem
      cases mem
  | entry _ _ ih ih' =>
      simp only [Phrase.nodes, Nodes.pair, List.forall_mem_cons, List.forall_mem_append]
      exact ⟨formed_of_mem List.mem_cons_self rfl rfl trivial trivial,
        formed_mono ih (infix_front _ _), formed_mono ih' (infix_behind _ _ _)⟩
  | lastEntry _ ih =>
      simp only [Phrase.nodes, Nodes.pairs, List.append_nil]
      exact ih
  | nextEntry _ _ ih ih' =>
      simp only [Phrase.nodes, Nodes.pairs, List.forall_mem_append]
      exact ⟨formed_mono ih (infix_front _ _), formed_mono ih' (infix_behind _ _ _)⟩

/-! ## Statements -/

/-- A statement begins with the token at its position. -/
theorem Forms.head {ts : List Token} {s : Statement} (forms : Forms .statement ts s) :
    ts.head?.map Token.pos = some s.pos := by
  cases forms with
  | functionStatement function => cases function; rfl
  | _ => rfl

theorem Forms.shaped {ts : List Token} {s : Statement} (forms : Forms .statement ts s) :
    (statement s).Shaped := by
  cases forms with
  | declareAll _ _ several => exact several
  | ifOnly | ifElse => exact List.cons_ne_nil _ _
  | assign _ assignable _ => exact assignable
  | _ => trivial

/-- What was read as a statement is a node of the tree. -/
theorem Forms.formed_self {ts : List Token} {s : Statement} (forms : Forms .statement ts s) :
    (statement s).Formed ts := by
  obtain ⟨first, found, same⟩ := Option.map_eq_some_iff.mp forms.head
  have mem : first ∈ ts := List.mem_of_head? found
  refine ⟨trivial, forms.shaped, ?_, ts, List.infix_rfl, forms, forms.head⟩
  cases forms with
  | @classDef name inner _ _ pos namePos opening closing =>
      simp only [positions, List.forall_mem_cons]
      have brace : sym .lbrace opening ∈ key .classKw pos :: word name namePos ::
          sym .lbrace opening :: (inner ++ [sym .rbrace closing]) := by simp
      exact ⟨⟨first, mem, same⟩, ⟨_, brace, rfl⟩, List.forall_mem_nil _⟩
  | _ =>
      rw [positions.eq_def, List.forall_mem_singleton]
      exact ⟨first, mem, same⟩

theorem Derives.formed_expr {level : Level} {ts us : List Token} {e : Expr}
    (derives : Derives (.expr level) ts e) (inside : ts <:+: us) :
    ∀ node ∈ Nodes.expr e, node.Formed us :=
  formed_mono derives.formed inside

theorem Enclosed.formed {ts us : List Token} {e : Expr} (encloses : Enclosed ts e)
    (inside : ts <:+: us) : ∀ node ∈ Nodes.expr e, node.Formed us := by
  cases encloses with
  | mk inner => exact inner.formed_expr (List.IsInfix.trans (by grind) inside)

theorem Declarator.formed {ts us : List Token} {entry : Binding × Option Expr}
    (declares : Declarator ts entry) (inside : ts <:+: us) :
    ∀ node ∈ Nodes.declarator entry, node.Formed us := by
  cases declares with
  | bare =>
      rw [Nodes.declarator, List.forall_mem_cons]
      exact ⟨formed_binding inside, List.forall_mem_nil _⟩
  | valued init =>
      rw [Nodes.declarator, List.forall_mem_cons]
      exact ⟨formed_binding (List.IsInfix.trans (by grind) inside),
        init.formed_expr (List.IsInfix.trans (by grind) inside)⟩

theorem Separated.formed {ts us : List Token} {entries : List (Binding × Option Expr)}
    (separated : Separated Declarator ts entries) (inside : ts <:+: us) :
    ∀ node ∈ entries.flatMap Nodes.declarator, node.Formed us := by
  induction separated with
  | last declares =>
      rw [List.flatMap_cons, List.flatMap_nil, List.append_nil]
      exact declares.formed inside
  | next declares _ ih =>
      rw [List.flatMap_cons, List.forall_mem_append]
      exact ⟨declares.formed (List.IsInfix.trans (by grind) inside),
        ih (List.IsInfix.trans (by grind) inside)⟩

theorem Separated.formed_params {ts us : List Token} {params : List Parameter}
    (separated : Separated Param ts params) (inside : ts <:+: us) :
    ∀ node ∈ params.map parameter, node.Formed us := by
  induction separated with
  | last param =>
      cases param
      rw [List.map_singleton, List.forall_mem_singleton]
      exact formed_parameter inside
  | next param _ ih =>
      cases param
      rw [List.map_cons, List.forall_mem_cons]
      exact ⟨formed_parameter (List.IsInfix.trans (by grind) inside),
        ih (List.IsInfix.trans (by grind) inside)⟩

theorem Params.formed {ts us : List Token} {params : List Parameter} (listed : Params ts params)
    (inside : ts <:+: us) : ∀ node ∈ params.map parameter, node.Formed us := by
  cases listed with
  | mk listed =>
      cases listed with
      | none => exact List.forall_mem_nil _
      | some separated => exact separated.formed_params (List.IsInfix.trans (by grind) inside)

/-- The nodes of a part of a program. -/
def Piece.nodes : (piece : Piece) → piece.Tree → List Node
  | .statement, s => Nodes.statement s
  | .statements, ss => Nodes.statements ss
  | .block, b => Nodes.block b
  | .elseIfs, arms => Nodes.arms arms
  | .clauses, (arms, some otherwise) => Nodes.arms arms ++ Nodes.block otherwise
  | .clauses, (arms, none) => Nodes.arms arms
  | .function, f => Nodes.function f
  | .members, (some initialiser, methods) =>
    Nodes.constructor initialiser ++ Nodes.functions methods
  | .members, (none, methods) => Nodes.functions methods

/-- Nodes in two places of a statement. -/
theorem formed_append {first second : List Node} {ts : List Token}
    (here : ∀ node ∈ first, node.Formed ts) (there : ∀ node ∈ second, node.Formed ts) :
    ∀ node ∈ first ++ second, node.Formed ts :=
  List.forall_mem_append.mpr ⟨here, there⟩

theorem formed_cons {first : Node} {others : List Node} {ts : List Token} (here : first.Formed ts)
    (there : ∀ node ∈ others, node.Formed ts) : ∀ node ∈ first :: others, node.Formed ts :=
  List.forall_mem_cons.mpr ⟨here, there⟩

theorem infix_four (a b c d : Token) (ts : List Token) : ts <:+: a :: b :: c :: d :: ts :=
  ⟨[a, b, c, d], [], by simp⟩

/-- An alternative has the position of the keyword before it. -/
theorem formed_arm {token : Token} {pos : Position} {ts : List Token} {test : Expr} {body : Block}
    (same : token.pos = pos) (here : ∀ node ∈ Nodes.expr test, node.Formed (token :: ts))
    (there : ∀ node ∈ Nodes.block body, node.Formed (token :: ts)) :
    ∀ node ∈ Nodes.arm (.mk pos test body), node.Formed (token :: ts) := by
  have self : (arm (.mk pos test body)).Formed (token :: ts) :=
    formed_of_mem List.mem_cons_self (by rw [same]; rfl) trivial trivial trivial
  rw [Nodes.arm]
  exact formed_cons self (formed_append here there)

/-- A block has the position of the token before it. -/
theorem formed_block {token : Token} {pos : Position} {ts : List Token} {body : List Statement}
    (same : token.pos = pos) (here : ∀ node ∈ Nodes.statements body, node.Formed (token :: ts)) :
    ∀ node ∈ Nodes.block (.mk pos body), node.Formed (token :: ts) := by
  have self : (block (.mk pos body)).Formed (token :: ts) :=
    formed_of_mem List.mem_cons_self (by rw [same]; rfl) trivial trivial trivial
  rw [Nodes.block]
  exact formed_cons self here

theorem Forms.formed {piece : Piece} {ts : List Token} {tree : piece.Tree}
    (forms : Forms piece ts tree) : ∀ node ∈ piece.nodes tree, node.Formed ts := by
  induction forms with
  | declare known declares =>
      exact formed_cons (Forms.declare known declares).formed_self (declares.formed (by grind))
  | declareAll known separated several =>
      apply formed_cons (Forms.declareAll known separated several).formed_self
      exact separated.formed (by grind)
  | ifOnly test body others ih ih' =>
      apply formed_cons (Forms.ifOnly test body others).formed_self
      apply formed_append _ (formed_mono ih' (by grind))
      exact formed_arm rfl (test.formed (by grind)) (formed_mono ih (by grind))
  | ifElse test body others otherwise ih ih' ih'' =>
      apply formed_cons (Forms.ifElse test body others otherwise).formed_self
      apply formed_append _ (formed_mono ih'' (by grind))
      apply formed_append _ (formed_mono ih' (by grind))
      exact formed_arm rfl (test.formed (by grind)) (formed_mono ih (by grind))
  | whileLoop condition body ih =>
      apply formed_cons (Forms.whileLoop condition body).formed_self
      exact formed_append (condition.formed (by grind)) (formed_mono ih (by grind))
  | forLoop init condition step body ih =>
      apply formed_cons (Forms.forLoop init condition step body).formed_self
      apply formed_cons (formed_binding (by grind))
      refine formed_mono ?_ (List.infix_cons (infix_four _ _ _ _ _))
      apply formed_append (init.formed_expr (by grind))
      apply formed_append (condition.formed_expr (by grind))
      exact formed_append (step.formed_expr (by grind)) (formed_mono ih (by grind))
  | forOf iterable body ih =>
      apply formed_cons (Forms.forOf iterable body).formed_self
      apply formed_cons (formed_binding (by grind))
      exact formed_append (iterable.formed_expr (by grind)) (formed_mono ih (by grind))
  | @switch _ _ _ _ otherwise _ _ _ selector clauses ih =>
      cases otherwise with
      | none =>
          apply formed_cons (Forms.switch selector clauses).formed_self
          exact formed_append (selector.formed (by grind)) (formed_mono ih (by grind))
      | some otherwise =>
          apply formed_cons (Forms.switch selector clauses).formed_self
          exact formed_append (selector.formed (by grind)) (formed_mono ih (by grind))
  | functionStatement function ih =>
      exact formed_cons (Forms.functionStatement function).formed_self ih
  | @classDef _ _ initialiser _ _ _ _ _ members ih =>
      cases initialiser with
      | none =>
          apply formed_cons (Forms.classDef members).formed_self
          exact formed_cons (formed_binding (by grind)) (formed_mono ih (by grind))
      | some initialiser =>
          apply formed_cons (Forms.classDef members).formed_self
          exact formed_cons (formed_binding (by grind)) (formed_mono ih (by grind))
  | tryCatch body handler ih ih' =>
      apply formed_cons (Forms.tryCatch body handler).formed_self
      apply formed_cons (formed_binding (by grind))
      apply formed_append (formed_mono ih (by grind))
      exact formed_mono ih' (List.infix_cons (infix_skip _ (infix_four _ _ _ _ _)))
  | returnNothing => exact formed_cons Forms.returnNothing.formed_self (List.forall_mem_nil _)
  | returnValue value =>
      exact formed_cons (Forms.returnValue value).formed_self (value.formed_expr (by grind))
  | print argument =>
      exact formed_cons (Forms.print argument).formed_self (argument.formed (by grind))
  | breakLoop => exact formed_cons Forms.breakLoop.formed_self (List.forall_mem_nil _)
  | continueLoop => exact formed_cons Forms.continueLoop.formed_self (List.forall_mem_nil _)
  | assign target assignable value =>
      apply formed_cons (Forms.assign target assignable value).formed_self
      exact formed_append (target.formed_expr (infix_front _ _)) (value.formed_expr (by grind))
  | plain e =>
      exact formed_cons (Forms.plain e).formed_self (e.formed_expr (infix_front _ _))
  | noStatement | noElseIf | noClause | noMember => exact List.forall_mem_nil _
  | nextStatement _ _ ih ih' =>
      exact formed_append (formed_mono ih (by grind)) (formed_mono ih' (by grind))
  | block _ ih => exact formed_block rfl (formed_mono ih (by grind))
  | nextElseIf test _ _ ih ih' =>
      apply formed_append _ (formed_mono ih' (by grind))
      exact formed_arm rfl (test.formed (by grind)) (formed_mono ih (by grind))
  | @caseClause _ _ _ _ _ _ otherwise _ _ test _ _ ih ih' =>
      cases otherwise with
      | none =>
          apply formed_append _ (formed_mono ih' (by grind))
          exact formed_arm rfl (test.formed_expr (by grind))
            (formed_block rfl (formed_mono ih (by grind)))
      | some otherwise =>
          obtain ⟨others, last⟩ := List.forall_mem_append.mp ih'
          apply formed_append _ (formed_mono last (by grind))
          apply formed_append _ (formed_mono others (by grind))
          exact formed_arm rfl (test.formed_expr (by grind))
            (formed_block rfl (formed_mono ih (by grind)))
  | defaultClause _ _ ih ih' =>
      apply formed_append (formed_mono ih' (by grind))
      exact formed_block rfl (formed_mono ih (by grind))
  | function params _ ih =>
      apply formed_cons
      · exact formed_of_mem List.mem_cons_self rfl trivial trivial trivial
      · apply formed_cons (formed_binding (by grind))
        exact formed_append (params.formed (by grind)) (formed_mono ih (by grind))
  | @constructor _ _ _ _ _ _ _ params _ _ ih ih' =>
      apply formed_append _ (formed_mono ih' (by grind))
      apply formed_cons
      · exact formed_of_mem List.mem_cons_self rfl trivial trivial trivial
      · exact formed_append (params.formed (by grind)) (formed_mono ih (by grind))
  | @method _ _ _ initialiser _ _ _ ih ih' =>
      cases initialiser with
      | none => exact formed_append (formed_mono ih (by grind)) (formed_mono ih' (by grind))
      | some initialiser =>
          obtain ⟨first, others⟩ := List.forall_mem_append.mp ih'
          apply formed_append (formed_mono first (by grind))
          exact formed_append (formed_mono ih (by grind)) (formed_mono others (by grind))

end Grammar

/-- A program that was read derives from the tokens at the beginning. -/
theorem Program.exists_forms {tokens : List Token} {program : Program}
    (read : Program.ofTokens tokens = .ok program) :
    ∃ used rest, tokens = used ++ rest ∧ Forms .statements used program.statements := by
  obtain ⟨rest, reads⟩ := Program.ofTokens_ok.mp read
  obtain ⟨used, whole, sequence, -⟩ := Parser.manyUntil_accepts
    (Parser.statement_accepts (Parser.nested_accepts _).expression _) Forms.ne_nil reads
  exact ⟨used, rest, whole, Parser.statements_of_sequence sequence⟩

/-- Every node of a program that was read is as later passes expect it. The program need not be a
whole text: the tokens may end without an end of text. -/
theorem Program.formed_of_ofTokens {tokens : List Token} {program : Program}
    (read : Program.ofTokens tokens = .ok program) :
    ∀ node ∈ program.nodes, node.Formed tokens := by
  obtain ⟨used, rest, rfl, forms⟩ := Program.exists_forms read
  exact Node.formed_mono forms.formed (infix_front used rest)

/-- The tokens of a statement that adds to a field of a name in parentheses. -/
def enclosedTokens : List Token :=
  [sym .lparen ⟨1, 1⟩, word "ا" ⟨1, 2⟩, sym .rparen ⟨1, 3⟩, sym .dot ⟨1, 4⟩, word "ب" ⟨1, 5⟩,
    sym .plusEq ⟨1, 6⟩, ⟨.int 1, ⟨1, 8⟩⟩, sym .semi ⟨1, 9⟩]

/-- The expression that adds to a field of a name in parentheses. -/
def enclosedAddition : Expr :=
  .binary (.at ⟨1, 2⟩) .addAssign
    (.property (.at ⟨1, 2⟩) (.ident (.at ⟨1, 2⟩) "ا" none) ⟨"ب", .at ⟨1, 5⟩⟩)
    (.literal (.at ⟨1, 8⟩) (.int 1))

theorem Program.formed_of_ofTokens_enclosed :
    Program.ofTokens enclosedTokens = .ok ⟨[.expr ⟨1, 1⟩ enclosedAddition]⟩ ∧
      ∀ node ∈ Nodes.statements [.expr ⟨1, 1⟩ enclosedAddition], node.Formed enclosedTokens := by
  have read : Program.ofTokens enclosedTokens = .ok ⟨[.expr ⟨1, 1⟩ enclosedAddition]⟩ := rfl
  exact ⟨read, Program.formed_of_ofTokens read⟩

end Qalam
