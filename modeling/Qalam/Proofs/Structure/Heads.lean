/-
# Where keys begin

Every expression has the position of one of its tokens: the first one that is not a bracket around
it. A plain name is that token itself. The keys of an object literal are read from separate parts
of its tokens, so these tokens stand one behind the other, and different keys have different ones.
-/

import Qalam.Proofs.Structure.Written

namespace Qalam

/-- A token gives an expression its position, and its name if that is all the expression is. -/
structure Token.Heads (token : Token) (e : Expr) : Prop where
  pos : token.pos = e.pos
  name : ∀ note name entity, e = .ident note name entity → token.kind = .ident name

/-- Some keys have their positions from tokens that stand one behind the other, and their names, if
they are names, from tokens as well. -/
structure HeadedBy (ts : List Token) (keys : List Expr) : Prop where
  pos : (keys.map Expr.pos).Sublist (ts.map Token.pos)
  name : ∀ note name entity, .ident note name entity ∈ keys → ∃ token ∈ ts, token.kind = .ident name

namespace HeadedBy

theorem nil (ts : List Token) : HeadedBy ts [] := by
  constructor
  · exact List.nil_sublist _
  · intro note name entity mem
    cases mem

theorem mono {ts us : List Token} {keys : List Expr} (headed : HeadedBy ts keys)
    (among : ts.Sublist us) : HeadedBy us keys := by
  refine ⟨headed.pos.trans (among.map _), ?_⟩
  intro note name entity mem
  obtain ⟨token, listed, named⟩ := headed.name note name entity mem
  exact ⟨token, among.subset listed, named⟩

theorem singleton {ts : List Token} {key : Expr} (headed : ∃ token ∈ ts, token.Heads key) :
    HeadedBy ts [key] := by
  obtain ⟨token, mem, heads⟩ := headed
  constructor
  · rw [List.map_singleton, List.singleton_sublist, ← heads.pos]
    exact List.mem_map_of_mem mem
  · intro note name entity same
    exact ⟨token, mem, heads.name note name entity (List.mem_singleton.mp same).symm⟩

theorem append {ts us : List Token} {keys keys' : List Expr} (here : HeadedBy ts keys)
    (there : HeadedBy us keys') : HeadedBy (ts ++ us) (keys ++ keys') := by
  constructor
  · rw [List.map_append, List.map_append]
    exact here.pos.append there.pos
  · intro note name entity mem
    rcases List.mem_append.mp mem with mem | mem
    · exact (here.mono (List.sublist_append_left ts us)).name note name entity mem
    · exact (there.mono (List.sublist_append_right ts us)).name note name entity mem

end HeadedBy

/-- The keys of an object literal have their positions from some of the given tokens. -/
def Expr.HeadedIn (ts : List Token) : Expr → Prop
  | .object _ entries => HeadedBy ts (entries.map Pair.key)
  | _ => True

theorem Expr.HeadedIn.mono {ts us : List Token} {e : Expr} (headed : e.HeadedIn ts)
    (among : ts.Sublist us) : e.HeadedIn us := by
  cases e with
  | object note entries => exact HeadedBy.mono headed among
  | _ => trivial

namespace Grammar

/-- What is promised about all expressions of a phrase holds with more tokens around it. -/
theorem headed_mono {parts : List Expr} {ts us : List Token}
    (headed : ∀ x ∈ parts, x.HeadedIn ts) (among : ts.Sublist us) :
    ∀ x ∈ parts, x.HeadedIn us :=
  fun x mem => (headed x mem).mono among

/-- Which tokens a part of an expression has its positions from. -/
def Phrase.Headed (ts : List Token) : (phrase : Phrase) → phrase.Tree → Prop
  | .expr _, e => (∃ token ∈ ts, token.Heads e) ∧ ∀ x ∈ Parts.expr e, x.HeadedIn ts
  | .items, es | .arguments, es => ∀ x ∈ Parts.exprs es, x.HeadedIn ts
  | .entry, pair => (∃ token ∈ ts, token.Heads pair.key) ∧ ∀ x ∈ Parts.pair pair, x.HeadedIn ts
  | .entries, pairs | .fields, pairs =>
    HeadedBy ts (pairs.map Pair.key) ∧ ∀ x ∈ Parts.pairs pairs, x.HeadedIn ts

/-- A token gives its position also to what begins like the expression it heads. -/
theorem heads_of_pos {ts us : List Token} {e whole : Expr} (headed : ∃ token ∈ ts, token.Heads e)
    (among : ts.Sublist us) (same : whole.pos = e.pos)
    (other : Parts.isName whole = false) : ∃ token ∈ us, token.Heads whole := by
  obtain ⟨token, mem, heads⟩ := headed
  refine ⟨token, among.subset mem, heads.pos.trans same.symm, ?_⟩
  rintro note name entity rfl
  cases other

/-- A token of its own heads what is not a name. -/
theorem heads_of_mem {ts : List Token} {token : Token} {whole : Expr} (mem : token ∈ ts)
    (same : token.pos = whole.pos) (other : Parts.isName whole = false) :
    ∃ token ∈ ts, token.Heads whole := by
  refine ⟨token, mem, same, ?_⟩
  rintro note name entity rfl
  cases other

theorem sublist_behind (ts us : List Token) (token : Token) : us.Sublist (ts ++ token :: us) :=
  (List.sublist_cons_self token us).trans (List.sublist_append_right ts _)

theorem sublist_enclosed (ts us vs : List Token) (token : Token) :
    us.Sublist (ts ++ token :: (us ++ vs)) :=
  (List.sublist_append_left us vs).trans (sublist_behind ts _ token)

/-- What stands first behind a token. -/
theorem sublist_first {ts us : List Token} {token : Token} : ts.Sublist (token :: (ts ++ us)) :=
  (List.sublist_append_left ts us).cons token

theorem Derives.headed {phrase : Phrase} {ts : List Token} {tree : phrase.Tree}
    (derives : Derives phrase ts tree) : phrase.Headed ts tree := by
  induction derives with
  | plain _ ih | unconditional _ ih | single _ ih | noOperator _ ih | noExponent _ ih
  | noSuffix _ ih | someArguments _ ih | someFields _ ih => exact ih
  | compound _ _ _ _ ih ih' | operator _ _ _ ih ih' | exponent _ _ ih ih' =>
      refine ⟨heads_of_pos ih.1 (by simp) rfl rfl, ?_⟩
      simp only [Parts.expr, List.forall_mem_cons, List.forall_mem_append]
      exact ⟨trivial, headed_mono ih.2 (by simp), headed_mono ih'.2 (sublist_behind _ _ _)⟩
  | conditional _ _ _ ih ih' ih'' =>
      refine ⟨heads_of_pos ih.1 (by simp) rfl rfl, ?_⟩
      simp only [Parts.expr, List.forall_mem_cons, List.forall_mem_append]
      exact ⟨trivial, headed_mono ih.2 (by simp), headed_mono ih'.2 (sublist_enclosed _ _ _ _),
        headed_mono ih''.2 ((sublist_behind _ _ _).trans (sublist_behind _ _ _))⟩
  | typeOf _ ih | negation _ _ ih | mutationBefore _ _ _ ih =>
      refine ⟨heads_of_mem List.mem_cons_self rfl rfl, ?_⟩
      simp only [Parts.expr, List.forall_mem_cons]
      exact ⟨trivial, headed_mono ih.2 (by simp)⟩
  | call _ _ ih ih' =>
      refine ⟨heads_of_pos ih.1 (by simp) rfl rfl, ?_⟩
      simp only [Parts.expr, List.forall_mem_cons, List.forall_mem_append]
      exact ⟨trivial, headed_mono ih.2 (by simp), headed_mono ih' (sublist_enclosed _ _ _ _)⟩
  | member _ _ ih ih' =>
      refine ⟨heads_of_pos ih.1 (by simp) rfl rfl, ?_⟩
      simp only [Parts.expr, List.forall_mem_cons, List.forall_mem_append]
      exact ⟨trivial, headed_mono ih.2 (by simp), headed_mono ih'.2 (sublist_enclosed _ _ _ _)⟩
  | property _ ih | mutationBehind _ _ _ ih =>
      refine ⟨heads_of_pos ih.1 (by simp) rfl rfl, ?_⟩
      simp only [Parts.expr, List.forall_mem_cons]
      exact ⟨trivial, headed_mono ih.2 (by simp)⟩
  | this _ ih | dotThis _ ih =>
      refine ⟨heads_of_pos ih.1 (by simp) rfl rfl, ?_⟩
      simp [Parts.expr, Expr.HeadedIn]
  | new _ ih =>
      obtain ⟨heads, inside⟩ := ih
      refine ⟨heads_of_pos heads (by simp) rfl rfl, ?_⟩
      simp only [Parts.expr, List.forall_mem_cons, List.forall_mem_append] at inside ⊢
      exact ⟨trivial, headed_mono inside.2.1 (by simp), headed_mono inside.2.2 (by simp)⟩
  | literal _ =>
      refine ⟨heads_of_mem List.mem_cons_self rfl rfl, ?_⟩
      simp [Parts.expr, Expr.HeadedIn]
  | ident =>
      refine ⟨⟨_, List.mem_cons_self, rfl, ?_⟩, by simp [Parts.expr, Expr.HeadedIn]⟩
      rintro _ _ _ ⟨⟩
      rfl
  | parenthesized _ ih =>
      obtain ⟨⟨token, mem, heads⟩, inside⟩ := ih
      exact ⟨⟨token, by simp [mem], heads⟩, headed_mono inside sublist_first⟩
  | array _ ih =>
      refine ⟨heads_of_mem List.mem_cons_self rfl rfl, ?_⟩
      simp only [Parts.expr, List.forall_mem_cons]
      exact ⟨trivial, headed_mono ih sublist_first⟩
  | object _ ih =>
      refine ⟨heads_of_mem List.mem_cons_self rfl rfl, ?_⟩
      simp only [Parts.expr, List.forall_mem_cons]
      exact ⟨ih.1.mono sublist_first, headed_mono ih.2 sublist_first⟩
  | lastItem _ ih =>
      simp only [Phrase.Headed, Parts.exprs, List.append_nil]
      exact ih.2
  | nextItem _ _ ih ih' =>
      simp only [Phrase.Headed, Parts.exprs, List.forall_mem_append]
      exact ⟨headed_mono ih.2 (by simp), headed_mono ih' (sublist_behind _ _ _)⟩
  | noArguments => simp [Phrase.Headed, Parts.exprs]
  | @entry first ts us key value pos _ _ ih ih' =>
      obtain ⟨⟨token, mem, heads⟩, inside⟩ := ih
      refine ⟨⟨token, List.mem_append_left _ mem, heads⟩, ?_⟩
      have behind := headed_mono ih'.2 (sublist_behind (first :: ts) us (sym .colon pos))
      rw [Parts.pair]
      split
      · exact behind
      · rw [List.forall_mem_append]
        exact ⟨headed_mono inside (by simp), behind⟩
  | lastEntry _ ih =>
      simp only [Phrase.Headed, Parts.pairs, List.append_nil]
      exact ⟨.singleton ih.1, ih.2⟩
  | nextEntry _ _ ih ih' =>
      simp only [Phrase.Headed, Parts.pairs, List.forall_mem_append]
      exact ⟨(HeadedBy.singleton ih.1).append (ih'.1.mono (List.sublist_cons_self _ _)),
        headed_mono ih.2 (by simp), headed_mono ih'.2 (sublist_behind _ _ _)⟩
  | noFields => exact ⟨.nil _, List.forall_mem_nil _⟩

/-! ## Statements -/

theorem Derives.headed_expr {level : Level} {ts us : List Token} {e : Expr}
    (derives : Derives (.expr level) ts e) (among : ts.Sublist us) :
    ∀ x ∈ Parts.expr e, x.HeadedIn us :=
  headed_mono derives.headed.2 among

theorem Enclosed.headed {ts us : List Token} {e : Expr} (encloses : Enclosed ts e)
    (among : ts.Sublist us) : ∀ x ∈ Parts.expr e, x.HeadedIn us := by
  cases encloses with
  | mk inner => exact inner.headed_expr (sublist_first.trans among)

theorem Declarator.headed {ts us : List Token} {entry : Binding × Option Expr}
    (declares : Declarator ts entry) (among : ts.Sublist us) :
    ∀ x ∈ Parts.optional entry.2, x.HeadedIn us := by
  cases declares with
  | bare => simp [Parts.optional]
  | valued init => exact init.headed_expr (.trans (.cons _ (List.sublist_cons_self _ _)) among)

theorem Separated.headed {ts us : List Token} {entries : List (Binding × Option Expr)}
    (separated : Separated Declarator ts entries) (among : ts.Sublist us) :
    ∀ x ∈ entries.flatMap fun entry => Parts.optional entry.2, x.HeadedIn us := by
  induction separated with
  | last declares =>
      rw [List.flatMap_cons, List.flatMap_nil, List.append_nil]
      exact declares.headed among
  | next declares _ ih =>
      rw [List.flatMap_cons, List.forall_mem_append]
      exact ⟨declares.headed (List.Sublist.trans (by simp) among),
        ih ((sublist_behind _ _ _).trans among)⟩

/-- Expressions in two places of a statement. -/
theorem headed_append {first second : List Expr} {ts : List Token}
    (here : ∀ x ∈ first, x.HeadedIn ts) (there : ∀ x ∈ second, x.HeadedIn ts) :
    ∀ x ∈ first ++ second, x.HeadedIn ts :=
  List.forall_mem_append.mpr ⟨here, there⟩

theorem Forms.headed {piece : Piece} {ts : List Token} {tree : piece.Tree}
    (forms : Forms piece ts tree) : ∀ x ∈ piece.parts tree, x.HeadedIn ts := by
  induction forms with
  | declare _ declares => exact declares.headed sublist_first
  | declareAll _ separated => exact separated.headed sublist_first
  | ifOnly test _ _ ih ih' =>
      apply headed_append
      · exact headed_append (test.headed sublist_first) (headed_mono ih (by grind))
      · exact headed_mono ih' (by grind)
  | ifElse test _ _ _ ih ih' ih'' =>
      apply headed_append
      · apply headed_append
        · exact headed_append (test.headed sublist_first) (headed_mono ih (by grind))
        · exact headed_mono ih' (by grind)
      · exact headed_mono ih'' (by grind)
  | whileLoop condition _ ih =>
      exact headed_append (condition.headed sublist_first) (headed_mono ih (by grind))
  | forLoop init condition step _ ih =>
      -- five tokens stand before the first of the three expressions
      have header {part us : List Token} {a b c d e : Token} (among : part.Sublist us) :
          part.Sublist (a :: b :: c :: d :: e :: us) :=
        ((((among.cons e).cons d).cons c).cons b).cons a
      apply headed_append (init.headed_expr (header (List.sublist_append_left _ _)))
      apply headed_append (condition.headed_expr (header (sublist_enclosed _ _ _ _)))
      apply headed_append
      · exact step.headed_expr (header ((sublist_enclosed _ _ _ _).trans (sublist_behind _ _ _)))
      · refine headed_mono ih (header (.trans ?_ (sublist_behind _ _ _)))
        exact (sublist_behind _ _ _).trans (sublist_behind _ _ _)
  | forOf iterable _ ih =>
      exact headed_append (iterable.headed_expr (by grind)) (headed_mono ih (by grind))
  | @switch _ _ _ _ otherwise _ _ _ selector _ ih =>
      cases otherwise with
      | none => exact headed_append (selector.headed sublist_first) (headed_mono ih (by grind))
      | some otherwise =>
          exact headed_append (selector.headed sublist_first) (headed_mono ih (by grind))
  | functionStatement _ ih => exact ih
  | @classDef _ _ initialiser _ _ _ _ _ _ ih =>
      cases initialiser with
      | none => exact headed_mono ih (by grind)
      | some initialiser => exact headed_mono ih (by grind)
  | tryCatch _ _ ih ih' =>
      exact headed_append (headed_mono ih (by grind)) (headed_mono ih' (by grind))
  | returnNothing | breakLoop | continueLoop | noStatement | noElseIf | noClause | noMember =>
      exact List.forall_mem_nil _
  | returnValue value => exact value.headed_expr sublist_first
  | print argument => exact argument.headed sublist_first
  | assign target _ value =>
      exact headed_append (target.headed_expr (by simp)) (value.headed_expr (by grind))
  | plain e => exact e.headed_expr (by simp)
  | nextStatement _ _ ih ih' =>
      exact headed_append (headed_mono ih (by simp)) (headed_mono ih' (by simp))
  | block _ ih => exact headed_mono ih sublist_first
  | nextElseIf test _ _ ih ih' =>
      apply headed_append
      · exact headed_append (test.headed sublist_first) (headed_mono ih (by grind))
      · exact headed_mono ih' (by grind)
  | @caseClause _ _ _ _ _ _ otherwise _ _ test _ _ ih ih' =>
      cases otherwise with
      | none =>
          apply headed_append
          · exact headed_append (test.headed_expr sublist_first) (headed_mono ih (by grind))
          · exact headed_mono ih' (by grind)
      | some otherwise =>
          obtain ⟨others, last⟩ := List.forall_mem_append.mp ih'
          apply headed_append
          · apply headed_append
            · exact headed_append (test.headed_expr sublist_first) (headed_mono ih (by grind))
            · exact headed_mono others (by grind)
          · exact headed_mono last (by grind)
  | defaultClause _ _ ih ih' =>
      exact headed_append (headed_mono ih' (by grind)) (headed_mono ih (by grind))
  | function _ _ ih => exact headed_mono ih (by grind)
  | constructor _ _ _ ih ih' =>
      exact headed_append (headed_mono ih (by grind)) (headed_mono ih' (by grind))
  | @method _ _ _ initialiser _ _ _ ih ih' =>
      cases initialiser with
      | none => exact headed_append (headed_mono ih (by simp)) (headed_mono ih' (by simp))
      | some initialiser =>
          obtain ⟨first, others⟩ := List.forall_mem_append.mp ih'
          apply headed_append (headed_mono first (by simp))
          exact headed_append (headed_mono ih (by simp)) (headed_mono others (by simp))

end Grammar

/-- In a program that was read, the keys of an object literal have their positions from tokens that
stand one behind the other. -/
theorem Program.headed_of_ofTokens {tokens : List Token} {program : Program}
    (read : Program.ofTokens tokens = .ok program) :
    ∀ x ∈ program.parts, x.HeadedIn tokens := by
  obtain ⟨rest, reads⟩ := Program.ofTokens_ok.mp read
  obtain ⟨used, whole, sequence, -⟩ := Parser.manyUntil_accepts
    (Parser.statement_accepts (Parser.nested_accepts _).expression _) Grammar.Forms.ne_nil reads
  rw [whole]
  exact Grammar.headed_mono (Parser.statements_of_sequence sequence).headed (by simp)

end Qalam
