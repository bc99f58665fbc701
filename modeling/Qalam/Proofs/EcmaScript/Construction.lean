/-
# What a construction constructs

Behind `new` stands the text of a class, again without parentheses of its own. But `new` takes the
first arguments to its right. If a call is met on the way to what the class is taken from, then the
construction has the text of a call around a construction further inside, and is read as that: the
arguments of the innermost call went to `new`. With no such call in the way the whole class is
constructed, and no expression with another tree has the same text.
-/

import Qalam.Proofs.EcmaScript.Application

namespace Qalam.EcmaScript

/-! ## Behind `new` -/

/-- With `new` in front, a call is still a call, or a construction. -/
theorem Derives.call_new {ts : List Token} {t : Tree} (derives : Derives .call ts t) :
    ∃ t', Derives .call (.word "new" :: ts) t' ∨ Derives .member (.word "new" :: ts) t' := by
  generalize same : Goal.call = goal at derives
  induction derives with
  -- the innermost arguments are those of the construction
  | call member items => exact ⟨_, .inr (.memberNew member items)⟩
  | callCall _ items ih =>
      obtain ⟨t', head⟩ := ih rfl
      exact ⟨_, .inl (head.elim (.callCall · items) (.call · items))⟩
  | callIndex _ key ih =>
      obtain ⟨t', head⟩ := ih rfl
      exact ⟨_, head.imp (.callIndex · key) (.memberIndex · key)⟩
  | callField _ ih =>
      obtain ⟨t', head⟩ := ih rfl
      exact ⟨_, head.imp .callField .memberField⟩
  | _ => cases same

theorem Derives.left_new {ts : List Token} {t : Tree} (derives : Derives .left ts t) :
    ∃ t', Derives .left (.word "new" :: ts) t' := by
  cases derives with
  | leftNew new => exact ⟨_, .leftNew (.newBare new)⟩
  | leftCall call =>
      obtain ⟨t', head⟩ := call.call_new
      exact ⟨t', head.elim .leftCall Derives.left_of_member⟩

/-- Behind `new` a member expression begins. -/
theorem Derives.begins_new {goal : Goal} {ts rest : List Token} {t : Tree}
    (derives : Derives goal ts t) (full : goal.isFull = true) (same : ts = .word "new" :: rest) :
    ∃ first more, rest = first :: more ∧ beginsMember first = true := by
  induction derives generalizing rest with
  | noComma _ ih | noAssignment _ ih | noCondition _ ih | noOperator _ _ ih | lastTier _ ih
  | noExponent _ ih | noUnary _ ih | noUpdate _ ih | leftNew _ ih | leftCall _ ih | newMember _ ih
  | memberPrimary _ ih => exact ih rfl same
  | comma head _ ih | assign head _ _ _ ih | conditional head _ _ ih | operator _ _ head _ ih
  | exponent head _ ih | updateBehind head _ _ ih | call head _ ih | callCall head _ ih
  | callIndex head _ ih | callField head ih | memberIndex head _ ih | memberField head ih =>
      obtain ⟨token, others, rfl, -⟩ := head.begins rfl
      cases same
      obtain ⟨first, more, rfl, begins⟩ := ih rfl rfl
      exact ⟨first, _, rfl, begins⟩
  | unary known | updateBefore known =>
      cases same
      exact absurd known (by decide)
  | newBare new =>
      cases same
      obtain ⟨first, more, rfl, begins⟩ := new.begins rfl
      exact ⟨first, more, rfl, by simpa [Goal.begins] using begins⟩
  | memberNew member =>
      cases same
      obtain ⟨first, more, rfl, begins⟩ := member.begins rfl
      exact ⟨first, _, rfl, by simpa [Goal.begins] using begins⟩
  | name free =>
      cases same
      exact absurd (by decide) free
  | constant known =>
      cases same
      exact absurd known (by decide)
  | number | text | array | object | parenthesized => cases same
  | noItem | lastItem | nextItem | noEntry | lastEntry | nextEntry => cases full

/-! ## Calls in the way -/

/-- Whether a call is met on the way from an expression to what it is taken from. -/
def isCalled (e : Expr) : Bool := (links e).any isCall

theorem isCalled_eq_false_iff {e : Expr} :
    isCalled e = false ↔ ∀ x ∈ links e, isCall x = false := by
  simp [isCalled]

theorem isCalled_new (note : Note) (target : Expr) (args : List Expr) :
    isCalled (.new note target args) = isCalled target := rfl

/-- The expression with the innermost call that is met on the way made a construction. -/
def hoist : Expr → Expr
  | .call note callee args =>
    if isCalled callee then .call note (hoist callee) args else .new note callee args
  | .member note base index => .member note (hoist base) index
  | .property note base field => .property note (hoist base) field
  | e => e

theorem isLoose_of_isCalled {e : Expr} (called : isCalled e = true) :
    JavaScript.isLoose e = false := by
  cases e with
  | ternary | binary => simp [isCalled, links, isCall] at called
  | _ => rfl

theorem isBase_of_isCalled {e : Expr} (called : isCalled e = true) : e.isBase = true := by
  cases e with
  | literal | typeOf => simp [isCalled, links, isCall] at called
  | _ => rfl

theorem isLoose_hoist (e : Expr) : JavaScript.isLoose (hoist e) = JavaScript.isLoose e := by
  cases e with
  | call note callee args =>
      rw [hoist]
      split <;> rfl
  | _ => rfl

theorem isUnary_hoist (e : Expr) : isUnary (hoist e) = isUnary e := by
  cases e with
  | call note callee args =>
      rw [hoist]
      split <;> rfl
  | _ => rfl

theorem isBase_hoist (e : Expr) : (hoist e).isBase = e.isBase := by
  cases e with
  | call note callee args =>
      rw [hoist]
      split <;> rfl
  | _ => rfl

/-- Behind a head with a call in the way, moving `new` inside changes nothing. -/
theorem asOperand_hoist {e : Expr} (called : isCalled e = true)
    (same : JavaScript.expr (hoist e) = "new " ++ JavaScript.expr e) :
    JavaScript.asOperand (hoist e) (JavaScript.expr (hoist e)) =
      "new " ++ JavaScript.asOperand e (JavaScript.expr e) := by
  simp [JavaScript.asOperand, isLoose_hoist, isLoose_of_isCalled called, same]

/-- The text of an expression with a call in the way is that of its hoisted form, but for the
`new` in front. -/
theorem expr_hoist : ∀ {e : Expr}, (∀ x ∈ Parts.expr e, Regroups x) → isCalled e = true →
    JavaScript.expr (hoist e) = "new " ++ JavaScript.expr e
  | .call note callee args, regroups, called => by
      simp only [Parts.expr, List.forall_mem_cons, List.forall_mem_append] at regroups
      by_cases inner : isCalled callee = true
      · rw [hoist, if_pos inner, JavaScript.expr, JavaScript.expr,
          asOperand_hoist inner (expr_hoist regroups.2.1 inner), String.append_assoc]
      · rw [hoist, if_neg inner, JavaScript.expr, JavaScript.expr, String.append_assoc]
  | .new note target args, regroups, called => by
      have free := isCalled_eq_false_iff.mpr (regroups _ (Parts.mem_self _)).2
      rw [isCalled_new, free] at called
      cases called
  | .member note base index, regroups, called => by
      simp only [Parts.expr, List.forall_mem_cons, List.forall_mem_append] at regroups
      have inner : isCalled base = true := called
      rw [hoist, JavaScript.expr, JavaScript.expr,
        asOperand_hoist inner (expr_hoist regroups.2.1 inner)]
      simp only [String.append_assoc]
  | .property note base field, regroups, called => by
      simp only [Parts.expr, List.forall_mem_cons] at regroups
      have inner : isCalled base = true := called
      rw [hoist, JavaScript.expr, JavaScript.expr,
        asOperand_hoist inner (expr_hoist regroups.2 inner)]
      simp only [String.append_assoc]
  | .literal .., _, called | .ident .., _, called | .this .., _, called | .typeOf .., _, called
  | .ternary .., _, called | .binary .., _, called | .unary .., _, called | .array .., _, called
  | .object .., _, called => by simp [isCalled, links, isCall] at called

theorem fit_call {note : Note} {callee : Expr} {args : List Expr} (plain : isUnary callee = false)
    (base : callee.isBase = true) : Fit (.call note callee args) :=
  ⟨trivial, plain, base, fun same => by cases same⟩

/-- What is inside the hoisted form is as good as what was inside before. -/
theorem fit_hoist : ∀ {e : Expr}, (∀ x ∈ Parts.expr e, Legible x ∧ Fit x) →
    ∀ x ∈ Parts.expr (hoist e), Legible x ∧ Fit x
  | .call note callee args, fit => by
      simp only [Parts.expr, List.forall_mem_cons, List.forall_mem_append] at fit
      obtain ⟨⟨-, here⟩, ofCallee, ofArgs⟩ := fit
      have plain : isUnary callee = false := here.regroups
      by_cases inner : isCalled callee = true
      · simp only [hoist, if_pos inner, Parts.expr, List.forall_mem_cons, List.forall_mem_append]
        refine ⟨⟨trivial, fit_call ?_ ?_⟩, fit_hoist ofCallee, ofArgs⟩
        · rw [isUnary_hoist, plain]
        · rw [isBase_hoist, here.base]
      · have free := isCalled_eq_false_iff.mp (Bool.eq_false_iff.mpr inner)
        simp only [hoist, if_neg inner, Parts.expr, List.forall_mem_cons, List.forall_mem_append]
        refine ⟨⟨trivial, ?_⟩, ofCallee, ofArgs⟩
        exact ⟨trivial, ⟨plain, free⟩, here.base, fun same => by cases same⟩
  | .member note base index, fit => by
      simp only [Parts.expr, List.forall_mem_cons, List.forall_mem_append] at fit
      obtain ⟨⟨-, here⟩, ofBase, ofIndex⟩ := fit
      have plain := (isUnary_hoist base).trans here.regroups
      have isBase := (isBase_hoist base).trans here.base
      simp only [hoist, Parts.expr, List.forall_mem_cons, List.forall_mem_append]
      refine ⟨⟨trivial, ?_⟩, fit_hoist ofBase, ofIndex⟩
      exact ⟨trivial, plain, isBase, fun same => by cases same⟩
  | .property note base field, fit => by
      simp only [Parts.expr, List.forall_mem_cons] at fit
      obtain ⟨⟨legible, here⟩, ofBase⟩ := fit
      have plain := (isUnary_hoist base).trans here.regroups
      have isBase := (isBase_hoist base).trans here.base
      simp only [hoist, Parts.expr, List.forall_mem_cons]
      refine ⟨⟨⟨isBase, legible.2⟩, ?_⟩, fit_hoist ofBase⟩
      exact ⟨trivial, plain, isBase, fun same => by cases same⟩
  | .literal .., fit | .ident .., fit | .this .., fit | .new .., fit | .typeOf .., fit
  | .ternary .., fit | .binary .., fit | .unary .., fit | .array .., fit | .object .., fit => fit

/-! ## Readings -/

/-- The tree that is read when `new` stands before the text of a class. -/
def construction? (target : Expr) (args : List Expr) : Option Tree :=
  if isUnary target then none
  else if isCalled target then some (.call (tree (hoist target)) (itemTree args))
  else some (.new (tree target) (itemTree args))

/-- The whole class is constructed unless it is an operator on an operand or a call is in the
way. -/
theorem construction?_eq_some_iff (target : Expr) (args : List Expr) :
    construction? target args = some (.new (tree target) (itemTree args)) ↔
      isUnary target = false ∧ isCalled target = false := by
  unfold construction?
  cases isUnary target <;> cases isCalled target <;> simp

/-- Nothing is constructed from an operator on an operand. -/
theorem not_derives_new {note : Note} {target : Expr} {args : List Expr}
    (unary : isUnary target = true) (fit : ∀ x ∈ Parts.expr target, Fit x) (t : Tree) :
    ¬ Derives .expression (tokens (.new note target args)) t := by
  cases target with
  | unary note op side operand =>
      rw [Parts.expr, List.forall_mem_cons] at fit
      cases side with
      | before =>
          intro derives
          rw [tokens, asOperand, if_neg (by simp [JavaScript.isLoose]), tokens] at derives
          obtain ⟨first, more, same, begins⟩ := derives.begins_new rfl rfl
          cases same
          cases op <;> cases begins
      | behind =>
          obtain ⟨mutation, assignable⟩ := fit.1.written
          obtain ⟨t', left⟩ := ((Placed.expr fit.2).operand_left assignable).left_new
          have opens : Token.sign "(" ∈ suffixSigns true := by decide
          rw [tokens, asOperand, if_neg (by simp [JavaScript.isLoose]), tokens, wrapped,
            List.append_assoc, List.singleton_append]
          exact not_derives_behind left (mem_updates mutation) opens t
  | _ => cases unary

/-- With a call in the way, a construction and a call have the same text. -/
theorem expr_new_of_isCalled {note : Note} {target : Expr} {args : List Expr}
    (regroups : ∀ x ∈ Parts.expr target, Regroups x) (called : isCalled target = true) :
    JavaScript.expr (.new note target args) = JavaScript.expr (.call note (hoist target) args) := by
  rw [JavaScript.expr, JavaScript.expr, asOperand_hoist called (expr_hoist regroups called)]

end Qalam.EcmaScript

namespace Qalam

open EcmaScript

/-- The text of a construction in an accepted program, and what it is read as. -/
theorem Program.construction_derives {source : List Token} {program : Program}
    {bound : BoundProgram} (parsed : Program.ofTokens source = .ok program)
    (binds : program.bind = .ok bound) {oracle : Naming.Oracle} {note : Note} {target : Expr}
    {args : List Expr} (part : .new note target args ∈ (bound.program.rename oracle).parts)
    (regroups : ∀ x ∈ Parts.expr target ++ Parts.exprs args, Regroups x) :
    ∃ ts, lex (JavaScript.expr (.new note target args)) = some ts ∧
      ∀ t, Derives .expression ts t ↔ construction? target args = some t := by
  have inside := Program.parts_rename parsed binds part
  have legible : ∀ x ∈ Parts.expr (.new note target args), Legible x :=
    fun x mem => (inside x mem).1
  rw [Parts.expr, List.forall_mem_cons] at inside
  have fit : ∀ x ∈ Parts.expr target ++ Parts.exprs args, Legible x ∧ Fit x :=
    fun x mem => ⟨(inside.2 x mem).1, (inside.2 x mem).2 (regroups x mem)⟩
  rw [List.forall_mem_append] at fit
  by_cases unary : isUnary target = true
  · refine ⟨_, (Read.expr legible).text.lex, fun t => ?_⟩
    rw [construction?, if_pos unary]
    exact iff_of_false (not_derives_new unary (fun x mem => (fit.1 x mem).2) t) (by simp)
  have plain : isUnary target = false := by simpa using unary
  by_cases called : isCalled target = true
  · -- the text is that of a call, and every part of the call is fit
    have fit' : ∀ x ∈ Parts.expr (.call note (hoist target) args), Legible x ∧ Fit x := by
      simp only [Parts.expr, List.forall_mem_cons, List.forall_mem_append]
      refine ⟨⟨trivial, fit_call ?_ ?_⟩, fit_hoist fit.1, fit.2⟩
      · rw [isUnary_hoist, plain]
      · rw [isBase_hoist, isBase_of_isCalled called]
    obtain ⟨ts, lexed, readings⟩ :=
      reads_tree (fun x mem => (fit' x mem).1) (fun x mem => (fit' x mem).2)
    rw [← expr_new_of_isCalled (fun x mem => (fit.1 x mem).2.regroups) called] at lexed
    refine ⟨ts, lexed, fun t => ?_⟩
    rw [readings, tree, construction?, if_neg unary, if_pos called, Option.some.injEq, eq_comm]
  · have here := inside.1.2 ⟨plain, isCalled_eq_false_iff.mp (by simpa using called)⟩
    have fit' : ∀ x ∈ Parts.expr (.new note target args), Fit x := by
      simp only [Parts.expr, List.forall_mem_cons, List.forall_mem_append]
      exact ⟨here, fun x mem => (fit.1 x mem).2, fun x mem => (fit.2 x mem).2⟩
    obtain ⟨ts, lexed, readings⟩ := reads_tree legible fit'
    refine ⟨ts, lexed, fun t => ?_⟩
    rw [readings, tree, construction?, if_neg unary, if_neg called, Option.some.injEq, eq_comm]

/-- Expressions that are written somewhere in the text of an accepted program. -/
def Emitted (e : Expr) : Prop :=
  ∃ source program bound oracle, Program.ofTokens source = .ok program ∧
    program.bind = .ok bound ∧ e ∈ (bound.program.rename oracle).parts

/-- The text of a construction in an accepted program has the reading given above, and no other, if
what is inside it regroups. It constructs the whole class just if the class is not an operator on
one operand and no call is in the way; no expression with another tree then has the same text.
With a call in the way, the text is that of a call. -/
theorem Program.construction_reads {source : List Token} {program : Program} {bound : BoundProgram}
    (parsed : Program.ofTokens source = .ok program) (binds : program.bind = .ok bound)
    (oracle : Naming.Oracle) {note : Note} {target : Expr} {args : List Expr}
    (part : .new note target args ∈ (bound.program.rename oracle).parts)
    (regroups : ∀ x ∈ Parts.expr target ++ Parts.exprs args, Regroups x) :
    ∃ ts, lex (JavaScript.expr (.new note target args)) = some ts ∧
      (∀ t, Derives .expression ts t ↔ construction? target args = some t) ∧
      (Derives .expression ts (.new (tree target) (itemTree args)) ↔
        isUnary target = false ∧ isCalled target = false) ∧
      (isUnary target = false → isCalled target = false → ∀ other, Emitted other →
        (∀ x ∈ Parts.expr other, Regroups x) →
        JavaScript.expr other = JavaScript.expr (.new note target args) →
        tree other = .new (tree target) (itemTree args)) ∧
      (isCalled target = true →
        JavaScript.expr (.new note target args) =
          JavaScript.expr (.call note (hoist target) args)) := by
  obtain ⟨ts, lexed, readings⟩ := Program.construction_derives parsed binds part regroups
  have whole : Derives .expression ts (.new (tree target) (itemTree args)) ↔
      isUnary target = false ∧ isCalled target = false :=
    (readings _).trans (construction?_eq_some_iff target args)
  refine ⟨ts, lexed, readings, whole, ?_, ?_⟩
  · rintro plain free other ⟨source', program', bound', oracle', parsed', binds', part'⟩ regroups' same
    have inside := Program.parts_rename parsed' binds' part'
    obtain ⟨ts', lexed', readings'⟩ := reads_tree (fun x mem => (inside x mem).1)
      (fun x mem => (inside x mem).2 (regroups' x mem))
    rw [same, lexed] at lexed'
    cases lexed'
    exact ((readings' _).mp (whole.mpr ⟨plain, free⟩)).symm
  · rw [List.forall_mem_append] at regroups
    exact expr_new_of_isCalled regroups.1

/-- The tokens of `function f(x) \x7b x().y() new; x() new.y(); \x7d`, where `new` is behind what it
constructs. -/
def chainedTokens : List Token :=
  [⟨.keyword .functionKw, ⟨1, 1⟩⟩, ⟨.ident "f", ⟨1, 2⟩⟩, ⟨.symbol .lparen, ⟨1, 3⟩⟩,
    ⟨.ident "x", ⟨1, 4⟩⟩, ⟨.symbol .rparen, ⟨1, 5⟩⟩, ⟨.symbol .lbrace, ⟨1, 6⟩⟩,
    ⟨.ident "x", ⟨2, 1⟩⟩, ⟨.symbol .lparen, ⟨2, 2⟩⟩, ⟨.symbol .rparen, ⟨2, 3⟩⟩,
    ⟨.symbol .dot, ⟨2, 4⟩⟩, ⟨.ident "y", ⟨2, 5⟩⟩, ⟨.symbol .lparen, ⟨2, 6⟩⟩,
    ⟨.symbol .rparen, ⟨2, 7⟩⟩, ⟨.keyword .newKw, ⟨2, 8⟩⟩, ⟨.symbol .semi, ⟨2, 9⟩⟩,
    ⟨.ident "x", ⟨3, 1⟩⟩, ⟨.symbol .lparen, ⟨3, 2⟩⟩, ⟨.symbol .rparen, ⟨3, 3⟩⟩,
    ⟨.keyword .newKw, ⟨3, 4⟩⟩, ⟨.symbol .dot, ⟨3, 5⟩⟩, ⟨.ident "y", ⟨3, 6⟩⟩,
    ⟨.symbol .lparen, ⟨3, 7⟩⟩, ⟨.symbol .rparen, ⟨3, 8⟩⟩, ⟨.symbol .semi, ⟨3, 9⟩⟩,
    ⟨.symbol .rbrace, ⟨4, 1⟩⟩, ⟨.eof, ⟨4, 2⟩⟩]

/-- A field of what a function returns, as a class. -/
def chainedTarget (tag : Tag → Option Tag) (x y : String) (entity : Option EntityId) : Expr :=
  .property ⟨⟨2, 1⟩, tag .any⟩ (.call ⟨⟨2, 1⟩, tag .any⟩ (.ident ⟨⟨2, 1⟩, tag .any⟩ x entity) [])
    ⟨y, ⟨⟨2, 5⟩, tag .any⟩⟩

/-- A call of a field of what is constructed. -/
def chainedCall (tag : Tag → Option Tag) (x y : String) (entity : Option EntityId) : Expr :=
  .call ⟨⟨3, 1⟩, tag .any⟩ (.property ⟨⟨3, 1⟩, tag .any⟩
    (.new ⟨⟨3, 1⟩, tag .object⟩ (.ident ⟨⟨3, 1⟩, tag .any⟩ x entity) [])
    ⟨y, ⟨⟨3, 6⟩, tag .any⟩⟩) []

/-- A function with both, before and after binding and with the names of the text. -/
def chainedProgram (tag : Tag → Option Tag) (f x y : String) (entity : Nat → Option EntityId) :
    Program :=
  ⟨[.function (.mk ⟨1, 1⟩ ⟨f, ⟨1, 2⟩, entity 0⟩ [⟨x, ⟨⟨1, 4⟩, tag .any⟩, entity 1⟩] (.mk ⟨1, 6⟩
      [.expr ⟨2, 1⟩ (.new ⟨⟨2, 1⟩, tag .object⟩ (chainedTarget tag x y (entity 1)) []),
        .expr ⟨3, 1⟩ (chainedCall tag x y (entity 1))]))]⟩

/-- The program after binding. -/
def chainedBound : BoundProgram :=
  ⟨chainedProgram some "f" "x" "y" fun index => some ⟨index⟩,
    ⟨#[.function "f", .variable "x" false .any]⟩⟩

/-- The construction in the text. -/
def chainedNew : Expr :=
  .new ⟨⟨2, 1⟩, some .object⟩ (chainedTarget some "var_2" "var_3" (some ⟨1⟩)) []

/-- The class that is constructed on the way to the call. -/
def plainTarget : Expr := .ident ⟨⟨3, 1⟩, some .any⟩ "var_2" (some ⟨1⟩)

theorem chainedProgram_parsed : Program.ofTokens chainedTokens =
    .ok (chainedProgram (fun _ => none) "f" "x" "y" fun _ => none) := rfl

theorem chainedProgram_binds :
    (chainedProgram (fun _ => none) "f" "x" "y" fun _ => none).bind = .ok chainedBound := rfl

theorem chainedProgram_parts : (chainedBound.program.rename .silent).parts =
    Parts.expr chainedNew ++ Parts.expr (chainedCall some "var_2" "var_3" (some ⟨1⟩)) := by
  have same : chainedBound.program.rename .silent =
      chainedProgram some "var_1" "var_2" "var_3" fun index => some ⟨index⟩ := rfl
  rw [same]
  rfl

theorem Program.construction_reads_plain :
    ∃ ts, lex (JavaScript.expr (.new ⟨⟨3, 1⟩, some .object⟩ plainTarget [])) = some ts ∧
      (∀ t, Derives .expression ts t ↔ construction? plainTarget [] = some t) ∧
      (Derives .expression ts (.new (tree plainTarget) (itemTree [])) ↔
        isUnary plainTarget = false ∧ isCalled plainTarget = false) ∧
      (isUnary plainTarget = false → isCalled plainTarget = false → ∀ other, Emitted other →
        (∀ x ∈ Parts.expr other, Regroups x) →
        JavaScript.expr other = JavaScript.expr (.new ⟨⟨3, 1⟩, some .object⟩ plainTarget []) →
        tree other = .new (tree plainTarget) (itemTree [])) ∧
      (isCalled plainTarget = true →
        JavaScript.expr (.new ⟨⟨3, 1⟩, some .object⟩ plainTarget []) =
          JavaScript.expr (.call ⟨⟨3, 1⟩, some .object⟩ (hoist plainTarget) [])) := by
  refine Program.construction_reads chainedProgram_parsed chainedProgram_binds .silent ?_ ?_
  · rw [chainedProgram_parts]
    simp [chainedCall, plainTarget, Parts.expr]
  · simp [plainTarget, Parts.expr, Parts.exprs, Regroups]

/-- A construction and a call that are both accepted have the same text, which is read as the call
and as nothing else. -/
theorem Program.construction_confused :
    Program.ofTokens chainedTokens =
        .ok (chainedProgram (fun _ => none) "f" "x" "y" fun _ => none) ∧
      (chainedProgram (fun _ => none) "f" "x" "y" fun _ => none).bind = .ok chainedBound ∧
      chainedNew ∈ (chainedBound.program.rename .silent).parts ∧
      chainedCall some "var_2" "var_3" (some ⟨1⟩) ∈ (chainedBound.program.rename .silent).parts ∧
      JavaScript.expr chainedNew =
        JavaScript.expr (chainedCall some "var_2" "var_3" (some ⟨1⟩)) ∧
      ∃ ts, lex (JavaScript.expr chainedNew) = some ts ∧
        (∀ t, Derives .expression ts t ↔
          t = .call (.property (.new (.name "var_2") .nothing) "var_3") .nothing) ∧
        ¬ Derives .expression ts
          (.new (.property (.call (.name "var_2") .nothing) "var_3") .nothing) := by
  have part : chainedNew ∈ (chainedBound.program.rename .silent).parts := by
    rw [chainedProgram_parts]
    exact List.mem_append_left _ (Parts.mem_self _)
  have part' : chainedCall some "var_2" "var_3" (some ⟨1⟩) ∈
      (chainedBound.program.rename .silent).parts := by
    rw [chainedProgram_parts]
    exact List.mem_append_right _ (Parts.mem_self _)
  refine ⟨chainedProgram_parsed, chainedProgram_binds, part, part', by decide +kernel, ?_⟩
  obtain ⟨ts, lexed, readings⟩ :=
    Program.construction_derives chainedProgram_parsed chainedProgram_binds part (by
      simp [chainedTarget, Parts.expr, Parts.exprs, Regroups, isUnary])
  have reading : construction? (chainedTarget some "var_2" "var_3" (some ⟨1⟩)) [] =
      some (.call (.property (.new (.name "var_2") .nothing) "var_3") .nothing) := by
    decide +kernel
  rw [reading] at readings
  refine ⟨ts, lexed, fun t => ?_, fun derives => ?_⟩
  · rw [readings, Option.some.injEq, eq_comm]
  · cases (readings _).mp derives

example : JavaScript.expr chainedNew = "new var_2().var_3()" := by decide +kernel

end Qalam
