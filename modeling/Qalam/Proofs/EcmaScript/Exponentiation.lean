/-
# What powers are taken of

The base of a power stands before the operator without parentheses of its own, unless it is a
conditional or a compound assignment. The language allows no prefix operator there, increments and
decrements excepted, so the text of a power is an expression for every base but one: an operator
that stores nothing, in front of its operand. With such a base the text has no reading at all. With
any other base it is the power of the whole base.
-/

import Qalam.Proofs.EcmaScript.Application

namespace Qalam.EcmaScript

/-- Whether an expression is a prefix operator that stores nothing, on an operand. -/
def isNegation : Expr → Bool
  | .typeOf .. => true
  | .unary _ op .before _ => !op.isMutation
  | _ => false

/-- The text of a negation begins with its operator. -/
theorem exists_operator {e : Expr} (negation : isNegation e = true)
    (fit : ∀ x ∈ Parts.expr e, Fit x) :
    ∃ op ts t, op ∈ unaries ∧ asOperand e (tokens e) = op :: ts ∧ tree e = .unary op t ∧
      Derives .unary ts t := by
  cases e with
  | typeOf note operand =>
      rw [Parts.expr, List.forall_mem_cons] at fit
      have inside := (Placed.expr fit.2).operand_unary
      refine ⟨.word "typeof", _, _, by decide, ?_, by rw [tree], inside⟩
      rw [asOperand, if_neg (by simp [JavaScript.isLoose]), tokens]
  | unary note op side operand =>
      cases side with
      | before =>
          rw [Parts.expr, List.forall_mem_cons] at fit
          have plain : op.isMutation = false := by simpa [isNegation] using negation
          have inside := (Placed.expr fit.2).operand.wrapped.unary_of_member
          refine ⟨.sign op.text, _, _, mem_unaries plain, ?_, ?_, inside⟩
          · rw [asOperand, if_neg (by simp [JavaScript.isLoose]), tokens]
          · rw [tree, if_neg (by simp [plain])]
      | behind => cases negation
  | _ => cases negation

/-- Whatever is no negation can be the base of a power. -/
theorem Placed.operand_base {e : Expr} (fit : ∀ x ∈ Parts.expr e, Fit x)
    (other : isNegation e = false) : Derives .update (asOperand e (tokens e)) (tree e) := by
  by_cases plain : isPrefixed e = false
  · exact (Placed.expr fit).operand_update plain
  · cases e with
    | typeOf => cases other
    | unary note op side operand =>
        cases side with
        | before =>
            rw [Parts.expr, List.forall_mem_cons] at fit
            have mutation : op.isMutation = true := by simpa [isNegation] using other
            have inside := (Placed.expr fit.2).operand.wrapped.unary_of_member
            rw [asOperand, if_neg (by simp [JavaScript.isLoose]), tokens, tree, if_pos mutation]
            exact .updateBefore (mem_updates mutation) inside
              (isTarget_tree (fit.1.written mutation))
        | behind => exact absurd rfl plain
    | _ => exact absurd rfl plain

/-! ## Operators at the front -/

/-- Tokens that can stand behind an operator's operand where no power is taken of it. -/
def followers : List Token := .sign ")" :: .sign "," :: .sign "?" :: tiers.flatten

/-- Forms that can begin with an operator that stores nothing. -/
def Goal.takesUnary : Goal → Bool
  | .expression | .assignment | .conditional | .tier _ | .exponent | .unary => true
  | _ => false

/-- What stands in front of an operand that no power is taken of. -/
def Negates (op : Token) (ts : List Token) : Prop :=
  ∃ us rest operand, ts = op :: (us ++ rest) ∧ Derives .unary us operand ∧
    ∀ next ∈ rest.head?, next ∈ followers

theorem Negates.append {op next : Token} {ts : List Token} (negates : Negates op ts)
    (known : next ∈ followers) (others : List Token) : Negates op (ts ++ next :: others) := by
  obtain ⟨us, rest, operand, rfl, inside, follows⟩ := negates
  refine ⟨us, rest ++ next :: others, operand, by simp, inside, ?_⟩
  cases rest with
  | nil => simpa using known
  | cons first rest => simpa using follows

/-- The operand of an operator that stands at the front is no base of a power. -/
theorem Derives.negates {goal : Goal} {ts : List Token} {t : Tree} (derives : Derives goal ts t)
    (takes : goal.takesUnary = true) {op : Token} (known : op ∈ unaries)
    (starts : ts.head? = some op) : Negates op ts := by
  have other : ∀ {goal us t}, Derives goal us t → goal.isFull = true →
      (∀ op ∈ unaries, goal.begins op = false) → us.head? ≠ some op := by
    intro goal us t derives full free
    obtain ⟨first, rest, rfl, begins⟩ := derives.begins full
    rintro ⟨⟩
    rw [free op known] at begins
    cases begins
  have front : ∀ {goal us vs t}, Derives goal us t → goal.isFull = true →
      (us ++ vs).head? = us.head? := by
    intro goal us vs t derives full
    obtain ⟨first, rest, rfl, -⟩ := derives.begins full
    rfl
  induction derives with
  | noComma _ ih | noAssignment _ ih | noCondition _ ih | noOperator _ _ ih | lastTier _ ih
  | noExponent _ ih => exact ih rfl starts
  | comma derives _ ih =>
      rw [front derives rfl] at starts
      exact (ih rfl starts).append (by decide) _
  | conditional derives _ _ ih =>
      rw [front derives rfl] at starts
      exact (ih rfl starts).append (by decide) _
  | operator level mem derives _ ih =>
      rw [front derives rfl] at starts
      refine (ih rfl starts).append ?_ _
      have listed := List.mem_flatten.mpr ⟨_, List.mem_of_getElem? level, mem⟩
      exact List.mem_cons_of_mem _ (List.mem_cons_of_mem _ (List.mem_cons_of_mem _ listed))
  | assign derives =>
      rw [front derives rfl] at starts
      exact absurd starts (other derives rfl (by decide))
  | exponent derives =>
      rw [front derives rfl] at starts
      exact absurd starts (other derives rfl (by decide))
  | noUnary derives => exact absurd starts (other derives rfl (by decide))
  | unary _ inside =>
      cases starts
      exact ⟨_, [], _, by rw [List.append_nil], inside, by simp⟩
  | _ => cases takes

/-- The same inside parentheses with which an expression begins. -/
theorem Derives.negates_of_opening {goal : Goal} {ts tail more : List Token} {t : Tree}
    (derives : Derives goal ts t) (full : goal.isFull = true) {op : Token} (known : op ∈ unaries)
    (same : ts ++ tail = .sign "(" :: op :: more) : Negates op (op :: more) := by
  have noOpening : ∀ op ∈ unaries ++ updates, op ≠ .sign "(" := by decide
  induction derives generalizing tail with
  | noComma _ ih | noAssignment _ ih | noCondition _ ih | noOperator _ _ ih | lastTier _ ih
  | noExponent _ ih | noUnary _ ih | noUpdate _ ih | leftNew _ ih | leftCall _ ih
  | newMember _ ih | memberPrimary _ ih => exact ih rfl same
  | comma _ _ ih | assign _ _ _ _ ih | conditional _ _ _ ih | operator _ _ _ _ ih
  | exponent _ _ ih | updateBehind _ _ _ ih | call _ _ ih | callCall _ _ ih | callIndex _ _ ih
  | callField _ ih | memberIndex _ _ ih | memberField _ ih =>
      rw [List.append_assoc] at same
      exact ih rfl same
  | unary mem =>
      exact absurd (List.cons.inj same).1 (noOpening _ (List.mem_append_left _ mem))
  | updateBefore mem =>
      exact absurd (List.cons.inj same).1 (noOpening _ (List.mem_append_right _ mem))
  | newBare | memberNew | name | constant | number | text | array | object => simp at same
  | @parenthesized ts t inside =>
      obtain ⟨first, rest, rfl, -⟩ := id (inside.begins rfl)
      rw [List.cons_append, List.append_assoc] at same
      obtain ⟨rfl, rfl⟩ := List.cons.inj (List.cons.inj same).2
      exact (inside.negates rfl known rfl).append (by decide) tail
  | noItem | lastItem | nextItem | noEntry | lastEntry | nextEntry => cases full

/-- No power is taken of what begins with an operator that stores nothing. -/
theorem not_derives_power {ts us : List Token} {op : Token} {operand : Tree} (known : op ∈ unaries)
    (inside : Derives .unary ts operand) (t : Tree) :
    ¬ Derives .expression (wrapped (op :: ts ++ Token.sign "**" :: us)) t := by
  intro derives
  have opening : wrapped (op :: ts ++ Token.sign "**" :: us) ++ [] =
      Token.sign "(" :: op :: (ts ++ Token.sign "**" :: (us ++ [Token.sign ")"])) := by
    simp [wrapped]
  obtain ⟨others, rest, operand', same, inside', follows⟩ :=
    derives.negates_of_opening rfl known opening
  -- an operand ends in one place, and a power ends it elsewhere than the derivation
  have stops : Stops afterUnary rest := by
    have free : ∀ next ∈ followers, next ∉ afterUnary := by decide
    exact fun next head => free next (follows next head)
  have found := inside.found (Token.sign "**" :: (us ++ [Token.sign ")"])) (stops_cons (by decide))
  rw [(List.cons.inj same).2] at found
  cases found.unique (inside'.found rest stops)
  exact absurd (follows _ rfl) (by decide)

end Qalam.EcmaScript

namespace Qalam

open EcmaScript

/-- The text of a power in an accepted program, and what it is read as. -/
theorem Program.exponentiation_derives {source : List Token} {program : Program}
    {bound : BoundProgram} (parsed : Program.ofTokens source = .ok program)
    (binds : program.bind = .ok bound) {oracle : Naming.Oracle} {note : Note} {left right : Expr}
    (part : .binary note .pow left right ∈ (bound.program.rename oracle).parts)
    (regroups : ∀ x ∈ Parts.expr left ++ Parts.expr right, Regroups x) :
    lex (JavaScript.expr (.binary note .pow left right)) =
        some (tokens (.binary note .pow left right)) ∧
      ∀ t, Derives .expression (tokens (.binary note .pow left right)) t ↔
        isNegation left = false ∧ t = .binary (.sign "**") (tree left) (tree right) := by
  have inside := Program.parts_rename parsed binds part
  have legible : ∀ x ∈ Parts.expr (.binary note .pow left right), Legible x :=
    fun x mem => (inside x mem).1
  rw [Parts.expr, List.forall_mem_cons] at inside
  have fit : ∀ x ∈ Parts.expr left ++ Parts.expr right, Fit x :=
    fun x mem => (inside.2 x mem).2 (regroups x mem)
  rw [List.forall_mem_append] at fit
  refine ⟨(Read.expr legible).text.lex, fun t => ?_⟩
  have text : tokens (.binary note .pow left right) =
      wrapped (asOperand left (tokens left) ++ .sign "**" :: asOperand right (tokens right)) := by
    rw [tokens, if_neg (by decide)]
    rfl
  rw [text]
  cases negation : isNegation left with
  | true =>
      obtain ⟨op, ts, operand, known, same, -, inside⟩ := exists_operator negation fit.1
      rw [same]
      exact iff_of_false (not_derives_power known inside t) (by simp)
  | false =>
      have derives := Derives.exponent (Placed.operand_base fit.1 negation)
        (Placed.expr fit.2).operand_unary.exponent_of_unary
      have whole : Derives .expression
          (wrapped (asOperand left (tokens left) ++ .sign "**" :: asOperand right (tokens right)))
          (.binary (.sign "**") (tree left) (tree right)) :=
        .noComma (Derives.assignment_of_tier
          (derives.tier_of_exponent (Nat.zero_le _))).wrapped.unary_of_member.assignment_of_unary
      exact ⟨fun other => ⟨rfl, other.unique whole⟩, fun ⟨_, same⟩ => same ▸ whole⟩

/-- The text of a power in an accepted program is the power of the whole base and nothing else, if
what is inside regroups and the base is not an operator that stores nothing, in front of its
operand. With such a base the text is no expression. -/
theorem Program.exponentiation_reads {source : List Token} {program : Program}
    {bound : BoundProgram} (parsed : Program.ofTokens source = .ok program)
    (binds : program.bind = .ok bound) (oracle : Naming.Oracle) {note : Note} {left right : Expr}
    (part : .binary note .pow left right ∈ (bound.program.rename oracle).parts)
    (regroups : ∀ x ∈ Parts.expr left ++ Parts.expr right, Regroups x) :
    ∃ ts, lex (JavaScript.expr (.binary note .pow left right)) = some ts ∧
      ∀ t, Derives .expression ts t ↔
        isNegation left = false ∧ t = .binary (.sign "**") (tree left) (tree right) :=
  ⟨_, Program.exponentiation_derives parsed binds part regroups⟩

/-- The tokens of `let x = 2; (-x) ** 2; (++x) ** 2;`. -/
def poweredTokens : List Token :=
  [⟨.keyword .letKw, ⟨1, 1⟩⟩, ⟨.ident "x", ⟨1, 2⟩⟩, ⟨.symbol .eq, ⟨1, 3⟩⟩, ⟨.int 2, ⟨1, 4⟩⟩,
    ⟨.symbol .semi, ⟨1, 5⟩⟩, ⟨.symbol .lparen, ⟨2, 1⟩⟩, ⟨.symbol .minus, ⟨2, 2⟩⟩,
    ⟨.ident "x", ⟨2, 3⟩⟩, ⟨.symbol .rparen, ⟨2, 4⟩⟩, ⟨.symbol .starStar, ⟨2, 5⟩⟩, ⟨.int 2, ⟨2, 6⟩⟩,
    ⟨.symbol .semi, ⟨2, 7⟩⟩, ⟨.symbol .lparen, ⟨3, 1⟩⟩, ⟨.symbol .plusPlus, ⟨3, 2⟩⟩,
    ⟨.ident "x", ⟨3, 3⟩⟩, ⟨.symbol .rparen, ⟨3, 4⟩⟩, ⟨.symbol .starStar, ⟨3, 5⟩⟩, ⟨.int 2, ⟨3, 6⟩⟩,
    ⟨.symbol .semi, ⟨3, 7⟩⟩, ⟨.eof, ⟨4, 1⟩⟩]

/-- The square of an operator on the variable, in a line. -/
def poweredSquare (line : Nat) (op : UnaryOp) (tag : Tag → Option Tag) (x : String)
    (entity : Option EntityId) : Expr :=
  .binary ⟨⟨line, 2⟩, tag .number⟩ .pow
    (.unary ⟨⟨line, 2⟩, tag .int⟩ op .before (.ident ⟨⟨line, 3⟩, tag .int⟩ x entity))
    (.literal ⟨⟨line, 6⟩, tag .int⟩ (.int 2))

/-- The program, before and after binding and with the names of the text. -/
def poweredProgram (tag : Tag → Option Tag) (x : String) (entity : Option EntityId) : Program :=
  ⟨[.declare ⟨1, 1⟩ false ⟨x, ⟨1, 2⟩, entity⟩ (some (.literal ⟨⟨1, 4⟩, tag .int⟩ (.int 2))),
    .expr ⟨2, 1⟩ (poweredSquare 2 .neg tag x entity),
    .expr ⟨3, 1⟩ (poweredSquare 3 .increment tag x entity)]⟩

/-- The program after binding. -/
def poweredBound : BoundProgram :=
  ⟨poweredProgram some "x" (some ⟨0⟩), ⟨#[.variable "x" false .int]⟩⟩

theorem poweredProgram_parsed : Program.ofTokens poweredTokens =
    .ok (poweredProgram (fun _ => none) "x" none) := rfl

theorem poweredProgram_binds :
    (poweredProgram (fun _ => none) "x" none).bind = .ok poweredBound := rfl

theorem poweredSquare_part {line : Nat} {op : UnaryOp}
    (listed : (line, op) ∈ [(2, UnaryOp.neg), (3, .increment)]) :
    poweredSquare line op some "var_1" (some ⟨0⟩) ∈
      (poweredBound.program.rename .silent).parts := by
  have same : poweredBound.program.rename .silent = poweredProgram some "var_1" (some ⟨0⟩) := rfl
  rw [same]
  simp only [List.mem_cons, List.not_mem_nil, or_false, Prod.mk.injEq] at listed
  obtain ⟨rfl, rfl⟩ | ⟨rfl, rfl⟩ := listed <;>
    simp [Program.parts, poweredProgram, Parts.statements, Parts.statement, Parts.mem_self]

theorem poweredSquare_regroups (line : Nat) (op : UnaryOp) :
    ∀ x ∈ Parts.expr (.unary ⟨⟨line, 2⟩, some .int⟩ op .before
        (.ident ⟨⟨line, 3⟩, some .int⟩ "var_1" (some ⟨0⟩))) ++
      Parts.expr (.literal ⟨⟨line, 6⟩, some .int⟩ (.int 2)), Regroups x := by
  simp [Parts.expr, Regroups]

theorem Program.exponentiation_reads_increment :
    ∃ ts, lex (JavaScript.expr (poweredSquare 3 .increment some "var_1" (some ⟨0⟩))) = some ts ∧
      ∀ t, Derives .expression ts t ↔
        isNegation (.unary ⟨⟨3, 2⟩, some .int⟩ .increment .before
            (.ident ⟨⟨3, 3⟩, some .int⟩ "var_1" (some ⟨0⟩))) = false ∧
          t = .binary (.sign "**")
            (tree (.unary ⟨⟨3, 2⟩, some .int⟩ .increment .before
              (.ident ⟨⟨3, 3⟩, some .int⟩ "var_1" (some ⟨0⟩))))
            (tree (.literal ⟨⟨3, 6⟩, some .int⟩ (.int 2))) :=
  Program.exponentiation_reads poweredProgram_parsed poweredProgram_binds .silent
    (poweredSquare_part (by decide)) (poweredSquare_regroups 3 .increment)

/-- The accepted square of a negation has a text that is no expression. -/
theorem Program.negated_base_unread :
    Program.ofTokens poweredTokens = .ok (poweredProgram (fun _ => none) "x" none) ∧
      (poweredProgram (fun _ => none) "x" none).bind = .ok poweredBound ∧
      poweredSquare 2 .neg some "var_1" (some ⟨0⟩) ∈
        (poweredBound.program.rename .silent).parts ∧
      ∃ ts, lex (JavaScript.expr (poweredSquare 2 .neg some "var_1" (some ⟨0⟩))) = some ts ∧
        ∀ t, ¬ Derives .expression ts t := by
  have part : poweredSquare 2 .neg some "var_1" (some ⟨0⟩) ∈
      (poweredBound.program.rename .silent).parts := poweredSquare_part (by decide)
  refine ⟨poweredProgram_parsed, poweredProgram_binds, part, ?_⟩
  obtain ⟨lexed, readings⟩ := Program.exponentiation_derives poweredProgram_parsed
    poweredProgram_binds part (poweredSquare_regroups 2 .neg)
  exact ⟨_, lexed, fun t derives => absurd ((readings t).mp derives).1 (by decide)⟩

example : JavaScript.expr (poweredSquare 2 .neg some "var_1" (some ⟨0⟩)) = "(-(var_1) ** 2)" := by
  decide +kernel

end Qalam
