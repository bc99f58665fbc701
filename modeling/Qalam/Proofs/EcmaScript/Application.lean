/-
# What calls and accesses apply to

A call, an index or a field stands behind its head without parentheses of its own. The text is
read as applied to the whole head for every kind of head but one: an operator on one operand. A
prefix operator takes the applied form as its operand, or nothing at all if it must store a value
there, and no form whatever stands behind an operator that is itself behind its operand.
-/

import Qalam.Proofs.EcmaScript.Regrouping

namespace Qalam.EcmaScript

/-! ## Behind an operator that stores a value -/

/-- In front of a suffix, or at the end, the reader goes no further than an operand. -/
theorem finds_expression_of_unary {ts rest : List Token} {t : Tree}
    (suffixed : ∀ op ∈ rest.head?, op ∈ suffixSigns true) (found : Finds .unary ts (t, rest)) :
    Finds .expression ts (t, rest) := by
  have stops : ∀ {ops : List Token}, (∀ op ∈ suffixSigns true, op ∉ ops) → Stops ops rest :=
    fun free op head => free op (suffixed op head)
  have noOperator : ∀ op ∈ suffixSigns true, op ∉ tiers.flatten := by decide
  have conditional : Finds .conditional ts (t, rest) := by
    refine finds_conditional_of_unary (stops (by decide)) (fun level => ?_) (stops (by decide)) found
    refine (stops noOperator).mono fun op mem => ?_
    obtain ⟨ops, among, listed⟩ := List.mem_flatten.mp (operatorsAt_subset_flatten level mem)
    exact List.mem_flatten.mpr ⟨ops, List.mem_of_mem_drop among, listed⟩
  exact finds_expression (finds_noAssignment (stops (by decide)) conditional)
    (finds_noComma (stops (by decide)))

/-- Only what can store a value is incremented or decremented. -/
theorem Derives.isTarget_of_update {goal : Goal} {ts : List Token} {op : Token} {behind : Bool}
    {operand : Tree} (derives : Derives goal ts (.update op behind operand)) :
    operand.isTarget = true := by
  generalize same : Tree.update op behind operand = t at derives
  induction derives with
  | noComma _ ih | noAssignment _ ih | noCondition _ ih | noOperator _ _ ih | lastTier _ ih
  | noExponent _ ih | noUnary _ ih | noUpdate _ ih | leftNew _ ih | leftCall _ ih | newMember _ ih
  | memberPrimary _ ih | parenthesized _ ih => exact ih same
  | updateBehind _ target | updateBefore _ _ target =>
      cases same
      exact target
  | _ => cases same

/-- Nothing can be applied to an increment or decrement that is behind its operand. -/
theorem not_derives_behind {ts rest : List Token} {op first : Token} {operand : Tree}
    (left : Derives .left ts operand) (known : op ∈ updates) (suffix : first ∈ suffixSigns true)
    (t : Tree) : ¬ Derives .expression (ts ++ op :: first :: rest) t := by
  intro derives
  have noSuffix : ∀ op ∈ updates, op ∉ suffixSigns true := by decide
  have found : Finds .unary (ts ++ op :: first :: rest) (.update op true operand, first :: rest) := by
    refine finds_behind known ?_ ?_ (left.found _ (stops_cons (noSuffix op known)))
    · exact stops_of_begins left rfl (by decide)
    · exact stops_of_begins left rfl (by decide)
  -- the reader stops in front of the suffix, but a whole expression leaves nothing
  have leftOver := finds_expression_of_unary (by simpa using suffix) found
  cases leftOver.unique derives.finds

/-- An increment or decrement of what cannot store a value is not an expression. -/
theorem not_derives_before {ts : List Token} {op : Token} {operand : Tree}
    (inside : Derives .unary ts operand) (known : op ∈ updates) (other : operand.isTarget = false)
    (t : Tree) : ¬ Derives .expression (op :: ts) t := by
  intro derives
  have ends : ∀ {ops : List Token}, Stops ops [] := fun _ head => by cases head
  have found : Finds .unary ts (operand, []) := by
    have found := inside.found [] ends
    rwa [List.append_nil] at found
  -- the reader does not look at what is incremented, but every derivation does
  have whole := finds_expression_of_unary (by simp) (finds_before known found)
  cases whole.unique derives.finds
  rw [derives.isTarget_of_update] at other
  cases other

/-! ## Heads and suffixes -/

/-- What stands behind the head of a call or an access. -/
inductive Suffix
  | call (args : List Expr)
  | index (key : Expr)
  | field (name : String)

namespace Suffix

/-- The tokens of a suffix. -/
def tokens : Suffix → List Token
  | call args => wrapped (list args)
  | index key => .sign "[" :: (EcmaScript.tokens key ++ [.sign "]"])
  | field name => [.sign ".", .word name]

/-- The tree of a suffix applied to a tree. -/
def apply (suffix : Suffix) (head : Tree) : Tree :=
  match suffix with
  | call args => .call head (itemTree args)
  | index key => .index head (tree key)
  | field name => .property head name

/-- The expressions in a suffix. -/
def parts : Suffix → List Expr
  | call args => Parts.exprs args
  | index key => Parts.expr key
  | field _ => []

/-- The tree that is read when a suffix stands behind the text of a head. -/
def reading? (suffix : Suffix) : Expr → Option Tree
  | .unary _ op .before operand =>
    if op.isMutation then
      if (suffix.apply (tree operand)).isTarget then
        some (.update (.sign op.text) false (suffix.apply (tree operand)))
      else none
    else some (.unary (.sign op.text) (suffix.apply (tree operand)))
  | .unary _ _ .behind _ => none
  | head => some (suffix.apply (tree head))

theorem exists_tokens (suffix : Suffix) :
    ∃ first rest, suffix.tokens = first :: rest ∧ first ∈ suffixSigns true := by
  cases suffix <;> exact ⟨_, _, rfl, by decide⟩

/-- A suffix goes on with a call or a member expression. -/
theorem derives (suffix : Suffix) (fit : ∀ x ∈ suffix.parts, Fit x) {ts : List Token} {t : Tree}
    (head : Derives .call ts t ∨ Derives .member ts t) :
    Derives .call (ts ++ suffix.tokens) (suffix.apply t) ∨
      Derives .member (ts ++ suffix.tokens) (suffix.apply t) := by
  cases suffix with
  | call args =>
      have items := Placed.items fit
      exact .inl (head.elim (.callCall · items) (.call · items))
  | index key =>
      have key := Derives.noComma (Placed.expr fit).whole
      exact head.imp (.callIndex · key) (.memberIndex · key)
  | field name => exact head.imp .callField .memberField

theorem derives_unary (suffix : Suffix) (fit : ∀ x ∈ suffix.parts, Fit x) {ts : List Token}
    {t : Tree} (head : Derives .call ts t ∨ Derives .member ts t) :
    Derives .unary (ts ++ suffix.tokens) (suffix.apply t) :=
  .noUnary (.noUpdate ((suffix.derives fit head).elim .leftCall Derives.left_of_member))

/-- The whole head is what a suffix applies to, unless the head is an operator on an operand. -/
theorem reading?_eq_some_iff (suffix : Suffix) (head : Expr) :
    suffix.reading? head = some (suffix.apply (tree head)) ↔ isUnary head = false := by
  cases head with
  | unary note op side operand =>
      cases side with
      | before =>
          simp only [reading?, isUnary]
          cases suffix <;> split <;> simp [apply, Tree.isTarget]
      | behind => simp [reading?, isUnary]
  | _ => simp [reading?, isUnary]

/-- The readings of a suffix behind a head. -/
theorem derives_iff (suffix : Suffix) (fit : ∀ x ∈ suffix.parts, Fit x) {head : Expr}
    (base : head.isBase = true) (fit' : ∀ x ∈ Parts.expr head, Fit x) (t : Tree) :
    Derives .expression (asOperand head (EcmaScript.tokens head) ++ suffix.tokens) t ↔
      suffix.reading? head = some t := by
  have placed := Placed.expr fit'
  -- one derivation is enough, since there is no other
  have only : ∀ {ts : List Token} {known : Tree}, Derives .unary ts known →
      (Derives .expression ts t ↔ some known = some t) := by
    intro ts known derives
    have derives := Derives.noComma derives.assignment_of_unary
    rw [Option.some.injEq]
    exact ⟨derives.unique, by rintro rfl; exact derives⟩
  cases head with
  | unary note op side operand =>
      rw [Parts.expr, List.forall_mem_cons] at fit'
      have inner := Placed.expr fit'.2
      cases side with
      | before =>
          have inside := suffix.derives_unary fit (.inr inner.operand.wrapped)
          rw [asOperand, if_neg (by simp [JavaScript.isLoose]), EcmaScript.tokens, List.cons_append]
          by_cases mutation : op.isMutation = true
          · by_cases target : (suffix.apply (tree operand)).isTarget = true
            · simp only [reading?, if_pos mutation, if_pos target]
              exact only (.noUnary (.updateBefore (mem_updates mutation) inside target))
            · simp only [reading?, if_pos mutation, if_neg target]
              exact iff_of_false (not_derives_before inside (mem_updates mutation)
                (by simpa using target) t) (by simp)
          · simp only [reading?, if_neg mutation]
            exact only (.unary (mem_unaries (by simpa using mutation)) inside)
      | behind =>
          obtain ⟨mutation, assignable⟩ := fit'.1.written
          obtain ⟨first, rest, same, known⟩ := suffix.exists_tokens
          rw [asOperand, if_neg (by simp [JavaScript.isLoose]), EcmaScript.tokens, same,
            List.append_assoc, List.singleton_append, reading?]
          exact iff_of_false (not_derives_behind (inner.operand_left assignable)
            (mem_updates mutation) known t) (by simp)
  | _ => exact only (suffix.derives_unary fit (placed.operand_access base rfl))

end Suffix

/-- The head and the suffix of a call or an access. -/
def application? : Expr → Option (Expr × Suffix)
  | .call _ callee args => some (callee, .call args)
  | .member _ base index => some (base, .index index)
  | .property _ base field => some (base, .field field.name)
  | _ => none

section

variable {e head : Expr} {suffix : Suffix} (applied : application? e = some (head, suffix))

include applied

theorem tokens_application : tokens e = asOperand head (tokens head) ++ suffix.tokens := by
  cases e with
  | call | member | property =>
      cases applied
      rw [tokens, Suffix.tokens]
  | _ => cases applied

theorem parts_application : Parts.expr e = e :: (Parts.expr head ++ suffix.parts) := by
  cases e with
  | call | member | property =>
      cases applied
      simp [Parts.expr, Suffix.parts]
  | _ => cases applied

theorem regroups_application : Regroups e ↔ isUnary head = false := by
  cases e with
  | call | member | property =>
      cases applied
      exact Iff.rfl
  | _ => cases applied

/-- Constants and `typeof` are not heads. -/
theorem isBase_head (fit : Regroups e → Fit e) : head.isBase = true := by
  by_cases unary : isUnary head = true
  · cases head with
    | unary => rfl
    | _ => cases unary
  · have base := (fit ((regroups_application applied).mpr (by simpa using unary))).base
    cases e with
    | call | member | property =>
        cases applied
        exact base
    | _ => cases applied

end

end Qalam.EcmaScript

namespace Qalam

open EcmaScript

/-- The text of a call or an access in an accepted program, and what it is read as. -/
theorem Program.application_derives {source : List Token} {program : Program}
    {bound : BoundProgram} (parsed : Program.ofTokens source = .ok program)
    (binds : program.bind = .ok bound) {oracle : Naming.Oracle} {e head : Expr} {suffix : Suffix}
    (part : e ∈ (bound.program.rename oracle).parts) (applied : application? e = some (head, suffix))
    (regroups : ∀ x ∈ Parts.expr head ++ suffix.parts, Regroups x) :
    lex (JavaScript.expr e) = some (tokens e) ∧
      ∀ t, Derives .expression (tokens e) t ↔ suffix.reading? head = some t := by
  have inside := Program.parts_rename parsed binds part
  have legible : ∀ x ∈ Parts.expr e, Legible x := fun x mem => (inside x mem).1
  rw [parts_application applied, List.forall_mem_cons] at inside
  have fit : ∀ x ∈ Parts.expr head ++ suffix.parts, Fit x :=
    fun x mem => (inside.2 x mem).2 (regroups x mem)
  rw [List.forall_mem_append] at fit
  refine ⟨(Read.expr legible).text.lex, ?_⟩
  rw [tokens_application applied]
  exact suffix.derives_iff fit.2 (isBase_head applied inside.1.2) fit.1

/-- The text of a call or an access in an accepted program has the reading given above, and no
other, if what is inside it regroups. It applies to the tree of the whole head just if the head is
not an operator on one operand. -/
theorem Program.application_reads {source : List Token} {program : Program} {bound : BoundProgram}
    (parsed : Program.ofTokens source = .ok program) (binds : program.bind = .ok bound)
    (oracle : Naming.Oracle) {e head : Expr} {suffix : Suffix}
    (part : e ∈ (bound.program.rename oracle).parts) (applied : application? e = some (head, suffix))
    (regroups : ∀ x ∈ Parts.expr head ++ suffix.parts, Regroups x) :
    ∃ ts, lex (JavaScript.expr e) = some ts ∧
      (∀ t, Derives .expression ts t ↔ suffix.reading? head = some t) ∧
      (Derives .expression ts (suffix.apply (tree head)) ↔ isUnary head = false) := by
  obtain ⟨lexed, readings⟩ := Program.application_derives parsed binds part applied regroups
  refine ⟨tokens e, lexed, readings, ?_⟩
  rw [readings]
  exact suffix.reading?_eq_some_iff head

/-- The tokens of `function f(x) \x7b (-x)(1); \x7d`. -/
def negatedTokens : List Token :=
  [⟨.keyword .functionKw, ⟨1, 1⟩⟩, ⟨.ident "f", ⟨1, 2⟩⟩, ⟨.symbol .lparen, ⟨1, 3⟩⟩,
    ⟨.ident "x", ⟨1, 4⟩⟩, ⟨.symbol .rparen, ⟨1, 5⟩⟩, ⟨.symbol .lbrace, ⟨1, 6⟩⟩,
    ⟨.symbol .lparen, ⟨2, 1⟩⟩, ⟨.symbol .minus, ⟨2, 2⟩⟩, ⟨.ident "x", ⟨2, 3⟩⟩,
    ⟨.symbol .rparen, ⟨2, 4⟩⟩, ⟨.symbol .lparen, ⟨2, 5⟩⟩, ⟨.int 1, ⟨2, 6⟩⟩,
    ⟨.symbol .rparen, ⟨2, 7⟩⟩, ⟨.symbol .semi, ⟨2, 8⟩⟩, ⟨.symbol .rbrace, ⟨3, 1⟩⟩,
    ⟨.eof, ⟨3, 2⟩⟩]

/-- The negation in it, before and after binding and with the names of the text. -/
def negatedHead (tag : Tag → Option Tag) (x : String) (entity : Option EntityId) : Expr :=
  .unary ⟨⟨2, 2⟩, tag .any⟩ .neg .before (.ident ⟨⟨2, 3⟩, tag .any⟩ x entity)

/-- What the negation is called with. -/
def negatedArgs (tag : Tag → Option Tag) : List Expr := [.literal ⟨⟨2, 6⟩, tag .int⟩ (.int 1)]

/-- A function that calls the negation of its parameter. -/
def negatedProgram (tag : Tag → Option Tag) (f x : String) (entity : Nat → Option EntityId) :
    Program :=
  ⟨[.function (.mk ⟨1, 1⟩ ⟨f, ⟨1, 2⟩, entity 0⟩ [⟨x, ⟨⟨1, 4⟩, tag .any⟩, entity 1⟩]
      (.mk ⟨1, 6⟩ [.expr ⟨2, 1⟩ (.call ⟨⟨2, 2⟩, tag .any⟩ (negatedHead tag x (entity 1))
        (negatedArgs tag))]))]⟩

/-- The program after binding. -/
def negatedBound : BoundProgram :=
  ⟨negatedProgram some "f" "x" fun index => some ⟨index⟩,
    ⟨#[.function "f", .variable "x" false .any]⟩⟩

/-- The call in the text. -/
def negatedCall : Expr :=
  .call ⟨⟨2, 2⟩, some .any⟩ (negatedHead some "var_2" (some ⟨1⟩)) (negatedArgs some)

theorem negatedProgram_parsed : Program.ofTokens negatedTokens =
    .ok (negatedProgram (fun _ => none) "f" "x" fun _ => none) := rfl

theorem negatedProgram_binds :
    (negatedProgram (fun _ => none) "f" "x" fun _ => none).bind = .ok negatedBound := rfl

theorem negatedCall_part : negatedCall ∈ (negatedBound.program.rename .silent).parts := by
  have same : negatedBound.program.rename .silent =
      negatedProgram some "var_1" "var_2" fun index => some ⟨index⟩ := rfl
  rw [same]
  exact List.mem_cons_self

theorem negatedCall_regroups : ∀ x ∈ Parts.expr (negatedHead some "var_2" (some ⟨1⟩)) ++
    (Suffix.call (negatedArgs some)).parts, Regroups x := by
  simp [negatedHead, negatedArgs, Suffix.parts, Parts.expr, Parts.exprs, Regroups]

theorem Program.application_reads_negated :
    ∃ ts, lex (JavaScript.expr negatedCall) = some ts ∧
      (∀ t, Derives .expression ts t ↔
        (Suffix.call (negatedArgs some)).reading? (negatedHead some "var_2" (some ⟨1⟩)) = some t) ∧
      (Derives .expression ts ((Suffix.call (negatedArgs some)).apply
          (tree (negatedHead some "var_2" (some ⟨1⟩)))) ↔
        isUnary (negatedHead some "var_2" (some ⟨1⟩)) = false) :=
  Program.application_reads negatedProgram_parsed negatedProgram_binds .silent negatedCall_part rfl
    negatedCall_regroups

/-- The accepted call of a negation is read as the negation of a call, and as nothing else. -/
theorem Program.negated_call_regrouped :
    Program.ofTokens negatedTokens = .ok (negatedProgram (fun _ => none) "f" "x" fun _ => none) ∧
      (negatedProgram (fun _ => none) "f" "x" fun _ => none).bind = .ok negatedBound ∧
      negatedCall ∈ (negatedBound.program.rename .silent).parts ∧
      ∃ ts, lex (JavaScript.expr negatedCall) = some ts ∧
        (∀ t, Derives .expression ts t ↔
          t = .unary (.sign "-") (.call (.name "var_2") (.item (.number "1") .nothing))) ∧
        ¬ Derives .expression ts
          (.call (.unary (.sign "-") (.name "var_2")) (.item (.number "1") .nothing)) := by
  refine ⟨negatedProgram_parsed, negatedProgram_binds, negatedCall_part, ?_⟩
  obtain ⟨lexed, readings⟩ := Program.application_derives negatedProgram_parsed negatedProgram_binds
    negatedCall_part rfl negatedCall_regroups
  have reading : (Suffix.call (negatedArgs some)).reading? (negatedHead some "var_2" (some ⟨1⟩)) =
      some (.unary (.sign "-") (.call (.name "var_2") (.item (.number "1") .nothing))) := by
    decide +kernel
  rw [reading] at readings
  refine ⟨_, lexed, fun t => ?_, fun derives => ?_⟩
  · rw [readings, Option.some.injEq, eq_comm]
  · cases (readings _).mp derives

example : JavaScript.expr negatedCall = "-(var_2)(1)" := by decide +kernel

end Qalam
