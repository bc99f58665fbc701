/-
# How expression statements begin

A statement that begins with a brace is read as a block, and one that begins with `function` or
`class` as a declaration. No expression begins with one of the words. One begins with a brace just
if an object literal stands at its front: as the head of calls and accesses, as the target of an
assignment or an increment behind it, or as a condition. Nothing puts parentheses around it there.
-/

import Qalam.Proofs.EcmaScript.Lines
import Qalam.Proofs.EcmaScript.Regrouping
import Qalam.Proofs.Structure.Nodes

namespace Qalam.EcmaScript

/-- Whether the text of an expression begins with the brace of an object literal. What is in
parentheses does not. -/
def opensObject : Expr → Bool
  | .object .. => true
  | .call _ head _ | .member _ head _ | .property _ head _ | .ternary _ head _ _
  | .unary _ _ .behind head => !JavaScript.isLoose head && opensObject head
  | .binary _ op left _ =>
    op.isCompoundAssignment && (!JavaScript.isLoose left && opensObject left)
  | _ => false

/-- The first token of an expression: no word that begins a declaration, and a brace just if an
object literal stands at the front. -/
structure Opens (e : Expr) (first : Token) : Prop where
  noFunction : first ≠ .word "function"
  noClass : first ≠ .word "class"
  brace : first = .sign "\x7b" ↔ opensObject e = true

namespace Opens

/-- A first token of another sort, where no object literal is at the front. -/
theorem of_other {e : Expr} {first : Token} (other : opensObject e = false)
    (differs : first ∉ [Token.word "function", .word "class", .sign "\x7b"]) : Opens e first := by
  simp only [List.mem_cons, List.not_mem_nil, or_false, not_or] at differs
  exact ⟨differs.1, differs.2.1, iff_of_false differs.2.2 (by simp [other])⟩

theorem of_name {e : Expr} {name : String} (other : opensObject e = false)
    (free : name ∉ keywords) : Opens e (.word name) := by
  refine of_other other ?_
  simp only [List.mem_cons, List.not_mem_nil, or_false, not_or]
  refine ⟨?_, ?_, by simp⟩ <;>
  · rintro ⟨⟩
    exact free (by decide)

theorem literal (note : Note) (value : Literal) :
    Opens (.literal note value) (EcmaScript.literal value) := by
  refine of_other rfl ?_
  cases value with
  | bool value => cases value <;> decide
  | number value => cases value <;> simp [EcmaScript.literal]
  | null | undefined => decide
  | _ => simp [EcmaScript.literal]

/-- The first token behind an operand at the front: a parenthesis, or that of the operand. -/
theorem behind {head whole : Expr} {more : List Token}
    (inside : ∃ first rest, tokens head = first :: rest ∧ Opens head first)
    (same : tokens whole = asOperand head (tokens head) ++ more)
    (front : opensObject whole = (!JavaScript.isLoose head && opensObject head)) :
    ∃ first rest, tokens whole = first :: rest ∧ Opens whole first := by
  obtain ⟨first, rest, spelled, opens⟩ := inside
  unfold asOperand at same
  cases loose : JavaScript.isLoose head with
  | true =>
      rw [loose] at same front
      exact ⟨.sign "(", _, same, of_other front (by decide)⟩
  | false =>
      rw [loose, if_neg Bool.false_ne_true, spelled] at same
      refine ⟨first, _, same, opens.noFunction, opens.noClass, opens.brace.trans ?_⟩
      rw [front, loose]
      rfl

end Opens

/-- Whether an expression is anything but a keyword. -/
def Unreserved (e : Expr) : Prop :=
  ∀ note name entity, e = .ident note name entity → name ∉ keywords

/-- How the text of an expression opens. -/
theorem exists_opens : ∀ e : Expr, (∀ x ∈ Parts.expr e, Unreserved x) →
    ∃ first rest, tokens e = first :: rest ∧ Opens e first
  | .literal note value, _ => ⟨_, _, by rw [tokens], .literal note value⟩
  | .ident note name entity, free =>
      ⟨_, _, by rw [tokens], .of_name rfl (free _ (Parts.mem_self _) _ _ _ rfl)⟩
  | .call note head args, free => by
      simp only [Parts.expr, List.forall_mem_cons, List.forall_mem_append] at free
      exact Opens.behind (exists_opens head free.2.1) (by rw [tokens]) (by rw [opensObject])
  | .this note field, _ => ⟨_, _, by rw [tokens], .of_other rfl (by decide)⟩
  | .new note target args, _ => ⟨_, _, by rw [tokens], .of_other rfl (by decide)⟩
  | .typeOf note operand, _ => ⟨_, _, by rw [tokens], .of_other rfl (by decide)⟩
  | .ternary note head yes no, free => by
      simp only [Parts.expr, List.forall_mem_cons, List.forall_mem_append] at free
      exact Opens.behind (exists_opens head free.2.1) (by rw [tokens]) (by rw [opensObject])
  | .binary note op head right, free => by
      simp only [Parts.expr, List.forall_mem_cons, List.forall_mem_append] at free
      by_cases compound : op.isCompoundAssignment = true
      · exact Opens.behind (exists_opens head free.2.1) (by rw [tokens, if_pos compound])
          (by rw [opensObject, compound, Bool.true_and])
      · refine ⟨.sign "(", _, by rw [tokens, if_neg compound, wrapped], .of_other ?_ (by decide)⟩
        simp [opensObject, compound]
  | .unary note op .before operand, _ => by
      refine ⟨_, _, by rw [tokens], .of_other rfl ?_⟩
      cases op <;> decide
  | .unary note op .behind head, free => by
      simp only [Parts.expr, List.forall_mem_cons] at free
      exact Opens.behind (exists_opens head free.2) (by rw [tokens]) (by rw [opensObject])
  | .array note elements, _ => ⟨_, _, by rw [tokens], .of_other rfl (by decide)⟩
  | .object note entries, _ =>
      ⟨_, _, by rw [tokens], by decide, by decide, iff_of_true rfl rfl⟩
  | .member note head index, free => by
      simp only [Parts.expr, List.forall_mem_cons, List.forall_mem_append] at free
      exact Opens.behind (exists_opens head free.2.1) (by rw [tokens]) (by rw [opensObject])
  | .property note head field, free => by
      simp only [Parts.expr, List.forall_mem_cons] at free
      exact Opens.behind (exists_opens head free.2) (by rw [tokens]) (by rw [opensObject])

end Qalam.EcmaScript

namespace Qalam

open EcmaScript

/-- The expression with which the text of a statement begins, if it is an expression statement or an
assignment. -/
def lead? : Statement → Option Expr
  | .expr _ e => some e
  | .assign _ target _ => some target
  | _ => none

/-- What an accepted program says in a statement is written without keywords as names. -/
theorem Program.part_unreserved {source : List Token} {program : Program} {bound : BoundProgram}
    (parsed : Program.ofTokens source = .ok program) (binds : program.bind = .ok bound)
    {oracle : Naming.Oracle} {e : Expr} (part : e ∈ (bound.program.rename oracle).parts) :
    Unreserved e := by
  obtain ⟨names, proper, same⟩ := bound.program.rename_eq_substitution oracle
  rw [same, Program.parts, names.parts_statements] at part
  obtain ⟨original, listed, rfl⟩ := List.mem_map.mp part
  exact fun _ _ _ => not_mem_keywords proper (Program.checked_of_bind parsed binds original listed)

/-- An expression statement or an assignment is one line, whose tokens begin with those of its first
expression. -/
theorem lex_statement {s : Statement} {lead : Expr} (leads : lead? s = some lead)
    (legible : ∀ x ∈ Parts.statement s, Legible x) (margin : JavaScript.Margin) :
    ∃ line more, JavaScript.statement margin s = [line] ∧
      lex line = some (tokens lead ++ more) := by
  cases s with
  | expr pos e =>
      cases leads
      have lexes := (Read.expr legible).text.before lexes_semicolon rfl rfl
      exact ⟨_, _, by rw [JavaScript.statement], (lexes_margin margin lexes).lex⟩
  | assign pos target value =>
      cases leads
      rw [Parts.statement, List.forall_mem_append] at legible
      have front := (Read.expr legible.1).text.before lexes_equals rfl rfl
      have lexes := (front.then (Read.expr legible.2).text).before lexes_semicolon rfl rfl
      rw [List.append_assoc, List.append_assoc] at lexes
      exact ⟨_, _, by rw [JavaScript.statement], (lexes_margin margin lexes).lex⟩
  | _ => cases leads

/-- The line of an expression statement or an assignment in an accepted program begins with no word
that introduces a declaration. It begins with a brace just if an object literal stands at the front
of the statement. -/
theorem Program.statement_opens {source : List Token} {program : Program} {bound : BoundProgram}
    (parsed : Program.ofTokens source = .ok program) (binds : program.bind = .ok bound)
    (oracle : Naming.Oracle) {s : Statement} {lead : Expr}
    (listed : .statement s ∈ (bound.program.rename oracle).nodes) (leads : lead? s = some lead)
    (margin : JavaScript.Margin) :
    ∃ line first rest, JavaScript.statement margin s = [line] ∧ lex line = some (first :: rest) ∧
      first ≠ .word "function" ∧ first ≠ .word "class" ∧
      (first = .sign "\x7b" ↔ opensObject lead = true) := by
  have part : Parts.statement s ⊆ (bound.program.rename oracle).parts :=
    Nodes.covered_statements _ (.statement s) listed
  have legible : ∀ x ∈ Parts.statement s, Legible x := fun x mem =>
    (Program.parts_rename parsed binds (part mem) x (Parts.mem_self x)).1
  have inside : Parts.expr lead ⊆ Parts.statement s := by
    cases s with
    | expr | assign =>
        cases leads
        simp [Parts.statement]
    | _ => cases leads
  obtain ⟨line, more, single, lexed⟩ := lex_statement leads legible margin
  obtain ⟨first, rest, same, opens⟩ := exists_opens lead fun x mem =>
    Program.part_unreserved parsed binds (part (inside mem))
  rw [same, List.cons_append] at lexed
  exact ⟨line, first, _, single, lexed, opens.noFunction, opens.noClass, opens.brace⟩

/-- The tokens of `\x7b1: 2\x7d; let x = 1; x = 2;`. -/
def bracedTokens : List Token :=
  [⟨.symbol .lbrace, ⟨1, 1⟩⟩, ⟨.int 1, ⟨1, 2⟩⟩, ⟨.symbol .colon, ⟨1, 3⟩⟩, ⟨.int 2, ⟨1, 4⟩⟩,
    ⟨.symbol .rbrace, ⟨1, 5⟩⟩, ⟨.symbol .semi, ⟨1, 6⟩⟩, ⟨.keyword .letKw, ⟨2, 1⟩⟩,
    ⟨.ident "x", ⟨2, 2⟩⟩, ⟨.symbol .eq, ⟨2, 3⟩⟩, ⟨.int 1, ⟨2, 4⟩⟩, ⟨.symbol .semi, ⟨2, 5⟩⟩,
    ⟨.ident "x", ⟨3, 1⟩⟩, ⟨.symbol .eq, ⟨3, 2⟩⟩, ⟨.int 2, ⟨3, 3⟩⟩, ⟨.symbol .semi, ⟨3, 4⟩⟩,
    ⟨.eof, ⟨4, 1⟩⟩]

/-- The statement that is an object literal, before and after binding. -/
def bracedStatement (tag : Tag → Option Tag) (canonical : String → Option String) : Statement :=
  .expr ⟨1, 1⟩ (.object ⟨⟨1, 1⟩, tag .object⟩ [.mk ⟨1, 2⟩ (.literal ⟨⟨1, 2⟩, tag .int⟩ (.int 1))
    (.literal ⟨⟨1, 4⟩, tag .int⟩ (.int 2)) (canonical "1")])

/-- The variable that is assigned to. -/
def bracedTarget (tag : Tag → Option Tag) (x : String) (entity : Option EntityId) : Expr :=
  .ident ⟨⟨3, 1⟩, tag .int⟩ x entity

/-- The assignment. -/
def bracedAssignment (tag : Tag → Option Tag) (x : String) (entity : Option EntityId) : Statement :=
  .assign ⟨3, 1⟩ (bracedTarget tag x entity) (.literal ⟨⟨3, 3⟩, tag .int⟩ (.int 2))

/-- The program, before and after binding and with the names of the text. -/
def bracedProgram (tag : Tag → Option Tag) (x : String) (entity : Option EntityId)
    (canonical : String → Option String) : Program :=
  ⟨[bracedStatement tag canonical,
    .declare ⟨2, 1⟩ false ⟨x, ⟨2, 2⟩, entity⟩ (some (.literal ⟨⟨2, 4⟩, tag .int⟩ (.int 1))),
    bracedAssignment tag x entity]⟩

/-- The program after binding. -/
def bracedBound : BoundProgram :=
  ⟨bracedProgram some "x" (some ⟨0⟩) some, ⟨#[.variable "x" false .int]⟩⟩

theorem bracedProgram_parsed : Program.ofTokens bracedTokens =
    .ok (bracedProgram (fun _ => none) "x" none fun _ => none) := rfl

theorem bracedProgram_binds :
    (bracedProgram (fun _ => none) "x" none fun _ => none).bind = .ok bracedBound := rfl

theorem bracedProgram_renamed :
    bracedBound.program.rename .silent = bracedProgram some "var_1" (some ⟨0⟩) some := rfl

theorem Program.statement_opens_assignment :
    ∃ line first rest,
      JavaScript.statement ⟨2, 0⟩ (bracedAssignment some "var_1" (some ⟨0⟩)) = [line] ∧
      lex line = some (first :: rest) ∧ first ≠ .word "function" ∧ first ≠ .word "class" ∧
      (first = .sign "\x7b" ↔ opensObject (bracedTarget some "var_1" (some ⟨0⟩)) = true) := by
  refine Program.statement_opens bracedProgram_parsed bracedProgram_binds .silent ?_ rfl ⟨2, 0⟩
  rw [bracedProgram_renamed]
  simp [Program.nodes, bracedProgram, bracedAssignment, Nodes.statements, Nodes.statement]

/-- An object literal is accepted as a statement, and its line begins with a brace. -/
theorem Program.object_statement_braced :
    Program.ofTokens bracedTokens =
        .ok (bracedProgram (fun _ => none) "x" none fun _ => none) ∧
      (bracedProgram (fun _ => none) "x" none fun _ => none).bind = .ok bracedBound ∧
      .statement (bracedStatement some some) ∈ (bracedBound.program.rename .silent).nodes ∧
      ∃ line rest, JavaScript.statement ⟨2, 0⟩ (bracedStatement some some) = [line] ∧
        lex line = some (.sign "\x7b" :: rest) := by
  refine ⟨bracedProgram_parsed, bracedProgram_binds, ?_, "\x7b1: 2\x7d;",
    [.number "1", .sign ":", .number "2", .sign "\x7d", .sign ";"], ?_, ?_⟩
  · rw [bracedProgram_renamed]
    exact List.mem_cons_self
  · decide +kernel
  · decide +kernel

example : (bracedBound.program.rename .silent).javaScript 2 =
    "\x7b1: 2\x7d;\nlet var_1 = 1;\nvar_1 = 2;" := by
  decide +kernel

end Qalam
