/-
# The printer keeps its modes in order

What a printer does inside a line is to ask for names: no line is written, and all modes are as
before. So each text inside a line is the one that naming and writing the expression apart from
each other give. A statement is begun with the modes for statements and ends with the same modes,
and between the two it has written just the lines of the renamed statement, at the level at which
it was begun. Hence the whole walk writes what renaming the program first and laying it out then
gives, where nothing but the level is passed on and nothing but the table of names is kept.
-/

import Qalam.Compiler
import Qalam.Proofs.Printing.Machine

namespace Qalam.Printing

open JavaScript (Margin asOperand)
open Naming (Oracle Renaming Table Rename.expr Rename.exprs Rename.pair Rename.pairs
  Rename.optional Rename.declarators Rename.statement Rename.statements Rename.block
  Rename.methods Rename.constructor Rename.arms)

variable {oracle : Oracle} {α β : Type}

/-! ## Inside a line -/

theorem request_pure (value : α) : (request (pure value) : Writing oracle α) = pure value := rfl

theorem request_bind (naming : Renaming oracle α) (next : α → Renaming oracle β) :
    request (naming >>= next) = request naming >>= fun value => request (next value) := rfl

/-- The text of an expression under its names. -/
def inlined (e : Expr) : Renaming oracle String := do
  let renamed ← Rename.expr e
  return JavaScript.expr renamed

/-- The text of an expression as an operand, under its names. -/
def inlinedOperand (e : Expr) : Renaming oracle String := do
  let renamed ← Rename.expr e
  return asOperand renamed (JavaScript.expr renamed)

/-- The texts of several expressions under their names. -/
def inlinedAll (es : List Expr) : Renaming oracle (List String) := do
  let renamed ← Rename.exprs es
  return renamed.map JavaScript.expr

/-- The texts of entries of an object literal under their names. -/
def inlinedPairs (entries : List Pair) : Renaming oracle (List String) := do
  let renamed ← Rename.pairs entries
  return renamed.map JavaScript.pair

theorem inlinedAll_cons (e : Expr) (others : List Expr) :
    (inlinedAll (e :: others) : Renaming oracle (List String)) = do
      let text ← inlined e
      let texts ← inlinedAll others
      return text :: texts := by
  simp only [inlinedAll, inlined, Rename.exprs, List.map_cons, bind_assoc, pure_bind]

/-- Renaming does not change whether an operand needs parentheses. -/
theorem inlinedOperand_eq (e : Expr) :
    (inlinedOperand e : Renaming oracle String) =
      inlined e >>= fun text => pure (asOperand e text) := by
  cases e <;>
    simp only [inlinedOperand, inlined, Rename.expr, bind_assoc, pure_bind] <;> rfl

theorem list_eq_intercalate (separator : String) (es : List Expr) :
    JavaScript.list separator es = separator.intercalate (es.map JavaScript.expr) := by
  induction es with
  | nil => rfl
  | cons e others ih =>
      cases others with
      | nil => simp [JavaScript.list]
      | cons e' others =>
          rw [JavaScript.list, ih]
          · simp [String.intercalate_cons_cons]
          · simp

theorem pairs_eq_intercalate (entries : List Pair) :
    JavaScript.pairs entries = ", ".intercalate (entries.map JavaScript.pair) := by
  induction entries with
  | nil => rfl
  | cons entry others ih =>
      cases others with
      | nil => simp [JavaScript.pairs]
      | cons entry' others =>
          rw [JavaScript.pairs, ih]
          · simp [String.intercalate_cons_cons]
          · simp

/-- A fragment is never a statement of its own, so its text comes back and the mode is restored. -/
theorem fragment_of_compound {e : Expr} {naming : Renaming oracle String}
    (inside : compound e = request naming) : fragment e = request naming := by
  cases e with
  | literal note value | ident note name entity =>
      rw [compound] at inside
      rw [← inside, fragment, expression]
      rfl
  | _ =>
      rw [fragment, expression, inside]
      · rfl
      all_goals simp

theorem operand_of_compound {e : Expr}
    (inside : (compound e : Writing oracle String) = request (inlined e)) :
    (operand e : Writing oracle String) = request (inlinedOperand e) := by
  rw [operand, fragment_of_compound inside, inlinedOperand_eq]
  rfl

/-- The separator depends on the list alone, because its elements leave the mode as it is. -/
theorem list_of_fragments {es : List Expr} {naming : Renaming oracle (List String)}
    (inside : fragments es = request naming) (parameters : Bool) :
    list es parameters = request do
      let texts ← naming
      return (if parameters then ", " else ",").intercalate texts := by
  rw [list, inside]
  rfl

mutual

theorem compound_eq : ∀ e : Expr, (compound e : Writing oracle String) = request (inlined e)
  | .literal note value => by
      rw [compound, inlined, Rename.expr]
      rfl
  | .ident note name entity => by
      rw [compound, inlined, Rename.expr]
      rfl
  | .this note field => by
      rw [compound, inlined, Rename.expr]
      rfl
  | .call note callee args | .new note callee args => by
      rw [compound, operand_of_compound (compound_eq callee),
        list_of_fragments (fragments_eq args)]
      simp only [inlined, inlinedOperand, inlinedAll, Rename.expr, JavaScript.expr,
        list_eq_intercalate, request_bind, request_pure, bind_assoc, pure_bind]
      rfl
  | .typeOf note argument => by
      rw [compound, operand_of_compound (compound_eq argument)]
      simp only [inlined, inlinedOperand, Rename.expr, JavaScript.expr, request_bind,
        request_pure, bind_assoc, pure_bind]
  | .ternary note condition yes no => by
      rw [compound, operand_of_compound (compound_eq condition),
        operand_of_compound (compound_eq yes), operand_of_compound (compound_eq no)]
      simp only [inlined, inlinedOperand, Rename.expr, JavaScript.expr, request_bind,
        request_pure, bind_assoc, pure_bind]
  | .binary note op left right => by
      rw [compound, operand_of_compound (compound_eq left),
        operand_of_compound (compound_eq right)]
      simp only [inlined, inlinedOperand, Rename.expr, JavaScript.expr, request_bind,
        request_pure, bind_assoc, pure_bind]
  | .unary note op .before argument | .unary note op .behind argument => by
      rw [compound, operand_of_compound (compound_eq argument)]
      simp only [inlined, inlinedOperand, Rename.expr, JavaScript.expr, request_bind,
        request_pure, bind_assoc, pure_bind]
  | .array note elements => by
      rw [compound, list_of_fragments (fragments_eq elements)]
      simp only [inlined, inlinedAll, Rename.expr, JavaScript.expr, list_eq_intercalate,
        request_bind, request_pure, bind_assoc, pure_bind]
      rfl
  | .object note entries => by
      rw [compound, pairs_eq entries]
      simp only [inlined, inlinedPairs, Rename.expr, JavaScript.expr, pairs_eq_intercalate,
        request_bind, request_pure, bind_assoc, pure_bind]
  | .member note base index => by
      rw [compound, operand_of_compound (compound_eq base),
        fragment_of_compound (compound_eq index)]
      simp only [inlined, inlinedOperand, Rename.expr, JavaScript.expr, request_bind,
        request_pure, bind_assoc, pure_bind]
  | .property note base field => by
      rw [compound, operand_of_compound (compound_eq base)]
      simp only [inlined, inlinedOperand, Rename.expr, Naming.Rename.field, fieldName,
        JavaScript.expr, request_bind, request_pure, bind_assoc, pure_bind]

theorem fragments_eq : ∀ es : List Expr,
    (fragments es : Writing oracle (List String)) = request (inlinedAll es)
  | [] => by
      rw [fragments, inlinedAll, Rename.exprs]
      rfl
  | e :: others => by
      rw [fragments, fragment_of_compound (compound_eq e), fragments_eq others, inlinedAll_cons]
      rfl

theorem pairs_eq : ∀ entries : List Pair,
    (pairs entries : Writing oracle (List String)) = request (inlinedPairs entries)
  | [] => by
      rw [pairs, inlinedPairs, Rename.pairs]
      rfl
  | .mk pos key value canonical :: others => by
      have first : (fragment key : Writing oracle String) = request (inlined key) :=
        fragment_of_compound (compound_eq key)
      have second : (fragment value : Writing oracle String) = request (inlined value) :=
        fragment_of_compound (compound_eq value)
      have further : (pairs others : Writing oracle (List String)) = _ := pairs_eq others
      cases key <;>
        simp only [pairs, first, second, further, inlined, inlinedPairs, Rename.pairs, Rename.pair,
          JavaScript.pair, JavaScript.expr, List.map_cons, request_bind, request_pure, bind_assoc,
          pure_bind]

end

theorem fragment_eq (e : Expr) : (fragment e : Writing oracle String) = request (inlined e) :=
  fragment_of_compound (compound_eq e)

theorem list_eq (es : List Expr) (parameters : Bool) :
    (list es parameters : Writing oracle String) = request do
      let texts ← inlinedAll es
      return (if parameters then ", " else ",").intercalate texts :=
  list_of_fragments (fragments_eq es) parameters

theorem inlinedAll_parameters : ∀ params : List Parameter,
    (inlinedAll (params.map fun param => .ident param.note param.name param.entity) :
        Renaming oracle (List String)) = do
      let renamed ← Naming.Rename.parameters params
      return renamed.map Parameter.name
  | [] => rfl
  | param :: others => by
      rw [List.map_cons, inlinedAll_cons, inlinedAll_parameters others]
      simp only [inlined, Rename.expr, Naming.Rename.parameters, JavaScript.expr, List.map_cons,
        bind_assoc, pure_bind]

theorem parameters_eq (params : List Parameter) :
    (parameters params : Writing oracle String) = request do
      let renamed ← Naming.Rename.parameters params
      return JavaScript.params renamed := by
  rw [parameters, list_eq, inlinedAll_parameters, bind_assoc]
  rfl

theorem declarators_eq : ∀ entries : List (Binding × Option Expr),
    (declarators entries : Writing oracle (List String)) = request do
      let renamed ← Rename.declarators entries
      return renamed.map JavaScript.declarator
  | [] => rfl
  | (name, init) :: others => by
      have further : (declarators others : Writing oracle (List String)) = _ :=
        declarators_eq others
      cases init <;>
        simp only [declarators, further, binding, fragment_eq, inlined, Rename.declarators,
          Naming.Rename.binding, Rename.optional, JavaScript.declarator, JavaScript.initialValue,
          List.map_cons, request_bind, request_pure, bind_assoc, pure_bind]

/-! ## Statements and the class bodies around them -/

/-- The lines of a statement under its names. A function in the body of a class is a method. -/
def lines (member : Bool) (margin : Margin) (s : Statement) : Renaming oracle (List String) :=
  match member, s with
  | true, .function declared => do
    let renamed ← Rename.methods [declared]
    return JavaScript.methods margin renamed
  | _, s => do
    let renamed ← Rename.statement s
    return JavaScript.statement margin renamed

/-- A statement and whether it stands in the body of a class itself. -/
def Call.place (call : Call oracle) : Bool × Statement :=
  (call.before.modes.inClassBody, call.statement)

namespace Places

mutual

/-- A statement and the statements inside it, in the order in which they end, each with whether it
stands in the body of a class itself. -/
def statement (member : Bool) (s : Statement) : List (Bool × Statement) :=
  (match s with
    | .tryCatch _ body _ handler => block body ++ block handler
    | .classDef _ _ (some initialiser) _ members => constructor initialiser ++ methods members
    | .classDef _ _ none _ members => methods members
    | .function declared => function declared
    | .ifElse _ alternatives (some otherwise) => arms alternatives ++ block otherwise
    | .ifElse _ alternatives none => arms alternatives
    | .whileLoop _ _ body => block body
    | .forLoop _ _ _ _ _ body => block body
    | .forOf _ _ _ body => block body
    | .switch _ _ alternatives (some otherwise) => arms alternatives ++ block otherwise
    | .switch _ _ alternatives none => arms alternatives
    | _ => []) ++ [(member, s)]

/-- The statements in a sequence outside of class bodies. -/
def statements : List Statement → List (Bool × Statement)
  | [] => []
  | first :: others => statement false first ++ statements others

/-- The statements in a block. -/
def block : Block → List (Bool × Statement)
  | .mk _ body => statements body

/-- The statements inside a function. -/
def function : Function → List (Bool × Statement)
  | .mk _ _ _ body => block body

/-- The functions in the body of a class and the statements inside them. -/
def methods : List Function → List (Bool × Statement)
  | [] => []
  | first :: others => (function first ++ [(true, .function first)]) ++ methods others

/-- The statements in a constructor. -/
def constructor : Constructor → List (Bool × Statement)
  | .mk _ _ body => block body

/-- The statements in alternatives. -/
def arms : List Arm → List (Bool × Statement)
  | [] => []
  | .mk _ _ body :: others => block body ++ arms others

end

end Places

/-- A statement was begun with the modes for statements, and what became of the page is one line
or more: those of the statement under its names, at the level of the beginning. -/
structure Orderly (call : Call oracle) : Prop where
  standalone : call.before.modes.standalone = true
  elements : call.before.modes.formattingParameters = false
  written : ((lines call.place.1 call.before.margin call.statement).run call.before.names).1 ≠ []
  after : call.after =
    let named := (lines call.place.1 call.before.margin call.statement).run call.before.names
    { call.before with names := named.2, lines := call.before.lines ++ named.1 }

/-- The modes with which statements are begun. -/
structure Ready (member : Bool) (modes : Modes) : Prop where
  standalone : modes.standalone = true
  elements : modes.formattingParameters = false
  inClassBody : modes.inClassBody = member

/-- A printer after some lines were written under names. -/
def Printer.extend (g : Printer oracle) (named : List String × Table oracle)
    (calls : List (Call oracle)) : Printer oracle :=
  { g with names := named.2, lines := g.lines ++ named.1, calls := g.calls ++ calls }

theorem Printer.extend_extend (g : Printer oracle) (named named' : List String × Table oracle)
    (calls calls' : List (Call oracle)) :
    (g.extend named calls).extend named' calls' =
      g.extend (named.1 ++ named'.1, named'.2) (calls ++ calls') := by
  simp [extend]

/-- From the modes for statements, a computation asks for names and writes the lines that these
give at the current level, and changes nothing else. On the way it writes some statements. -/
def Writes (member : Bool) (writing : Writing oracle Unit)
    (text : Margin → Renaming oracle (List String)) (places : List (Bool × Statement)) : Prop :=
  ∀ g : Printer oracle, Ready member g.modes →
    ∃ calls, writing.run g = ((), g.extend ((text g.margin).run g.names) calls) ∧
      calls.map Call.place = places ∧ ∀ call ∈ calls, Orderly call

theorem statement_ne_nil (margin : Margin) : ∀ s : Statement, JavaScript.statement margin s ≠ []
  | .classDef _ _ (some _) _ _ | .classDef _ _ none _ _ | .ifElse _ _ (some _) | .ifElse _ _ none
  | .switch _ _ _ (some _) | .switch _ _ _ none | .returns _ (some _) | .returns _ none
  | .declare _ _ _ _ | .declareAll _ _ _ | .assign _ _ _ | .tryCatch _ _ _ _ | .whileLoop _ _ _
  | .forLoop _ _ _ _ _ _ | .forOf _ _ _ _ | .print _ _ | .breakLoop _ | .continueLoop _
  | .expr _ _ => by simp [JavaScript.statement]
  | .function (.mk _ _ _ _) => by simp [JavaScript.statement, JavaScript.function]

theorem lines_ne_nil (member : Bool) (margin : Margin) (s : Statement) (names : Table oracle) :
    ((lines member margin s).run names).1 ≠ [] := by
  unfold lines
  split
  · next declared =>
      obtain ⟨pos, name, params, body⟩ := declared
      intro empty
      cases empty
  · exact statement_ne_nil margin _

namespace Writes

variable {member : Bool} {writing further : Writing oracle Unit}
  {text text' : Margin → Renaming oracle (List String)} {places places' : List (Bool × Statement)}

theorem cast (writes : Writes member writing text places)
    (same : ∀ margin, text margin = text' margin) : Writes member writing text' places := by
  rwa [show text' = text from (funext same).symm]

theorem nothing : Writes member (pure () : Writing oracle Unit) (fun _ => pure []) [] := by
  intro g ready
  refine ⟨[], ?_, rfl, by simp⟩
  change ((), g) = ((), g.extend ([], g.names) [])
  simp [Printer.extend]

theorem single (text : String) : Writes member (emit text : Writing oracle Unit)
    (fun margin => pure [margin.line text]) [] := by
  intro g ready
  refine ⟨[], ?_, rfl, by simp⟩
  change ((), { g with lines := _ }) = ((), g.extend ([g.margin.line text], g.names) [])
  simp [Printer.extend]

theorem append (writes : Writes member writing text places)
    (writes' : Writes member further text' places') :
    Writes member (writing >>= fun _ => further)
      (fun margin => do return (← text margin) ++ (← text' margin)) (places ++ places') := by
  intro g ready
  obtain ⟨calls, run, listed, orderly⟩ := writes g ready
  obtain ⟨calls', run', listed', orderly'⟩ :=
    writes' (g.extend ((text g.margin).run g.names) calls) ready
  refine ⟨calls ++ calls', ?_, ?_, List.forall_mem_append.mpr ⟨orderly, orderly'⟩⟩
  · rw [StateT.run_bind, run]
    change further.run _ = _
    rw [run', Printer.extend_extend]
    rfl
  · rw [List.map_append, listed, listed']

theorem cons (line : String) (writes : Writes member writing text places) :
    Writes member (emit line >>= fun _ => writing)
      (fun margin => do return margin.line line :: (← text margin)) places :=
  ((single line).append writes).cast fun margin => by simp

theorem snoc (writes : Writes member writing text places) (line : String) :
    Writes member (writing >>= fun _ => emit line)
      (fun margin => do return (← text margin) ++ [margin.line line]) places := by
  rw [← List.append_nil places]
  exact (writes.append (single line)).cast fun margin => by simp

/-- Names are asked for before something is written. -/
theorem request {naming : Renaming oracle α} {next : α → Writing oracle Unit}
    {text : α → Margin → Renaming oracle (List String)}
    (writes : ∀ value, Writes member (next value) (text value) places) :
    Writes member (request naming >>= next) (fun margin => do text (← naming) margin) places := by
  intro g ready
  let named := naming.run g.names
  exact writes named.1 { g with names := named.2 } ready

/-- What is written one level deeper. -/
theorem deeper (writes : Writes member writing text places) :
    Writes member (do indent; writing; dedent) (fun margin => text margin.deeper) places := by
  intro g ready
  obtain ⟨calls, run, listed, orderly⟩ :=
    writes { g with modes := { g.modes with level := g.modes.level + 1 } }
      ⟨ready.standalone, ready.elements, ready.inClassBody⟩
  refine ⟨calls, ?_, listed, orderly⟩
  change (writing >>= fun _ => dedent).run _ = _
  rw [StateT.run_bind, run]
  rfl

/-- What is written inside or outside of the body of a class, with the mode put back. -/
theorem within {inner : Bool} (writes : Writes inner writing text places) :
    Writes member (do setInClassBody inner; writing; setInClassBody member) text places := by
  intro g ready
  obtain ⟨calls, run, listed, orderly⟩ :=
    writes { g with modes := { g.modes with inClassBody := inner } }
      ⟨ready.standalone, ready.elements, rfl⟩
  refine ⟨calls, ?_, listed, orderly⟩
  change (writing >>= fun _ => setInClassBody member).run _ = _
  rw [StateT.run_bind, run, ← ready.inClassBody]
  rfl

/-- What is written according to the state. -/
theorem reads {next : Printer oracle → Writing oracle Unit}
    (writes : ∀ g, Ready member g.modes → Writes member (next g) text places) :
    Writes member (get >>= next) text places :=
  fun g ready => writes g ready g ready

/-- A statement that is kept in the records. -/
theorem recorded {s : Statement}
    (writes : Writes member writing (fun margin => lines member margin s) places) :
    Writes member (recorded s writing) (fun margin => lines member margin s)
      (places ++ [(member, s)]) := by
  intro g ready
  obtain ⟨calls, run, listed, orderly⟩ := writes g ready
  let named := (lines member g.margin s : Renaming oracle _).run g.names
  let call : Call oracle := ⟨s, g.toPage, (g.extend named calls).toPage⟩
  have place : call.place = (member, s) := by rw [Call.place, ready.inClassBody]
  refine ⟨calls ++ [call], ?_, ?_, List.forall_mem_append.mpr ⟨orderly, ?_⟩⟩
  · have kept : (Printing.recorded s writing).run g =
        ((), { (writing.run g).2 with
          calls := (writing.run g).2.calls ++ [⟨s, g.toPage, (writing.run g).2.toPage⟩] }) := rfl
    rw [kept, run]
    simp [Printer.extend, call, named]
  · rw [List.map_append, List.map_singleton, listed, place]
  · rw [List.forall_mem_singleton]
    refine ⟨ready.standalone, ready.elements, ?_, ?_⟩
    · exact lines_ne_nil _ _ _ _
    · rw [place]
      rfl

/-- What is written in the body of a class. -/
theorem members (writes : Writes true writing text places) :
    Writes false
      (do
        let enclosing := (← get).modes.inClassBody
        setInClassBody true
        writing
        setInClassBody enclosing) text places := by
  refine .reads fun g ready => ?_
  rw [ready.inClassBody]
  exact writes.within

end Writes

/-- An expression in the place of a statement writes one line, whether it does so by itself or
comes back as a text. -/
theorem expression_run {g : Printer oracle} (standalone : g.modes.standalone = true) (e : Expr) :
    (do
      match ← expression e with
        | some text => emit (text ++ ";")
        | none => pure () : Writing oracle Unit).run g =
      (let named := (inlined e).run g.names
      ((), g.extend ([g.margin.line (named.1 ++ ";")], named.2) [])) := by
  have closed (named : String × Table oracle) :
      g.extend ([g.margin.line (named.1 ++ ";")], named.2) [] =
        { g with names := named.2, lines := g.lines ++ [g.margin.line (named.1 ++ ";")] } := by
    simp [Printer.extend]
  dsimp only
  rw [closed]
  obtain ⟨⟨width, names, lines, level, isStandalone, elements, inClassBody⟩, calls⟩ := g
  cases standalone
  cases e with
  | literal note value | ident note name entity =>
      rw [expression, inlined, Rename.expr]
      rfl
  | _ =>
      rw [expression, compound_eq]
      · rfl
      all_goals simp

theorem writes_expression (e : Expr) :
    Writes false
      (do
        match ← expression e with
          | some text => emit (text ++ ";")
          | none => pure () : Writing oracle Unit)
      (fun margin => do return [margin.line ((← inlined e) ++ ";")]) [] :=
  fun _ ready => ⟨[], expression_run ready.standalone e, rfl, by simp⟩

/-! ## Whole programs -/

mutual

theorem writes_statement : ∀ s : Statement,
    Writes false (statement s : Writing oracle Unit) (fun margin => lines false margin s)
      (Places.statement false s)
  | .declare pos constant name (some init) => by
      rw [statement, binding, fragment_eq]
      refine Writes.recorded (Writes.cast (.request fun _ => .request fun _ => .single _) ?_)
      simp [lines, inlined, Rename.statement, Naming.Rename.binding, Rename.optional,
        JavaScript.statement, JavaScript.declaration, JavaScript.declarator,
        JavaScript.initialValue, String.append_assoc]
  | .declare pos true name none | .declare pos false name none => by
      rw [statement, binding]
      refine Writes.recorded (Writes.cast (.request fun _ => .single _) ?_)
      simp [lines, Rename.statement, Naming.Rename.binding, Rename.optional, JavaScript.statement,
        JavaScript.declaration, JavaScript.declarator, JavaScript.initialValue,
        JavaScript.declarationWord, String.append_assoc]
  | .declareAll pos constant entries => by
      rw [statement, declarators_eq]
      refine Writes.recorded (Writes.cast (.request fun _ => .single _) ?_)
      simp [lines, Rename.statement, JavaScript.statement]
  | .assign pos target value => by
      rw [statement, fragment_eq, fragment_eq]
      refine Writes.recorded (Writes.cast (.request fun _ => .request fun _ => .single _) ?_)
      simp [lines, inlined, Rename.statement, JavaScript.statement]
  | .tryCatch pos body name handler => by
      rw [statement, binding]
      refine Writes.recorded (Writes.cast (.cons _ ((writes_indented body).append
        (.request fun _ => .cons _ ((writes_indented handler).snoc _)))) ?_)
      simp [lines, Rename.statement, Naming.Rename.binding, JavaScript.statement]
  | .classDef pos name (some initialiser) bodyPos members => by
      -- what stands between going deeper and coming back is one piece
      have inside := ((writes_constructor initialiser).append
        (writes_methods members).members).deeper.snoc "\x7d"
      simp only [bind_assoc] at inside
      rw [statement, binding]
      refine Writes.recorded (Writes.cast (.request fun _ => .cons _ inside) ?_)
      simp [lines, Rename.statement, Naming.Rename.binding, JavaScript.statement]
  | .classDef pos name none bodyPos members => by
      have inside := (writes_methods members).members.deeper.snoc "\x7d"
      simp only [bind_assoc] at inside
      rw [statement, binding]
      refine Writes.recorded (Writes.cast (.request fun _ => .cons _ inside) ?_)
      simp [lines, Rename.statement, Naming.Rename.binding, JavaScript.statement]
  | .function declared => by
      rw [statement]
      exact (writes_function false declared).recorded
  | .ifElse pos alternatives (some otherwise) => by
      rw [statement]
      refine Writes.recorded (Writes.cast ((writes_ifArms true alternatives).append
        (.cons _ ((writes_indented otherwise).snoc _))) ?_)
      simp [lines, Rename.statement, JavaScript.statement]
  | .ifElse pos alternatives none => by
      rw [statement]
      refine Writes.recorded (Writes.cast ((writes_ifArms true alternatives).snoc _) ?_)
      simp [lines, Rename.statement, JavaScript.statement]
  | .whileLoop pos condition body => by
      rw [statement, fragment_eq]
      refine Writes.recorded (Writes.cast (.request fun _ =>
        .cons _ ((writes_indented body).snoc _)) ?_)
      simp [lines, inlined, Rename.statement, JavaScript.statement]
  | .forLoop pos name init condition step body => by
      rw [statement, binding, fragment_eq, fragment_eq, fragment_eq]
      refine Writes.recorded (Writes.cast (.request fun _ => .request fun _ => .request fun _ =>
        .request fun _ => .cons _ ((writes_indented body).snoc _)) ?_)
      simp [lines, inlined, Rename.statement, Naming.Rename.binding, JavaScript.statement]
  | .forOf pos name iterable body => by
      rw [statement, binding, fragment_eq]
      refine Writes.recorded (Writes.cast (.request fun _ => .request fun _ =>
        .cons _ ((writes_indented body).snoc _)) ?_)
      simp [lines, inlined, Rename.statement, Naming.Rename.binding, JavaScript.statement]
  | .switch pos selector alternatives (some otherwise) => by
      have inside := ((writes_cases alternatives).append
        (.cons "default:" (writes_indented otherwise))).deeper.snoc "\x7d"
      simp only [bind_assoc] at inside
      rw [statement, fragment_eq]
      refine Writes.recorded (Writes.cast (.request fun _ => .cons _ inside) ?_)
      simp [lines, inlined, Rename.statement, JavaScript.statement]
  | .switch pos selector alternatives none => by
      have inside := (writes_cases alternatives).deeper.snoc "\x7d"
      simp only [bind_assoc] at inside
      rw [statement, fragment_eq]
      refine Writes.recorded (Writes.cast (.request fun _ => .cons _ inside) ?_)
      simp [lines, inlined, Rename.statement, JavaScript.statement]
  | .returns pos (some value) => by
      rw [statement, fragment_eq]
      refine Writes.recorded (Writes.cast (.request fun _ => .single _) ?_)
      simp [lines, inlined, Rename.statement, Rename.optional, JavaScript.statement]
  | .returns pos none => by
      rw [statement]
      refine Writes.recorded (Writes.cast (.single _) ?_)
      simp [lines, Rename.statement, Rename.optional, JavaScript.statement]
  | .print pos argument => by
      rw [statement, fragment_eq]
      refine Writes.recorded (Writes.cast (.request fun _ => .single _) ?_)
      simp [lines, inlined, Rename.statement, JavaScript.statement]
  | .breakLoop pos | .continueLoop pos => by
      rw [statement]
      refine Writes.recorded (Writes.cast (.single _) ?_)
      simp [lines, Rename.statement, JavaScript.statement]
  | .expr pos e => by
      rw [statement]
      refine Writes.recorded ((writes_expression e).cast fun margin => ?_)
      simp [lines, inlined, Rename.statement, JavaScript.statement]

theorem writes_statements : ∀ body : List Statement,
    Writes false (statements body : Writing oracle Unit) (fun margin => do
        let renamed ← Rename.statements body
        return JavaScript.statements margin renamed)
      (Places.statements body)
  | [] => .nothing
  | first :: others => by
      rw [statements, Places.statements]
      refine ((writes_statement first).append (writes_statements others)).cast fun margin => ?_
      simp [lines, Rename.statements, JavaScript.statements]

theorem writes_indented : ∀ body : Block,
    Writes false (indented body : Writing oracle Unit) (fun margin => do
        let renamed ← Rename.block body
        return JavaScript.block margin.deeper renamed)
      (Places.block body)
  | .mk pos body => by
      rw [indented, Places.block]
      refine (writes_statements body).deeper.cast fun margin => ?_
      simp [Rename.block, JavaScript.block]

theorem writes_function (member : Bool) : ∀ declared : Function,
    Writes member (function declared : Writing oracle Unit)
      (fun margin => lines member margin (.function declared)) (Places.function declared)
  | .mk pos name params body => by
      rw [function]
      refine .reads fun g ready => ?_
      rw [ready.inClassBody]
      have inside (member : Bool) :=
        (@Writes.within _ member _ _ _ _ (writes_indented body)).snoc "\x7d"
      simp only [bind_assoc] at inside
      cases member with
      | true =>
          simp only [if_true, parameters_eq]
          refine Writes.cast (.request fun _ => .request fun _ => .cons _ (inside true)) ?_
          simp [lines, Rename.methods, Naming.Rename.method, JavaScript.methods,
            JavaScript.function]
      | false =>
          simp only [Bool.false_eq_true, if_false, parameters_eq, binding]
          refine Writes.cast (.request fun _ => .request fun _ => .cons _ (inside false)) ?_
          simp [lines, Rename.statement, Naming.Rename.binding, JavaScript.statement,
            JavaScript.function]

theorem writes_methods : ∀ members : List Function,
    Writes true (methods members : Writing oracle Unit) (fun margin => do
        let renamed ← Rename.methods members
        return JavaScript.methods margin renamed)
      (Places.methods members)
  | [] => .nothing
  | first :: others => by
      rw [methods, Places.methods]
      refine ((writes_function true first).recorded.append (writes_methods others)).cast fun _ => ?_
      obtain ⟨pos, name, params, body⟩ := first
      simp [lines, Rename.methods, JavaScript.methods]

theorem writes_constructor : ∀ initialiser : Constructor,
    Writes false (constructor initialiser : Writing oracle Unit) (fun margin => do
        let renamed ← Rename.constructor initialiser
        return JavaScript.constructor margin renamed)
      (Places.constructor initialiser)
  | .mk pos params body => by
      rw [constructor, parameters_eq, Places.constructor]
      refine Writes.cast (.request fun _ => .cons _ ((writes_indented body).snoc _)) ?_
      simp [Rename.constructor, JavaScript.constructor]

theorem writes_cases : ∀ alternatives : List Arm,
    Writes false (cases alternatives : Writing oracle Unit) (fun margin => do
        let renamed ← Rename.arms alternatives
        return JavaScript.switchArms margin renamed)
      (Places.arms alternatives)
  | [] => .nothing
  | .mk pos test body :: others => by
      rw [cases, fragment_eq, Places.arms]
      refine Writes.cast (.request fun _ =>
        .cons _ ((writes_indented body).append (writes_cases others))) ?_
      simp [inlined, Rename.arms, JavaScript.switchArms, JavaScript.switchArm]

theorem writes_ifArms (first : Bool) : ∀ alternatives : List Arm,
    Writes false (ifArms first alternatives : Writing oracle Unit) (fun margin => do
        let renamed ← Rename.arms alternatives
        return JavaScript.ifArms margin (if first then "if (" else "\x7d else if (") renamed)
      (Places.arms alternatives)
  | [] => .nothing
  | .mk pos condition body :: others => by
      rw [ifArms, fragment_eq, Places.arms]
      cases first with
      | true | false =>
          refine Writes.cast (.request fun _ =>
            .cons _ ((writes_indented body).append (writes_ifArms false others))) ?_
          simp [inlined, Rename.arms, JavaScript.ifArms, JavaScript.ifArm]

end

end Qalam.Printing

namespace Qalam

open Printing

/-- A printer writes what renaming and laying out a program apart from each other give. Every
statement is written once, as a method just where it stands in the body of a class; it is begun
with the modes for statements, leaves all modes as they were and has written one line or more. An
expression inside a line only asks for names, at any depth and from any state, and in the place of
a statement it is written as one line. Arguments and parameters are divided by commas with a blank
behind them, and elements by commas alone. -/
theorem Program.printed_eq_generate (program : Program) (oracle : Naming.Oracle) (width : Nat) :
    (program.printer oracle width).calls.map Call.place = Places.statements program.statements ∧
    (∀ call ∈ (program.printer oracle width).calls, Orderly call) ∧
    (∀ (e : Expr) (g : Printer oracle),
      (fragment e).run g =
        (let named := (Naming.Rename.expr e).run g.names
        (JavaScript.expr named.1, { g with names := named.2 }))) ∧
    (∀ (es : List Expr) (parameters : Bool) (g : Printer oracle),
      (list es parameters).run g =
        (let named := (Naming.Rename.exprs es).run g.names
        ((if parameters then ", " else ",").intercalate (named.1.map JavaScript.expr),
          { g with names := named.2 }))) ∧
    (∀ (pos : Position) (e : Expr) (g : Printer oracle), g.modes.standalone = true →
      ((statement (.expr pos e)).run g).2.toPage =
        (let written := (fragment e).run g
        { written.2.toPage with lines := g.lines ++ [g.margin.line (written.1 ++ ";")] })) ∧
    program.printed oracle width = program.generate oracle width := by
  obtain ⟨calls, run, listed, orderly⟩ :=
    writes_statements program.statements (Printer.initial oracle width) ⟨rfl, rfl, rfl⟩
  refine ⟨?_, ?_, ?_, ?_, ?_, ?_⟩
  · rw [printer, run]
    exact listed
  · rw [printer, run]
    exact orderly
  · intro e g
    rw [fragment_eq]
    rfl
  · intro es parameters g
    rw [list_eq]
    rfl
  · intro pos e g standalone
    have kept : ((statement (.expr pos e)).run g).2.toPage =
        ((do
          match ← expression e with
            | some text => emit (text ++ ";")
            | none => pure () : Writing oracle Unit).run g).2.toPage := by
      rw [statement]
      rfl
    rw [kept, expression_run standalone, fragment_eq]
    rfl
  · rw [printed, printer, run]
    rfl

/-- A call with an array among its arguments. -/
def nestedCall : Expr :=
  .call (.at ⟨1, 1⟩) (.ident (.at ⟨1, 1⟩) "f" none)
    [.array (.at ⟨1, 3⟩) [.literal (.at ⟨1, 4⟩) (.int 1), .literal (.at ⟨1, 6⟩) (.int 2)],
      .literal (.at ⟨1, 9⟩) (.int 3)]

theorem Program.printed_eq_generate_nested :
    ((statement (.expr ⟨1, 1⟩ nestedCall)).run (.initial .silent 2)).2.toPage =
      (let written := (fragment nestedCall).run (.initial .silent 2)
      { written.2.toPage with lines := [JavaScript.Margin.line ⟨2, 0⟩ (written.1 ++ ";")] }) ∧
    Program.printed ⟨[.expr ⟨1, 1⟩ nestedCall]⟩ .silent 2 = "var_1([1,2], 3);" := by
  obtain ⟨-, -, -, -, single, whole⟩ :=
    Program.printed_eq_generate ⟨[.expr ⟨1, 1⟩ nestedCall]⟩ .silent 2
  refine ⟨single ⟨1, 1⟩ nestedCall (.initial .silent 2) rfl, ?_⟩
  rw [whole]
  decide +kernel

end Qalam
