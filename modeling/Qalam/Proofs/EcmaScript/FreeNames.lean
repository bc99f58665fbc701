/-
# Free names of generated programs

Analysis declares everything that a program mentions, the methods of a class as well as its other
functions. The text of a class does not declare its methods: they are members, which are reached
through an object. So a method that is mentioned by its name alone is free in the text, since no
other entity can have its name, while every other entity is declared around each of its names.

The declarations of the text are counted against those of analysis: the methods are just the
difference.
-/

import Qalam.Proofs.EcmaScript.Preservation

namespace Qalam.EcmaScript

open Scoping (Event Mark declaredEntities)
open Scoping.Walk (framed binding)

/-! ## Declarations of analysis and of the text -/

/-- How often an entity is declared. -/
def declarations (id : EntityId) (events : List (Event Mark)) : Nat :=
  (declaredEntities events).count (some id)

section

variable {id : EntityId}

@[simp]
theorem declarations_nil : declarations id [] = 0 := rfl

@[simp]
theorem declarations_append (first second : List (Event Mark)) :
    declarations id (first ++ second) = declarations id first + declarations id second := by
  rw [declarations, Scoping.declaredEntities_append, List.count_append]
  rfl

@[simp]
theorem declarations_framed (events : List (Event Mark)) :
    declarations id (framed events) = declarations id events := by
  have closed : declarations id [.closes] = 0 := rfl
  have opened : declarations id (framed events) = declarations id (events ++ [.closes]) := rfl
  rw [opened, declarations_append, closed, Nat.add_zero]

@[simp]
theorem declarations_mention (name : String) (mark : Mark) (others : List (Event Mark)) :
    declarations id (.mentions name mark :: others) = declarations id others := rfl

@[simp]
theorem declarations_binding (name : Binding) (others : List (Event Mark)) :
    declarations id (binding name :: others) =
      name.entity.toList.count id + declarations id others := by
  obtain ⟨spelling, pos, entity⟩ := name
  cases entity with
  | none => simp [declarations, declaredEntities, binding]
  | some other =>
      by_cases same : other = id
      · simp [declarations, declaredEntities, binding, same, Nat.add_comm]
      · simp [declarations, declaredEntities, binding, same]

theorem declarations_constant (pos : Position) (value : Literal) :
    declarations id (Layout.constant pos value) = 0 := by
  unfold Layout.constant
  split <;> rfl

mutual

/-- Expressions declare nothing. -/
theorem declarations_expr : ∀ e : Expr,
    declarations id (Scoping.Walk.expr e) = 0 ∧ declarations id (Layout.expr e) = 0
  | .literal note value => ⟨rfl, declarations_constant note.pos value⟩
  | .ident .. | .this .. => ⟨rfl, rfl⟩
  | .call _ base args | .new _ base args => by
      simp [Scoping.Walk.expr, Layout.expr, declarations_expr base, declarations_exprs args]
  | .typeOf _ operand | .unary _ _ _ operand | .property _ operand _ => by
      simp [Scoping.Walk.expr, Layout.expr, declarations_expr operand]
  | .ternary _ condition yes no => by
      simp [Scoping.Walk.expr, Layout.expr, declarations_expr condition, declarations_expr yes,
        declarations_expr no]
  | .binary _ _ left right | .member _ left right => by
      simp [Scoping.Walk.expr, Layout.expr, declarations_expr left, declarations_expr right]
  | .array _ elements => by
      simp [Scoping.Walk.expr, Layout.expr, declarations_exprs elements]
  | .object _ entries => by
      simp [Scoping.Walk.expr, Layout.expr, declarations_pairs entries]

theorem declarations_exprs : ∀ es : List Expr,
    declarations id (Scoping.Walk.exprs es) = 0 ∧ declarations id (Layout.exprs es) = 0
  | [] => ⟨rfl, rfl⟩
  | e :: others => by
      simp [Scoping.Walk.exprs, Layout.exprs, declarations_expr e, declarations_exprs others]

theorem declarations_pair : ∀ entry : Pair,
    declarations id (Scoping.Walk.pair entry) = 0 ∧ declarations id (Layout.pair entry) = 0
  | .mk _ key value _ => by
      rw [Quiet.walk_pair, Layout.pair_eq]
      by_cases plain : isPlainKey key = true
      · simp [plain, declarations_expr value]
      · simp [plain, declarations_expr key, declarations_expr value]

theorem declarations_pairs : ∀ entries : List Pair,
    declarations id (Scoping.Walk.pairs entries) = 0 ∧ declarations id (Layout.pairs entries) = 0
  | [] => ⟨rfl, rfl⟩
  | entry :: others => by
      simp [Scoping.Walk.pairs, Layout.pairs, declarations_pair entry, declarations_pairs others]

end

theorem declarations_declarator (entry : Binding × Option Expr) :
    declarations id (Scoping.Walk.declarator entry) = declarations id (Layout.declarator entry) := by
  obtain ⟨name, value⟩ := entry
  cases value with
  | none => simp [Scoping.Walk.declarator, Scoping.Walk.optional, Layout.declarator]
  | some value =>
      simp [Scoping.Walk.declarator, Scoping.Walk.optional, Layout.declarator,
        declarations_expr value]

theorem declarations_declarators (entries : List (Binding × Option Expr)) :
    declarations id (entries.flatMap Scoping.Walk.declarator) =
      declarations id (entries.flatMap Layout.declarator) := by
  induction entries with
  | nil => rfl
  | cons entry others ih => simp [declarations_declarator entry, ih]

theorem declarations_declaration (constant : Bool) (name : Binding) (init : Option Expr) :
    declarations id (Scoping.Walk.declarator (name, init)) =
      declarations id (Layout.declaration constant name init) := by
  unfold Layout.declaration
  split
  · rename_i bare
    cases init with
    | some value => simp at bare
    | none => rfl
  · exact declarations_declarator (name, init)

mutual

/-- The text declares what analysis declares, except for the methods of classes. -/
theorem declarations_statement : ∀ s : Statement,
    declarations id (Scoping.Walk.statement s) =
      declarations id (Layout.statement s) + (Methods.statement s).count id
  | .declare _ constant name init => declarations_declaration constant name init
  | .declareAll _ _ entries => declarations_declarators entries
  | .assign _ target value => by
      simp [Scoping.Walk.statement, Layout.statement, Methods.statement, declarations_expr target,
        declarations_expr value]
  | .tryCatch _ body name handler => by
      simp [Scoping.Walk.statement, Layout.statement, Methods.statement, declarations_block body,
        declarations_block handler]
      omega
  | .classDef _ name (some initialiser) _ members => by
      simp [Scoping.Walk.statement, Layout.statement, Methods.statement,
        declarations_constructor initialiser, declarations_functions members]
      omega
  | .classDef _ name none _ members => by
      simp [Scoping.Walk.statement, Layout.statement, Methods.statement,
        declarations_functions members]
      omega
  | .function (.mk _ name params body) => by
      simp [Scoping.Walk.statement, Scoping.Walk.function, Layout.statement, Methods.statement,
        declarations_block body]
      omega
  | .ifElse _ alternatives (some otherwise) => by
      simp [Scoping.Walk.statement, Layout.statement, Methods.statement,
        declarations_arms alternatives, declarations_block otherwise]
      omega
  | .ifElse _ alternatives none => by
      simp [Scoping.Walk.statement, Layout.statement, Methods.statement,
        declarations_arms alternatives]
  | .whileLoop _ condition body => by
      simp [Scoping.Walk.statement, Layout.statement, Methods.statement,
        declarations_expr condition, declarations_block body]
  | .forLoop _ name init condition step body => by
      simp [Scoping.Walk.statement, Layout.statement, Methods.statement, declarations_expr init,
        declarations_expr condition, declarations_expr step, declarations_block body]
      omega
  | .forOf _ name iterable body => by
      simp [Scoping.Walk.statement, Layout.statement, Methods.statement,
        declarations_expr iterable, declarations_block body]
      omega
  | .switch _ selector alternatives (some otherwise) => by
      simp [Scoping.Walk.statement, Layout.statement, Methods.statement,
        declarations_expr selector, declarations_cases alternatives, declarations_block otherwise]
      omega
  | .switch _ selector alternatives none => by
      simp [Scoping.Walk.statement, Layout.statement, Methods.statement,
        declarations_expr selector, declarations_cases alternatives]
  | .returns _ (some value) => by
      simp [Scoping.Walk.statement, Scoping.Walk.optional, Layout.statement, Methods.statement,
        declarations_expr value]
  | .returns _ none | .breakLoop _ | .continueLoop _ => rfl
  | .print _ e | .expr _ e => by
      simp [Scoping.Walk.statement, Layout.statement, Methods.statement, declarations_expr e]

theorem declarations_statements : ∀ body : List Statement,
    declarations id (Scoping.Walk.statements body) =
      declarations id (Layout.statements body) + (Methods.statements body).count id
  | [] => rfl
  | first :: others => by
      simp [Scoping.Walk.statements, Layout.statements, Methods.statements,
        declarations_statement first, declarations_statements others]
      omega

theorem declarations_block : ∀ body : Block,
    declarations id (Scoping.Walk.block body) =
      declarations id (Layout.block body) + (Methods.block body).count id
  | .mk _ body => declarations_statements body

theorem declarations_functions : ∀ members : List Function,
    declarations id (Scoping.Walk.functions members) =
      declarations id (Layout.methods members) + (Methods.functions members).count id
  | [] => rfl
  | .mk _ name params body :: others => by
      simp [Scoping.Walk.functions, Scoping.Walk.function, Layout.methods, Methods.functions,
        declarations_block body, declarations_functions others]
      omega

theorem declarations_constructor : ∀ initialiser : Constructor,
    declarations id (Scoping.Walk.constructor initialiser) =
      declarations id (Layout.constructor initialiser) +
        (Methods.constructor initialiser).count id
  | .mk _ params body => by
      simp [Scoping.Walk.constructor, Layout.constructor, Methods.constructor,
        declarations_block body]
      omega

theorem declarations_arms : ∀ alternatives : List Arm,
    declarations id (Scoping.Walk.arms alternatives) =
      declarations id (Layout.arms alternatives) + (Methods.arms alternatives).count id
  | [] => rfl
  | .mk _ test body :: others => by
      simp [Scoping.Walk.arms, Scoping.Walk.arm, Layout.arms, Methods.arms,
        declarations_expr test, declarations_block body, declarations_arms others]
      omega

theorem declarations_cases : ∀ alternatives : List Arm,
    declarations id (Scoping.Walk.arms alternatives) =
      declarations id (Layout.cases alternatives) + (Methods.arms alternatives).count id
  | [] => rfl
  | .mk _ test body :: others => by
      simp [Scoping.Walk.arms, Scoping.Walk.arm, Layout.cases, Methods.arms,
        declarations_expr test, declarations_block body, declarations_cases others]
      omega

end

/-- What is declared at least once is counted. -/
theorem declarations_pos {events : List (Event Mark)} {name : String} {mark : Mark}
    (listed : .declares name mark ∈ events) (entity : mark.entity = some id) :
    0 < declarations id events := by
  obtain ⟨before, after, rfl⟩ := List.append_of_mem listed
  rw [declarations, Scoping.declaredEntities_append, declaredEntities, entity, List.count_append,
    List.count_cons_self]
  omega

end

/-- The text declares none of the methods. -/
theorem not_declares_method {body : List Statement} {id : EntityId}
    (distinct : (declaredEntities (Scoping.Walk.statements body)).Nodup)
    (isMethod : id ∈ Methods.statements body) {name : String} {mark : Mark}
    (entity : mark.entity = some id) : .declares name mark ∉ Layout.statements body := by
  intro listed
  have once : declarations id (Scoping.Walk.statements body) ≤ 1 :=
    List.nodup_iff_count_le_one.mp distinct (some id)
  rw [declarations_statements] at once
  have counted := declarations_pos listed entity
  have method := List.count_pos_iff.mpr isMethod
  omega

end Qalam.EcmaScript

namespace Qalam

open EcmaScript
open Scoping (Event)

/-- In the layout of an accepted program, under proper names of its entities, a mentioned entity is
declared around the place just if it is no method. A method has a name that is declared nowhere. -/
theorem Program.mention_spec {program : Program} {bound : BoundProgram}
    (binds : program.bind = .ok bound) {names : Naming.Names} (proper : names.Proper)
    {before later : List (Event Scoping.Mark)} {name : String} {mark : Scoping.Mark}
    {id : EntityId} (mentioned : bound.program.layout.map (spelled names) =
      before ++ .mentions name mark :: later) (entity : mark.entity = some id) :
    (id ∉ bound.program.methods → ∃ site, site.entity = some id ∧
      ResolvesTo (bound.program.layout.map (spelled names)) before name site) ∧
    (id ∈ bound.program.methods →
      ∀ site, .declares name site ∉ bound.program.layout.map (spelled names)) := by
  constructor
  · intro free
    have occurs : Occurs (bound.program.layout.map (spelled names)) before name mark :=
      ⟨_, later, .inr rfl, mentioned⟩
    obtain ⟨site, same, resolves⟩ :=
      (Program.layout_bindsAs binds proper).resolved occurs entity free
    exact ⟨site, same, (resolves site).mpr rfl⟩
  · intro isMethod site listed
    obtain ⟨declared, inReach⟩ := Program.layout_scoped binds
    have listed' : .mentions name mark ∈ bound.program.layout.map (spelled names) := by
      rw [mentioned]
      simp
    have same := name_of_mem listed' (.inr rfl) entity
    have owner := entity_of_declares proper inReach same listed
    obtain ⟨spelling, declares⟩ := exists_of_mem_spelled listed
    exact not_declares_method (Program.events_distinct binds) isMethod owner declares

/-- A text of an accepted program has a declaration around every name that it mentions for an
entity, unless the entity is a method: just then the name is free, and declared nowhere at all. -/
theorem Program.generate_declares {source : List Token} {program : Program} {bound : BoundProgram}
    (parsed : Program.ofTokens source = .ok program) (binds : program.bind = .ok bound)
    (oracle : Naming.Oracle) (indent : Nat) :
    ∃ ts, lex (bound.program.generate oracle indent) = some ts ∧
      scopes ts = some (Layout.bare (bound.program.rename oracle).layout) ∧
      ∀ before name mark later id,
        (bound.program.rename oracle).layout = before ++ .mentions name mark :: later →
        mark.entity = some id →
        ((∃ site, site.entity = some id ∧
          ResolvesTo (bound.program.rename oracle).layout before name site) ↔
            id ∉ bound.program.methods) ∧
        (id ∈ bound.program.methods →
          ∀ site, .declares name site ∉ (bound.program.rename oracle).layout) := by
  obtain ⟨names, proper, same, ts, lexed, scanned⟩ :=
    Program.exists_layout parsed binds oracle indent
  refine ⟨ts, lexed, scanned, ?_⟩
  rw [same]
  intro before name mark later id mentioned entity
  obtain ⟨declared, undeclared⟩ := Program.mention_spec binds proper mentioned entity
  refine ⟨⟨?_, declared⟩, undeclared⟩
  rintro ⟨site, -, inner, frame, outer, -, found, -⟩ isMethod
  exact undeclared isMethod site (DeclaredIn.mem found)

/-- The tokens of `class A \x7b function m(p) \x7b m(p); \x7d \x7d`. -/
def recursiveTokens : List Token :=
  [⟨.keyword .classKw, ⟨1, 1⟩⟩, ⟨.ident "A", ⟨1, 2⟩⟩, ⟨.symbol .lbrace, ⟨1, 3⟩⟩,
    ⟨.keyword .functionKw, ⟨2, 1⟩⟩, ⟨.ident "m", ⟨2, 2⟩⟩, ⟨.symbol .lparen, ⟨2, 3⟩⟩,
    ⟨.ident "p", ⟨2, 4⟩⟩, ⟨.symbol .rparen, ⟨2, 5⟩⟩, ⟨.symbol .lbrace, ⟨2, 6⟩⟩,
    ⟨.ident "m", ⟨3, 1⟩⟩, ⟨.symbol .lparen, ⟨3, 2⟩⟩, ⟨.ident "p", ⟨3, 3⟩⟩,
    ⟨.symbol .rparen, ⟨3, 4⟩⟩, ⟨.symbol .semi, ⟨3, 5⟩⟩, ⟨.symbol .rbrace, ⟨4, 1⟩⟩,
    ⟨.symbol .rbrace, ⟨5, 1⟩⟩, ⟨.eof, ⟨5, 2⟩⟩]

/-- A class with a method that calls itself by its name, before and after binding. -/
def recursiveProgram (tag : Tag → Option Tag) (entity : Nat → Option EntityId) : Program :=
  ⟨[.classDef ⟨1, 1⟩ ⟨"A", ⟨1, 2⟩, entity 0⟩ none ⟨1, 3⟩
      [.mk ⟨2, 1⟩ ⟨"m", ⟨2, 2⟩, entity 1⟩ [⟨"p", ⟨⟨2, 4⟩, tag .any⟩, entity 2⟩] (.mk ⟨2, 6⟩
        [.expr ⟨3, 1⟩ (.call ⟨⟨3, 1⟩, tag .any⟩ (.ident ⟨⟨3, 1⟩, tag .function⟩ "m" (entity 1))
          [.ident ⟨⟨3, 3⟩, tag .any⟩ "p" (entity 2)])])]]⟩

/-- The program after binding. -/
def recursiveBound : BoundProgram :=
  ⟨recursiveProgram some fun index => some ⟨index⟩,
    ⟨#[.variable "A" false .classRef, .function "m", .variable "p" false .any]⟩⟩

theorem recursiveProgram_parsed : Program.ofTokens recursiveTokens =
    .ok (recursiveProgram (fun _ => none) fun _ => none) := rfl

theorem recursiveProgram_binds :
    (recursiveProgram (fun _ => none) fun _ => none).bind = .ok recursiveBound := rfl

theorem Program.generate_declares_recursive :
    ∃ ts, lex (recursiveBound.program.generate .silent 2) = some ts ∧
      scopes ts = some (Layout.bare (recursiveBound.program.rename .silent).layout) ∧
      ∀ before name mark later id,
        (recursiveBound.program.rename .silent).layout = before ++ .mentions name mark :: later →
        mark.entity = some id →
        ((∃ site, site.entity = some id ∧
          ResolvesTo (recursiveBound.program.rename .silent).layout before name site) ↔
            id ∉ recursiveBound.program.methods) ∧
        (id ∈ recursiveBound.program.methods →
          ∀ site, .declares name site ∉ (recursiveBound.program.rename .silent).layout) :=
  Program.generate_declares recursiveProgram_parsed recursiveProgram_binds .silent 2

/-- The method of the class is accepted as a name, but the text has no declaration for it. -/
theorem Program.method_name_free :
    Program.ofTokens recursiveTokens = .ok (recursiveProgram (fun _ => none) fun _ => none) ∧
      (recursiveProgram (fun _ => none) fun _ => none).bind = .ok recursiveBound ∧
      ¬ ∀ before name mark later id,
        (recursiveBound.program.rename .silent).layout = before ++ .mentions name mark :: later →
        mark.entity = some id →
        ∃ site, site.entity = some id ∧
          ResolvesTo (recursiveBound.program.rename .silent).layout before name site := by
  refine ⟨recursiveProgram_parsed, recursiveProgram_binds, fun always => ?_⟩
  obtain ⟨names, proper, same, -⟩ :=
    Program.exists_layout recursiveProgram_parsed recursiveProgram_binds .silent 2
  rw [same] at always
  have split : recursiveBound.program.layout.map (spelled names) =
      ([.declares (names.entity ⟨0⟩) ⟨⟨1, 2⟩, some ⟨0⟩⟩, .opens, .opens,
        .declares (names.entity ⟨2⟩) ⟨⟨2, 4⟩, some ⟨2⟩⟩, .opens] : List (Event Scoping.Mark)) ++
      Event.mentions (names.entity ⟨1⟩) ⟨⟨3, 1⟩, some ⟨1⟩⟩ ::
      [.mentions (names.entity ⟨2⟩) ⟨⟨3, 3⟩, some ⟨2⟩⟩, .closes, .closes, .closes] := rfl
  obtain ⟨site, -, inner, frame, outer, -, found, -⟩ := always _ _ _ _ ⟨1⟩ split rfl
  have isMethod : (⟨1⟩ : EntityId) ∈ recursiveBound.program.methods := List.mem_cons_self
  exact (Program.mention_spec recursiveProgram_binds proper split rfl).2 isMethod site
    (DeclaredIn.mem found)

example : recursiveBound.program.generate .silent 2 =
    "class var_1 \x7b\n  var_2(var_3) \x7b\n    var_2(var_3);\n  \x7d\n\x7d" := by
  decide +kernel

end Qalam
