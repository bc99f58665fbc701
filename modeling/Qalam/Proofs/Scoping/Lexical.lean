/-
# Analysis resolves names by lexical scoping

Every construct of the language is traced: the actions of analysis read the events that the walk
over the construct gives. Together with the law for ledgers this says that an accepted program
is bound lexically, and that a refusal because of a name points to a name that lexical scoping
refuses as well.
-/

import Qalam.Proofs.Scoping.Trace

namespace Qalam.Scoping

open Analysis (Context)

/-- A scope and its ledger find the same entity. -/
theorem find?_ledgerOf (context : Context) (name : String) :
    (ledgerOf context).find? name = context.scope.resolve? name := by
  simp only [ledgerOf, Ledger.find?, Scope.resolve?, List.findSome?_map]
  rfl

theorem findInner?_ledgerOf (context : Context) (name : String) :
    (ledgerOf context).findInner? name = context.scope.top.get? name := rfl

theorem leave_ledgerOf (context : Context) :
    (ledgerOf context).leave = ledgerOf { context with scope := context.scope.exit } := by
  obtain ⟨⟨top, below⟩, entities⟩ := context
  cases below <;> rfl

namespace Traces

theorem enter (adjust : Surroundings → Surroundings) :
    Traces (Analysis.enter adjust) [.opens] fun _ bound => bound = [.opens] :=
  fun _ => ⟨[.opens], rfl, rfl⟩

theorem exit : Traces Analysis.exit [.closes] fun _ bound => bound = [.closes] := by
  intro context
  refine ⟨[.closes], ?_, rfl⟩
  simp [Ledger.readAll, Ledger.read, leave_ledgerOf]

theorem declare (pos : Position) (entity : Entity) (before : Option EntityId) :
    Traces (Analysis.declare pos entity) [.declares entity.name ⟨pos, before⟩]
      fun id bound => bound = [.declares entity.name ⟨pos, some id⟩] := by
  intro context
  have inner := findInner?_ledgerOf context entity.name
  rw [run_declare, Scope.declare?]
  cases taken : context.scope.top.get? entity.name with
  | some id =>
      rw [taken] at inner
      exact ⟨[], ⟨pos, before⟩, [], [], _, rfl, rfl, rfl, by rw [inner]; rfl⟩
  | none =>
      rw [taken] at inner
      refine ⟨[.declares entity.name ⟨pos, some ⟨context.entities.size⟩⟩], ?_, rfl⟩
      simp only [Ledger.readAll, Ledger.read, inner, Option.isSome_none, Bool.false_eq_true,
        if_false]
      simp [Ledger.add, ledgerOf, Scope.frames, Entities.alloc, Entities.size]

theorem declareBinding (name : Binding) {entity : Entity} (same : entity.name = name.name) :
    Traces (Analysis.declareBinding name entity) [Walk.binding name]
      fun bound events => events = [Walk.binding bound] := by
  have declared := declare name.pos entity name.entity
  rw [same] at declared
  exact declared.map fun id bound here => here

theorem parameters (params : List Parameter) :
    Traces (Analysis.parameters params) (Walk.parameters params)
      fun bound events => events = Walk.parameters bound := by
  induction params with
  | nil => exact Traces.pure rfl
  | cons param others ih =>
      have first : Traces (Analysis.parameter param)
          [.declares param.name ⟨param.note.pos, param.entity⟩]
          fun bound events => events = Walk.parameters [bound] :=
        (declare param.note.pos (.variable param.name false .any) param.entity).map
          fun _ _ here => here
      refine first.bind fun bound _ here => ih.map fun rest events there => ?_
      rw [here, there]
      rfl

theorem resolve (name : String) (pos : Position) (before : Option EntityId) :
    Traces (Analysis.resolve name pos) [.mentions name ⟨pos, before⟩]
      fun found bound => bound = [.mentions name ⟨pos, some found.1⟩] := by
  intro context
  have same := find?_ledgerOf context name
  rw [run_resolve]
  cases found : context.scope.resolve? name with
  | none =>
      rw [found] at same
      exact ⟨[], ⟨pos, before⟩, [], [], _, rfl, rfl, rfl, same⟩
  | some id =>
      rw [found] at same
      refine ⟨_, ?_, rfl⟩
      simp [Ledger.readAll, Ledger.read, same]

/-! ## Expressions

A bound expression is a plain name only if it was one before, which matters for the keys of
objects. -/

mutual

theorem expr : ∀ e : Expr, Traces (Analysis.expr e) (Walk.expr e)
    fun bound events => events = Walk.expr bound ∧ Walk.isName bound = Walk.isName e
  | .literal note value => Traces.pure ⟨rfl, rfl⟩
  | .ident note name entity => by
      rw [Analysis.expr, Walk.expr]
      exact (resolve name note.pos entity).map fun _ _ here => ⟨here, rfl⟩
  | .call note callee args => by
      rw [Analysis.expr, Walk.expr]
      refine (expr callee).bind fun bound _ here => ?_
      refine (Inert.requireCallable bound).before fun _ => ?_
      exact (exprs args).map fun rest _ there => ⟨by rw [here.1, there, Walk.expr], rfl⟩
  | .this note name => by
      rw [Analysis.expr, Walk.expr]
      exact (Inert.requireClass note.pos).before fun _ => Traces.pure ⟨by rw [Walk.expr], rfl⟩
  | .new note target args => by
      rw [Analysis.expr, Walk.expr]
      refine (expr target).bind fun bound _ here => ?_
      refine (Inert.requireClassReference bound).before fun _ => ?_
      exact (exprs args).map fun rest _ there => ⟨by rw [here.1, there, Walk.expr], rfl⟩
  | .typeOf note operand => by
      rw [Analysis.expr, Walk.expr]
      exact (expr operand).map fun bound _ here => ⟨by rw [here.1, Walk.expr], rfl⟩
  | .ternary note condition yes no => by
      rw [Analysis.expr, Walk.expr]
      refine (expr condition).bind fun test _ here => ?_
      refine (Inert.require .boolean test).before fun _ => ?_
      refine (expr yes).bind fun left _ there => ?_
      exact (expr no).map fun right _ last => ⟨by rw [here.1, there.1, last.1, Walk.expr], rfl⟩
  | .binary note op left right => by
      rw [Analysis.expr, Walk.expr]
      refine (expr left).bind fun boundLeft _ here => ?_
      refine (expr right).finish fun boundRight _ there => ?_
      refine (Inert.binaryTag op boundLeft boundRight).before fun tag => Traces.pure ⟨?_, rfl⟩
      rw [here.1, there.1, Walk.expr, List.append_nil]
  | .unary note op side operand => by
      rw [Analysis.expr, Walk.expr]
      refine (expr operand).finish fun bound _ here => ?_
      refine (Inert.unaryTag op bound).before fun tag => Traces.pure ⟨?_, rfl⟩
      rw [here.1, Walk.expr, List.append_nil]
  | .array note elements => by
      rw [Analysis.expr, Walk.expr]
      exact (exprs elements).map fun bound _ here => ⟨by rw [here, Walk.expr], rfl⟩
  | .object note entries => by
      rw [Analysis.expr, Walk.expr]
      exact (pairs [] entries).map fun bound _ here => ⟨by rw [here, Walk.expr], rfl⟩
  | .member note base index => by
      rw [Analysis.expr, Walk.expr]
      refine (expr base).bind fun boundBase baseEvents here => ?_
      refine (Inert.require .arrayOrObject boundBase).before fun _ => ?_
      refine (expr index).finish fun boundIndex indexEvents there => ?_
      have whole : baseEvents ++ (indexEvents ++ []) =
          Walk.expr (.member { note with tag := some .any } boundBase boundIndex) := by
        rw [here.1, there.1, Walk.expr, List.append_nil]
      dsimp only
      split
      · exact (Inert.require .integer boundIndex).before fun _ => Traces.pure ⟨whole, rfl⟩
      · exact Traces.pure ⟨whole, rfl⟩
  | .property note base name => by
      rw [Analysis.expr, Walk.expr]
      refine (expr base).finish fun bound _ here => ?_
      refine (Inert.require .object bound).before fun _ => Traces.pure ⟨?_, rfl⟩
      rw [here.1, Walk.expr, List.append_nil]

theorem exprs : ∀ es : List Expr, Traces (Analysis.exprs es) (Walk.exprs es)
    fun bound events => events = Walk.exprs bound
  | [] => Traces.pure rfl
  | e :: others => by
      rw [Analysis.exprs, Walk.exprs]
      refine (expr e).bind fun first _ here => ?_
      exact (exprs others).map fun rest _ there => by rw [here.1, there, Walk.exprs]

theorem pair : ∀ entry : Pair, Traces (Analysis.pair entry) (Walk.pair entry)
    fun bound events => events = Walk.pair bound
  | .mk pos key value canonical => by
      by_cases plain : Walk.isName key = true
      · rw [Walk.pair, if_pos plain]
        cases key with
        | ident note name entity =>
            rw [Analysis.pair, pure_bind]
            exact (expr value).map fun bound _ here => by rw [here.1, Walk.pair, Walk.isName,
              if_pos rfl]
        | _ => cases plain
      · rw [Walk.pair, if_neg plain, Analysis.pair]
        · refine (expr key).bind fun boundKey _ here => ?_
          refine (expr value).map fun boundValue _ there => ?_
          rw [Walk.pair, here.2, if_neg plain, here.1, there.1]
        · rintro note name entity rfl
          exact plain rfl

theorem pairs : ∀ (seen : List String) (entries : List Pair),
    Traces (Analysis.pairs seen entries) (Walk.pairs entries)
      fun bound events => events = Walk.pairs bound
  | seen, [] => Traces.pure rfl
  | seen, entry :: others => by
      rw [Analysis.pairs, Walk.pairs]
      refine (pair entry).bind fun first _ here => ?_
      refine (Inert.distinctKey seen first).before fun longer => ?_
      exact (pairs longer others).map fun rest _ there => by rw [here, there, Walk.pairs]

end

/-! ## Statements -/

theorem optional : ∀ value : Option Expr, Traces (Analysis.optional value) (Walk.optional value)
    fun bound events => events = Walk.optional bound.1
  | some e => (expr e).map fun _ _ here => here.1
  | none => Traces.pure rfl

theorem declarator (constant : Bool) (name : Binding) (init : Option Expr) :
    Traces (Analysis.declarator constant name init) (Walk.declarator (name, init))
      fun bound events => events = Walk.declarator bound :=
  (optional init).bind fun _ _ here =>
    (declareBinding name rfl).map fun _ _ there => by rw [here, there]; rfl

theorem declarators (constant : Bool) : ∀ entries : List (Binding × Option Expr),
    Traces (Analysis.declarators constant entries) (entries.flatMap Walk.declarator)
      fun bound events => events = bound.flatMap Walk.declarator
  | [] => Traces.pure rfl
  | (name, init) :: others =>
      (declarator constant name init).bind fun _ _ here =>
        (declarators constant others).map fun _ _ there => by rw [here, there]; rfl

/-- The tag of a target is of no importance for the names in it. -/
theorem walk_withTag (tag : Tag) (e : Expr) : Walk.expr (e.withTag tag) = Walk.expr e := by
  cases e <;> simp only [Expr.withTag, Walk.expr]

mutual

theorem statement : ∀ s : Statement, Traces (Analysis.statement s) (Walk.statement s)
    fun bound events => events = Walk.statement bound
  | .declare pos constant name init => by
      rw [Analysis.statement, Walk.statement]
      exact (declarator constant name init).map fun bound _ here => by rw [here, Walk.statement]
  | .declareAll pos constant entries => by
      rw [Analysis.statement, Walk.statement]
      exact (declarators constant entries).map fun bound _ here => by rw [here, Walk.statement]
  | .assign pos target value => by
      rw [Analysis.statement, Walk.statement]
      refine (expr target).bind fun boundTarget _ here => ?_
      refine (expr value).finish fun boundValue _ there => ?_
      refine (Inert.requireMutable boundTarget).before fun _ => ?_
      refine (Inert.retype boundValue.tag boundTarget).before fun _ => Traces.pure ?_
      rw [here.1, there.1, Walk.statement, walk_withTag, List.append_nil]
  | .tryCatch pos body name handler => by
      rw [Analysis.statement, Walk.statement]
      refine (blockIn id body).bind fun boundBody _ here => ?_
      rw [Walk.framed, List.cons_append, List.cons_append]
      refine (enter id).bind fun _ _ opened => ?_
      refine (declareBinding name rfl).bind fun boundName _ named => ?_
      refine (blockHere handler).bind fun boundHandler _ there => ?_
      refine exit.map fun _ _ closed => ?_
      rw [here, opened, named, there, closed, Walk.statement]
      rfl
  | .classDef pos name (some initialiser) bodyPos methods => by
      rw [Analysis.statement, Walk.statement, Walk.framed, List.cons_append, List.append_assoc]
      refine (declare name.pos (.ofClass name.name) name.entity).bind fun id _ named => ?_
      refine (enter _).bind fun _ _ opened => ?_
      refine (constructor initialiser).present.bind ?_
      rintro _ _ ⟨boundInitialiser, rfl, here⟩
      refine (functions methods).bind fun boundMethods _ there => ?_
      refine exit.map fun _ _ closed => ?_
      rw [named, opened, here, there, closed, Walk.statement, Walk.framed]
      simp [Walk.binding, Entity.ofClass, Entity.name]
  | .classDef pos name none bodyPos methods => by
      rw [Analysis.statement, Walk.statement, Walk.framed, List.cons_append]
      refine (declare name.pos (.ofClass name.name) name.entity).bind fun id _ named => ?_
      refine (enter _).bind fun _ _ opened => ?_
      dsimp only
      rw [pure_bind]
      refine (functions methods).bind fun boundMethods _ there => ?_
      refine exit.map fun _ _ closed => ?_
      rw [named, opened, there, closed, Walk.statement]
      rfl
  | .function declared => by
      rw [Analysis.statement, Walk.statement]
      exact (function declared).map fun bound _ here => by rw [here, Walk.statement]
  | .ifElse pos alternatives (some otherwise) => by
      rw [Analysis.statement, Walk.statement]
      refine (ifArms alternatives).bind fun bound _ here => ?_
      refine (blockIn id otherwise).present.finish ?_
      rintro _ _ ⟨boundOtherwise, rfl, there⟩
      exact Traces.pure (by rw [here, there, Walk.statement, List.append_nil])
  | .ifElse pos alternatives none => by
      rw [Analysis.statement, Walk.statement]
      refine (ifArms alternatives).finish fun bound _ here => ?_
      dsimp only
      rw [pure_bind]
      exact Traces.pure (by rw [here, Walk.statement, List.append_nil])
  | .whileLoop pos condition body => by
      rw [Analysis.statement, Walk.statement]
      refine (expr condition).bind fun test _ here => ?_
      refine (Inert.require .boolean test).before fun _ => ?_
      exact (blockIn _ body).map fun inner _ there => by rw [here.1, there, Walk.statement]
  | .forLoop pos name init condition step body => by
      rw [Analysis.statement, Walk.statement, Walk.framed]
      simp only [List.cons_append, List.append_assoc]
      refine (enter _).bind fun _ _ opened => ?_
      refine (expr init).bind fun boundInit _ first => ?_
      refine (declareBinding name rfl).bind fun boundName _ named => ?_
      refine (expr condition).bind fun test _ second => ?_
      refine (Inert.require .boolean test).before fun _ => ?_
      refine (expr step).bind fun boundStep _ third => ?_
      refine (blockIn id body).bind fun boundBody _ inner => ?_
      refine exit.map fun _ _ closed => ?_
      rw [opened, first.1, named, second.1, third.1, inner, closed, Walk.statement]
      simp [Walk.framed]
  | .forOf pos name iterable body => by
      rw [Analysis.statement, Walk.statement]
      refine (expr iterable).bind fun boundIterable _ here => ?_
      refine (Inert.require .iterable boundIterable).before fun _ => ?_
      rw [Walk.framed, List.cons_append, List.cons_append]
      refine (enter _).bind fun _ _ opened => ?_
      refine (declareBinding name rfl).bind fun boundName _ named => ?_
      refine (blockHere body).bind fun boundBody _ there => ?_
      refine exit.map fun _ _ closed => ?_
      rw [here.1, opened, named, there, closed, Walk.statement]
      rfl
  | .switch pos selector alternatives (some otherwise) => by
      rw [Analysis.statement, Walk.statement]
      refine (expr selector).bind fun boundSelector _ first => ?_
      refine (switchArms alternatives).bind fun bound _ here => ?_
      refine (blockIn _ otherwise).present.finish ?_
      rintro _ _ ⟨boundOtherwise, rfl, there⟩
      exact Traces.pure (by rw [first.1, here, there, Walk.statement, List.append_nil])
  | .switch pos selector alternatives none => by
      rw [Analysis.statement, Walk.statement]
      refine (expr selector).bind fun boundSelector _ first => ?_
      refine (switchArms alternatives).finish fun bound _ here => ?_
      dsimp only
      rw [pure_bind]
      exact Traces.pure (by rw [first.1, here, Walk.statement, List.append_nil])
  | .returns pos (some value) => by
      rw [Analysis.statement, Walk.statement]
      refine (Inert.requireFunction pos).before fun _ => ?_
      exact (expr value).map fun bound _ here => by rw [here.1, Walk.statement, Walk.optional]
  | .returns pos none => by
      rw [Analysis.statement, Walk.statement]
      exact (Inert.requireFunction pos).before fun _ => Traces.pure (by
        rw [Walk.statement, Walk.optional])
  | .print pos argument => by
      rw [Analysis.statement, Walk.statement]
      exact (expr argument).map fun bound _ here => by rw [here.1, Walk.statement]
  | .breakLoop pos => by
      rw [Analysis.statement, Walk.statement]
      exact (Inert.requireLoop pos).before fun _ => Traces.pure (by rw [Walk.statement])
  | .continueLoop pos => by
      rw [Analysis.statement, Walk.statement]
      exact (Inert.requireLoop pos).before fun _ => Traces.pure (by rw [Walk.statement])
  | .expr pos e => by
      rw [Analysis.statement, Walk.statement]
      exact (expr e).map fun bound _ here => by rw [here.1, Walk.statement]

theorem statements : ∀ body : List Statement, Traces (Analysis.statements body)
    (Walk.statements body) fun bound events => events = Walk.statements bound
  | [] => Traces.pure rfl
  | first :: others => by
      rw [Analysis.statements, Walk.statements]
      refine (statement first).bind fun bound _ here => ?_
      exact (statements others).map fun rest _ there => by rw [here, there, Walk.statements]

theorem blockHere : ∀ body : Block, Traces (Analysis.blockHere body) (Walk.block body)
    fun bound events => events = Walk.block bound
  | .mk pos body => by
      rw [Analysis.blockHere, Walk.block]
      exact (statements body).map fun bound _ here => by rw [here, Walk.block]

theorem blockIn (adjust : Surroundings → Surroundings) : ∀ body : Block,
    Traces (Analysis.blockIn adjust body) (Walk.framed (Walk.block body))
      fun bound events => events = Walk.framed (Walk.block bound)
  | .mk pos body => by
      rw [Analysis.blockIn, Walk.block, Walk.framed, List.cons_append]
      refine (enter adjust).bind fun _ _ opened => ?_
      refine (statements body).bind fun bound _ here => ?_
      refine exit.map fun _ _ closed => ?_
      rw [opened, here, closed, Walk.block]
      rfl

theorem function : ∀ declared : Function, Traces (Analysis.function declared)
    (Walk.function declared) fun bound events => events = Walk.function bound
  | .mk pos name params body => by
      rw [Analysis.function, Walk.function, Walk.framed, List.cons_append, List.append_assoc]
      refine (declare name.pos (.function name.name) name.entity).bind fun id _ named => ?_
      refine (enter _).bind fun _ _ opened => ?_
      refine (parameters params).bind fun boundParams _ first => ?_
      refine (blockHere body).bind fun boundBody _ second => ?_
      refine exit.map fun _ _ closed => ?_
      rw [named, opened, first, second, closed, Walk.function, Walk.framed]
      simp [Walk.binding, Entity.name]

theorem functions : ∀ declared : List Function, Traces (Analysis.functions declared)
    (Walk.functions declared) fun bound events => events = Walk.functions bound
  | [] => Traces.pure rfl
  | first :: others => by
      rw [Analysis.functions, Walk.functions]
      refine (function first).bind fun bound _ here => ?_
      exact (functions others).map fun rest _ there => by rw [here, there, Walk.functions]

theorem constructor : ∀ initialiser : Constructor, Traces (Analysis.constructor initialiser)
    (Walk.constructor initialiser) fun bound events => events = Walk.constructor bound
  | .mk pos params body => by
      rw [Analysis.constructor, Walk.constructor, Walk.framed, List.cons_append,
        List.append_assoc]
      refine (enter id).bind fun _ _ opened => ?_
      refine (parameters params).bind fun boundParams _ first => ?_
      refine (blockHere body).bind fun boundBody _ second => ?_
      refine exit.map fun _ _ closed => ?_
      rw [opened, first, second, closed, Walk.constructor, Walk.framed]
      simp

theorem ifArms : ∀ alternatives : List Arm, Traces (Analysis.ifArms alternatives)
    (Walk.arms alternatives) fun bound events => events = Walk.arms bound
  | [] => Traces.pure rfl
  | first :: others => by
      rw [Analysis.ifArms, Walk.arms]
      refine (ifArm first).bind fun bound _ here => ?_
      exact (ifArms others).map fun rest _ there => by rw [here, there, Walk.arms]

theorem ifArm : ∀ alternative : Arm, Traces (Analysis.ifArm alternative)
    (Walk.arm alternative) fun bound events => events = Walk.arm bound
  | .mk pos condition body => by
      rw [Analysis.ifArm, Walk.arm]
      refine (expr condition).bind fun test _ here => ?_
      refine (Inert.require .boolean test).before fun _ => ?_
      exact (blockIn id body).map fun inner _ there => by rw [here.1, there, Walk.arm]

theorem switchArms : ∀ alternatives : List Arm, Traces (Analysis.switchArms alternatives)
    (Walk.arms alternatives) fun bound events => events = Walk.arms bound
  | [] => Traces.pure rfl
  | first :: others => by
      rw [Analysis.switchArms, Walk.arms]
      refine (switchArm first).bind fun bound _ here => ?_
      exact (switchArms others).map fun rest _ there => by rw [here, there, Walk.arms]

theorem switchArm : ∀ alternative : Arm, Traces (Analysis.switchArm alternative)
    (Walk.arm alternative) fun bound events => events = Walk.arm bound
  | .mk pos test body => by
      rw [Analysis.switchArm, Walk.arm]
      refine (expr test).bind fun bound _ here => ?_
      exact (blockIn _ body).map fun inner _ there => by rw [here.1, there, Walk.arm]

end

end Traces

/-- What a name refers to, and whether it refers to anything, does not depend on the entities
that are filled in. -/
theorem unknown_of_map {raw bound : List (Event Mark)} {name : String}
    (same : bound.map (Event.map Mark.pos) = raw.map (Event.map Mark.pos))
    (unknown : Unknown bound name) : Unknown raw name := by
  intro frame member site declared
  have frames : framesAfter raw = framesAfter bound := by
    rw [framesAfter, framesAfter, ← Nesting.after_map Mark.pos raw, ← same, Nesting.after_map]
  have shared := (exists_declaredIn_map Mark.pos).mpr ⟨site, declared⟩
  rw [← same] at shared
  obtain ⟨other, declaredOther⟩ := (exists_declaredIn_map Mark.pos).mp shared
  exact unknown frame (frames ▸ member) other declaredOther

theorem taken_of_map {raw bound : List (Event Mark)} {name : String}
    (same : bound.map (Event.map Mark.pos) = raw.map (Event.map Mark.pos))
    (taken : Taken bound name) : Taken raw name := by
  obtain ⟨frame, site, innermost, declared⟩ := taken
  have frames : framesAfter raw = framesAfter bound := by
    rw [framesAfter, framesAfter, ← Nesting.after_map Mark.pos raw, ← same, Nesting.after_map]
  have shared := (exists_declaredIn_map Mark.pos).mpr ⟨site, declared⟩
  rw [same] at shared
  obtain ⟨other, declaredOther⟩ := (exists_declaredIn_map Mark.pos).mp shared
  exact ⟨frame, other, frames ▸ innermost, declaredOther⟩

end Qalam.Scoping

namespace Qalam

open Scoping

/-- Name resolution is lexical scoping. In a program that is accepted the names and the frames are
those that were read, at the same positions; every name carries the entity of the innermost
declaration of that name that was met before it in a frame around it, and no frame declares a name
twice. A program that is refused because a name is not declared mentions that name, at the reported
position, where no frame around it has declared it so far; and one that is refused because a name
is declared already declares it, at the reported position, in a frame that has declared it
before. -/
theorem Program.bind_lexical (program : Program) :
    (∀ bound, program.bind = .ok bound →
      bound.program.events.map (Event.map Mark.pos) = program.events.map (Event.map Mark.pos) ∧
        Lexical bound.program.events) ∧
    (∀ name pos, program.bind = .error ⟨.notDeclared name, pos⟩ →
      ∃ before mark later, program.events = before ++ .mentions name mark :: later ∧
        mark.pos = pos ∧ Unknown before name) ∧
    (∀ name pos, program.bind = .error ⟨.alreadyDeclared name, pos⟩ →
      ∃ before mark later, program.events = before ++ .declares name mark :: later ∧
        mark.pos = pos ∧ Taken before name) := by
  have traced := Traces.statements program.statements Analysis.Context.initial
  have start : ledgerOf Analysis.Context.initial = Ledger.initial := rfl
  rw [start] at traced
  have runs : program.bind = (Analysis.statements program.statements .initial).map
      fun final => ⟨⟨final.1⟩, final.2.entities⟩ := rfl
  rw [runs]
  cases ended : Analysis.statements program.statements .initial with
  | ok final =>
      obtain ⟨body, context⟩ := final
      rw [ended] at traced
      obtain ⟨events, read, rfl⟩ := traced
      refine ⟨?_, ?_, ?_⟩
      · rintro _ ⟨rfl⟩
        exact ⟨Ledger.map_of_readAll read, (lexical_of_readAll read).1⟩
      · intro name pos impossible
        cases impossible
      · intro name pos impossible
        cases impossible
  | error error =>
      rw [ended] at traced
      refine ⟨?_, ?_, ?_⟩
      · intro bound impossible
        cases impossible
      · rintro name pos ⟨rfl⟩
        obtain ⟨before, mark, later, events, reached, split, here, read, stuck⟩ := traced
        have unknown := (lexical_of_readAll read).2.unknown stuck
        exact ⟨before, mark, later, split, here,
          unknown_of_map (Ledger.map_of_readAll read) unknown⟩
      · rintro name pos ⟨rfl⟩
        obtain ⟨before, mark, later, events, reached, split, here, read, stuck⟩ := traced
        have taken := ((lexical_of_readAll read).2.taken_iff name).mpr stuck
        exact ⟨before, mark, later, split, here, taken_of_map (Ledger.map_of_readAll read) taken⟩

/-- The declaration of a name with the value of another one. -/
def copyOf (line : Nat) (name value : String) : Statement :=
  .declare ⟨line, 1⟩ false ⟨name, ⟨line, 5⟩, none⟩ (some (.ident (.at ⟨line, 9⟩) value none))

/-- A block that gives a name to a new variable with the value of the outer one of that name, as
one program; the same without the outer one; and the same with the inner one twice. -/
theorem Program.bind_lexical_shadowing :
    let outer : Statement := .declare ⟨1, 1⟩ false ⟨"x", ⟨1, 5⟩, none⟩ none
    let inside (body : List Statement) : Statement :=
      .ifElse ⟨2, 1⟩ [.mk ⟨2, 1⟩ (.literal (.at ⟨2, 4⟩) (.bool true)) (.mk ⟨2, 8⟩ body)] none
    let shadowing : Program := ⟨[outer, inside [copyOf 3 "x" "x"]]⟩
    let missing : Program := ⟨[inside [copyOf 3 "x" "x"]]⟩
    let repeated : Program := ⟨[outer, inside [copyOf 3 "x" "x", copyOf 4 "x" "x"]]⟩
    (∃ bound, shadowing.bind = .ok bound ∧
      bound.program.events.map (Event.map Mark.pos) =
        shadowing.events.map (Event.map Mark.pos) ∧
      Lexical bound.program.events) ∧
    (missing.bind = .error ⟨.notDeclared "x", ⟨3, 9⟩⟩ ∧
      ∃ before mark later, missing.events = before ++ .mentions "x" mark :: later ∧
        mark.pos = ⟨3, 9⟩ ∧ Unknown before "x") ∧
    (repeated.bind = .error ⟨.alreadyDeclared "x", ⟨4, 5⟩⟩ ∧
      ∃ before mark later, repeated.events = before ++ .declares "x" mark :: later ∧
        mark.pos = ⟨4, 5⟩ ∧ Taken before "x") := by
  intro outer inside shadowing missing repeated
  have accepted : ∃ bound, shadowing.bind = .ok bound := ⟨_, rfl⟩
  have unknown : missing.bind = .error ⟨.notDeclared "x", ⟨3, 9⟩⟩ := rfl
  have twice : repeated.bind = .error ⟨.alreadyDeclared "x", ⟨4, 5⟩⟩ := rfl
  obtain ⟨bound, binds⟩ := accepted
  exact ⟨⟨bound, binds, (bind_lexical shadowing).1 bound binds⟩,
    ⟨unknown, (bind_lexical missing).2.1 _ _ unknown⟩,
    ⟨twice, (bind_lexical repeated).2.2 _ _ twice⟩⟩

end Qalam
