/-
# The members of classes

The methods of a class are named like fields, by their spellings. All methods of a class are
declared in one frame, so an accepted class has no two methods with one spelling; and different
spellings have different names. So the methods of a class keep different names.

Nothing keeps a method from the name `constructor`, which does not name a method in the text but
the constructor of the class. Such a name comes from the oracle: a method gets it only if it was
proposed for the very spelling of the method.
-/

import Mathlib.Logic.Function.Basic
import Qalam.Proofs.Checking.Rebinding
import Qalam.Proofs.EcmaScript.Preservation
import Qalam.Proofs.Naming.Proposals
import Qalam.Proofs.Naming.Requests

namespace Qalam

/-- The members of a class: whether it has a constructor, and the names of its methods. -/
structure Members where
  constructed : Bool
  methods : List String
  deriving DecidableEq

/-- The members of a class with other names for its methods. -/
def Members.under (name : String → String) (members : Members) : Members :=
  { members with methods := members.methods.map name }

/-- The name of a function. -/
def Function.name : Function → String
  | .mk _ name _ _ => name.name

namespace Classes

mutual

/-- The classes in a statement. -/
def statement : Statement → List Members
  | .declare .. | .declareAll .. | .assign .. => []
  | .tryCatch _ body _ handler => block body ++ block handler
  | .classDef _ _ (some initialiser) _ methods =>
    ⟨true, methods.map Function.name⟩ :: (constructor initialiser ++ functions methods)
  | .classDef _ _ none _ methods => ⟨false, methods.map Function.name⟩ :: functions methods
  | .function declared => function declared
  | .ifElse _ alternatives (some otherwise) => arms alternatives ++ block otherwise
  | .ifElse _ alternatives none => arms alternatives
  | .whileLoop _ _ body => block body
  | .forLoop _ _ _ _ _ body => block body
  | .forOf _ _ _ body => block body
  | .switch _ _ alternatives (some otherwise) => arms alternatives ++ block otherwise
  | .switch _ _ alternatives none => arms alternatives
  | .returns .. | .print .. | .breakLoop _ | .continueLoop _ | .expr .. => []

/-- The classes in several statements. -/
def statements : List Statement → List Members
  | [] => []
  | first :: others => statement first ++ statements others

/-- The classes in a block. -/
def block : Block → List Members
  | .mk _ body => statements body

/-- The classes in a function. -/
def function : Function → List Members
  | .mk _ _ _ body => block body

/-- The classes in several functions. -/
def functions : List Function → List Members
  | [] => []
  | first :: others => function first ++ functions others

/-- The classes in a constructor. -/
def constructor : Constructor → List Members
  | .mk _ _ body => block body

/-- The classes in the alternatives of an `if` or `switch`. -/
def arms : List Arm → List Members
  | [] => []
  | .mk _ _ body :: others => block body ++ arms others

end

end Classes

/-- All classes of a program. -/
def Program.classes (program : Program) : List Members := Classes.statements program.statements

/-! ## Methods of a class are different declarations of one frame -/

namespace Scoping

/-- Reading some events through a ledger adds names to its innermost frame, none of them twice,
and leaves the frames around it. This can be done only if no class among the events has two
methods with one name. -/
def Adds (events : List (Event Mark)) (names : List String) (classes : List Members) : Prop :=
  ∀ ⦃ledger final : Ledger⦄ ⦃bound : List (Event Mark)⦄ ⦃top : List (String × EntityId)⦄
    ⦃below : List (List (String × EntityId))⦄, ledger.tables = top :: below →
    (top.map Prod.fst).Nodup → ledger.readAll events = some (bound, final) →
    ∃ added, final.tables = (top ++ added) :: below ∧ added.map Prod.fst = names ∧
      ((top ++ added).map Prod.fst).Nodup ∧ ∀ members ∈ classes, members.methods.Nodup

namespace Adds

variable {first second events : List (Event Mark)} {names others : List String}
  {classes further : List Members}

theorem nil : Adds [] [] [] := by
  intro ledger final bound top below tables distinct read
  cases read
  exact ⟨[], by simpa using tables, rfl, by simpa using distinct, by simp⟩

theorem mention (name : String) (mark : Mark) : Adds [.mentions name mark] [] [] := by
  intro ledger final bound top below tables distinct read
  simp only [Ledger.readAll, Ledger.read, Option.bind_eq_bind, Option.bind_eq_some_iff,
    Option.map_eq_some_iff, Option.pure_def, Option.some.injEq, Prod.exists, Prod.mk.injEq] at read
  obtain ⟨_, _, ⟨id, -, rfl, rfl⟩, _, _, ⟨rfl, rfl⟩, rfl, rfl⟩ := read
  exact ⟨[], by simpa using tables, rfl, by simpa using distinct, by simp⟩

/-- A ledger takes a declaration only if the name is new in the innermost frame. -/
theorem declare (name : String) (mark : Mark) : Adds [.declares name mark] [name] [] := by
  intro ledger final bound top below tables distinct read
  by_cases taken : (ledger.findInner? name).isSome
  · simp [Ledger.readAll, Ledger.read, taken] at read
  · simp only [Ledger.readAll, Ledger.read, taken, Bool.false_eq_true, if_false,
      Option.bind_eq_bind, Option.bind_some, Option.pure_def, Option.some.injEq,
      Prod.mk.injEq] at read
    obtain ⟨-, rfl⟩ := read
    have new : name ∉ top.map Prod.fst := by
      intro mem
      obtain ⟨entry, listed, rfl⟩ := List.mem_map.mp mem
      simp only [Ledger.findInner?, tables, List.head?_cons, Option.bind_some,
        Option.not_isSome_iff_eq_none] at taken
      have differs := List.lookup_eq_none_iff.mp taken entry listed
      simp at differs
    refine ⟨[(name, ⟨ledger.next⟩)], by simp [Ledger.add, tables], rfl, ?_, by simp⟩
    rw [List.map_append]
    exact distinct.append (List.nodup_singleton _) (List.disjoint_singleton.mpr new)

theorem append (here : Adds first names classes) (there : Adds second others further) :
    Adds (first ++ second) (names ++ others) (classes ++ further) := by
  intro ledger final bound top below tables distinct read
  obtain ⟨_, _, middle, -, readFirst, readSecond⟩ := Ledger.exists_of_readAll_append read
  obtain ⟨added, reached, rfl, distinct', nodup⟩ := here tables distinct readFirst
  obtain ⟨more, reached', rfl, distinct'', nodup'⟩ := there reached distinct' readSecond
  refine ⟨added ++ more, by rw [reached', List.append_assoc], by simp, ?_, ?_⟩
  · rwa [← List.append_assoc]
  · rw [List.forall_mem_append]
    exact ⟨nodup, nodup'⟩

/-- The names inside a frame are different, and are forgotten behind it. -/
theorem classBody (inside : Adds events names classes) (constructed : Bool) :
    Adds (Walk.framed events) [] (⟨constructed, names⟩ :: classes) := by
  intro ledger final bound top below tables distinct read
  obtain ⟨_, _, middle, -, readInside, readEnd⟩ := Ledger.exists_of_readAll_append read
  obtain ⟨_, _, opened, -, readOpen, readEvents⟩ :=
    Ledger.exists_of_readAll_append (@List.singleton_append _ Event.opens events ▸ readInside)
  cases readOpen
  cases readEnd
  -- A frame opens without names, so what is in it in the end is what the events have added.
  have entered : ledger.enter.tables = [] :: top :: below := by rw [Ledger.enter, tables]
  obtain ⟨added, reached, rfl, distinct', nodup⟩ := inside entered (by simp) readEvents
  refine ⟨[], by simp [Ledger.leave, reached], rfl, by simpa using distinct, ?_⟩
  rw [List.forall_mem_cons]
  exact ⟨by simpa using distinct', nodup⟩

theorem framed (inside : Adds events names classes) : Adds (Walk.framed events) [] classes := by
  intro ledger final bound top below tables distinct read
  obtain ⟨added, reached, same, distinct', nodup⟩ :=
    inside.classBody false tables distinct read
  exact ⟨added, reached, same, distinct', (List.forall_mem_cons.mp nodup).2⟩

theorem binding (name : Binding) : Adds [Walk.binding name] [name.name] [] := declare _ _

theorem parameters : ∀ params : List Parameter,
    Adds (Walk.parameters params) (params.map Parameter.name) []
  | [] => nil
  | param :: others =>
      (declare param.name ⟨param.note.pos, param.entity⟩).append (parameters others)

mutual

theorem expr : ∀ e : Expr, Adds (Walk.expr e) [] []
  | .literal .. | .this .. => nil
  | .ident note name entity => mention name ⟨note.pos, entity⟩
  | .call _ base args | .new _ base args => (expr base).append (exprs args)
  | .typeOf _ operand | .unary _ _ _ operand | .property _ operand _ => expr operand
  | .ternary _ condition yes no => (expr condition).append ((expr yes).append (expr no))
  | .binary _ _ left right | .member _ left right => (expr left).append (expr right)
  | .array _ elements => exprs elements
  | .object _ entries => pairs entries

theorem exprs : ∀ es : List Expr, Adds (Walk.exprs es) [] []
  | [] => nil
  | e :: others => (expr e).append (exprs others)

theorem pair : ∀ entry : Pair, Adds (Walk.pair entry) [] []
  | .mk _ key value _ => by
      rw [Walk.pair]
      split
      · exact expr value
      · exact (expr key).append (expr value)

theorem pairs : ∀ entries : List Pair, Adds (Walk.pairs entries) [] []
  | [] => nil
  | entry :: others => (pair entry).append (pairs others)

end

theorem optional : ∀ value : Option Expr, Adds (Walk.optional value) [] []
  | some e => expr e
  | none => nil

theorem declarator (entry : Binding × Option Expr) :
    Adds (Walk.declarator entry) [entry.1.name] [] :=
  (optional entry.2).append (binding entry.1)

theorem declarators : ∀ entries : List (Binding × Option Expr),
    Adds (entries.flatMap Walk.declarator) (entries.map fun entry => entry.1.name) []
  | [] => nil
  | entry :: others => (declarator entry).append (declarators others)

end Adds

/-- Reading some events shows that their classes have different methods, whatever names it adds. -/
def Houses (events : List (Event Mark)) (classes : List Members) : Prop :=
  ∃ names, Adds events names classes

namespace Houses

variable {first second events : List (Event Mark)} {names : List String}
  {classes further : List Members}

theorem append : Houses first classes → Houses second further →
    Houses (first ++ second) (classes ++ further)
  | ⟨_, here⟩, ⟨_, there⟩ => ⟨_, here.append there⟩

theorem framed : Houses events classes → Houses (Walk.framed events) classes
  | ⟨_, inside⟩ => ⟨_, inside.framed⟩

/-- Events before those that have the classes. -/
theorem after (here : Adds first names []) : Houses second classes →
    Houses (first ++ second) classes
  | ⟨_, there⟩ => ⟨_, here.append there⟩

end Houses

namespace Adds

mutual

theorem statement : ∀ s : Statement, Houses (Walk.statement s) (Classes.statement s)
  | .declare _ _ name init => ⟨_, declarator (name, init)⟩
  | .declareAll _ _ entries => ⟨_, declarators entries⟩
  | .assign _ target value => ⟨_, (expr target).append (expr value)⟩
  | .tryCatch _ body name handler =>
      (block body).framed.append ((block handler).after (binding name)).framed
  | .classDef _ name (some initialiser) _ methods => by
      rw [Walk.statement, Classes.statement]
      have inside := (constructor initialiser).append (functions methods)
      exact ⟨_, (binding name).append (inside.classBody true)⟩
  | .classDef _ name none _ methods => by
      rw [Walk.statement, Classes.statement]
      exact ⟨_, (binding name).append ((functions methods).classBody false)⟩
  | .function declared => ⟨_, function declared⟩
  | .ifElse _ alternatives (some otherwise) => (arms alternatives).append (block otherwise).framed
  | .ifElse _ alternatives none => arms alternatives
  | .whileLoop _ condition body => (block body).framed.after (expr condition)
  | .forLoop _ name init condition step body => by
      have inside := ((block body).framed.after (expr step)).after (expr condition)
      exact ((inside.after (binding name)).after (expr init)).framed
  | .forOf _ name iterable body => ((block body).after (binding name)).framed.after (expr iterable)
  | .switch _ selector alternatives (some otherwise) =>
      ((arms alternatives).append (block otherwise).framed).after (expr selector)
  | .switch _ selector alternatives none => (arms alternatives).after (expr selector)
  | .returns _ value => ⟨_, optional value⟩
  | .print _ argument => ⟨_, expr argument⟩
  | .breakLoop _ | .continueLoop _ => ⟨_, nil⟩
  | .expr _ e => ⟨_, expr e⟩

theorem statements : ∀ body : List Statement,
    Houses (Walk.statements body) (Classes.statements body)
  | [] => ⟨_, nil⟩
  | first :: others => (statement first).append (statements others)

theorem block : ∀ body : Block, Houses (Walk.block body) (Classes.block body)
  | .mk _ body => statements body

theorem function : ∀ declared : Function,
    Adds (Walk.function declared) [declared.name] (Classes.function declared)
  | .mk _ name params body => by
      obtain ⟨_, inside⟩ := (block body).after (parameters params)
      exact (binding name).append inside.framed

theorem functions : ∀ members : List Function,
    Adds (Walk.functions members) (members.map Function.name) (Classes.functions members)
  | [] => nil
  | first :: others => (function first).append (functions others)

theorem constructor : ∀ initialiser : Constructor,
    Adds (Walk.constructor initialiser) [] (Classes.constructor initialiser)
  | .mk _ params body => by
      obtain ⟨_, inside⟩ := (block body).after (parameters params)
      exact inside.framed

theorem arms : ∀ alternatives : List Arm,
    Houses (Walk.arms alternatives) (Classes.arms alternatives)
  | [] => ⟨_, nil⟩
  | .mk _ test body :: others => ((block body).framed.after (expr test)).append (arms others)

end

end Adds

end Scoping

/-- A program that a ledger can read has no class with two methods of one spelling. -/
theorem Program.methods_nodup {program : Program} {ledger : Scoping.Ledger}
    {bound : List (Scoping.Event Scoping.Mark)}
    (read : Scoping.Ledger.initial.readAll program.events = some (bound, ledger)) :
    ∀ members ∈ program.classes, members.methods.Nodup := by
  obtain ⟨names, adds⟩ := Scoping.Adds.statements program.statements
  have outermost : Scoping.Ledger.initial.tables = [[]] := rfl
  obtain ⟨-, -, -, -, nodup⟩ := adds outermost (by simp) read
  exact nodup

/-! ## Different spellings have different names -/

namespace Naming.Names

variable (names : Names)

mutual

theorem classes_statement : ∀ s : Statement,
    Classes.statement (names.statement s) = (Classes.statement s).map (.under names.field)
  | .declare .. | .declareAll .. | .assign .. | .returns .. | .print .. | .breakLoop _
  | .continueLoop _ | .expr .. => by
      simp [statement, Classes.statement]
  | .tryCatch _ body _ handler => by
      simp [statement, Classes.statement, classes_block body, classes_block handler]
  | .classDef _ _ (some initialiser) _ members => by
      simp [statement, Classes.statement, Members.under, names_methods members,
        classes_constructor initialiser, classes_methods members]
  | .classDef _ _ none _ members => by
      simp [statement, Classes.statement, Members.under, names_methods members,
        classes_methods members]
  | .function (.mk _ _ _ body) => by
      simp [statement, Classes.statement, Classes.function, classes_block body]
  | .ifElse _ alternatives (some otherwise) | .switch _ _ alternatives (some otherwise) => by
      simp [statement, Classes.statement, classes_arms alternatives, classes_block otherwise]
  | .ifElse _ alternatives none | .switch _ _ alternatives none => by
      simp [statement, Classes.statement, classes_arms alternatives]
  | .whileLoop _ _ body | .forLoop _ _ _ _ _ body | .forOf _ _ _ body => by
      simp [statement, Classes.statement, classes_block body]

theorem classes_statements : ∀ body : List Statement,
    Classes.statements (names.statements body) = (Classes.statements body).map (.under names.field)
  | [] => rfl
  | first :: others => by
      simp [statements, Classes.statements, classes_statement first, classes_statements others]

theorem classes_block : ∀ body : Block,
    Classes.block (names.block body) = (Classes.block body).map (.under names.field)
  | .mk _ body => by
      simp [block, Classes.block, classes_statements body]

theorem names_methods : ∀ members : List Function,
    (names.methods members).map Function.name = (members.map Function.name).map names.field
  | [] => rfl
  | .mk _ _ _ _ :: others => by
      simp [methods, Function.name, ofMethod, names_methods others]

theorem classes_methods : ∀ members : List Function,
    Classes.functions (names.methods members) =
      (Classes.functions members).map (.under names.field)
  | [] => rfl
  | .mk _ _ _ body :: others => by
      simp [methods, Classes.functions, Classes.function, classes_block body,
        classes_methods others]

theorem classes_constructor : ∀ initialiser : Constructor,
    Classes.constructor (names.constructor initialiser) =
      (Classes.constructor initialiser).map (.under names.field)
  | .mk _ _ body => by
      simp [constructor, Classes.constructor, classes_block body]

theorem classes_arms : ∀ alternatives : List Arm,
    Classes.arms (names.arms alternatives) =
      (Classes.arms alternatives).map (.under names.field)
  | [] => rfl
  | .mk _ _ body :: others => by
      simp [arms, Classes.arms, classes_block body, classes_arms others]

end

end Naming.Names

namespace Relabel

variable (change : Relabel)

mutual

theorem classes_statement : ∀ s : Statement,
    Classes.statement (change.statement s) = (Classes.statement s).map (.under change.name)
  | .declare .. | .declareAll .. | .assign .. | .returns .. | .print .. | .breakLoop _
  | .continueLoop _ | .expr .. => by
      simp [statement, Classes.statement]
  | .tryCatch _ body _ handler => by
      simp [statement, Classes.statement, classes_block body, classes_block handler]
  | .classDef _ _ (some initialiser) _ members => by
      simp [statement, Classes.statement, Members.under, names_functions members,
        classes_constructor initialiser, classes_functions members]
  | .classDef _ _ none _ members => by
      simp [statement, Classes.statement, Members.under, names_functions members,
        classes_functions members]
  | .function (.mk _ _ _ body) => by
      simp [statement, function, Classes.statement, Classes.function, classes_block body]
  | .ifElse _ alternatives (some otherwise) | .switch _ _ alternatives (some otherwise) => by
      simp [statement, Classes.statement, classes_arms alternatives, classes_block otherwise]
  | .ifElse _ alternatives none | .switch _ _ alternatives none => by
      simp [statement, Classes.statement, classes_arms alternatives]
  | .whileLoop _ _ body | .forLoop _ _ _ _ _ body | .forOf _ _ _ body => by
      simp [statement, Classes.statement, classes_block body]

theorem classes_statements : ∀ body : List Statement,
    Classes.statements (change.statements body) =
      (Classes.statements body).map (.under change.name)
  | [] => rfl
  | first :: others => by
      simp [statements, Classes.statements, classes_statement first, classes_statements others]

theorem classes_block : ∀ body : Block,
    Classes.block (change.block body) = (Classes.block body).map (.under change.name)
  | .mk _ body => by
      simp [block, Classes.block, classes_statements body]

theorem names_functions : ∀ members : List Function,
    (change.functions members).map Function.name = (members.map Function.name).map change.name
  | [] => rfl
  | .mk _ _ _ _ :: others => by
      simp [functions, function, Function.name, binding, names_functions others]

theorem classes_functions : ∀ members : List Function,
    Classes.functions (change.functions members) =
      (Classes.functions members).map (.under change.name)
  | [] => rfl
  | .mk _ _ _ body :: others => by
      simp [functions, function, Classes.functions, Classes.function, classes_block body,
        classes_functions others]

theorem classes_constructor : ∀ initialiser : Constructor,
    Classes.constructor (change.constructor initialiser) =
      (Classes.constructor initialiser).map (.under change.name)
  | .mk _ _ body => by
      simp [constructor, Classes.constructor, classes_block body]

theorem classes_arms : ∀ alternatives : List Arm,
    Classes.arms (change.arms alternatives) =
      (Classes.arms alternatives).map (.under change.name)
  | [] => rfl
  | .mk _ _ body :: others => by
      simp [arms, arm, Classes.arms, classes_block body, classes_arms others]

end

end Relabel

/-- Binding changes no class. -/
theorem Program.classes_of_bind {program : Program} {bound : BoundProgram}
    (binds : program.bind = .ok bound) : bound.program.classes = program.classes := by
  have same := (Program.kept_of_bind binds).same
  have stripped : ∀ body : List Statement,
      Classes.statements (Relabel.strip.statements body) = Classes.statements body := by
    intro body
    have still : Members.under Relabel.strip.name = id := funext fun members => by
      simp [Members.under, Relabel.strip]
    rw [Relabel.classes_statements, still, List.map_id]
  rw [Program.classes, Program.classes, ← stripped, same, stripped]

open Naming in
/-- Renaming leaves a table that arose by requests, and all names that agree with it give the
renamed program. -/
theorem Program.exists_table (program : Program) (oracle : Oracle) :
    ∃ table : Table oracle, table.Reached ∧ ∀ names : Names, names.Agrees table →
      program.rename oracle = ⟨names.statements program.statements⟩ := by
  obtain ⟨-, determined⟩ :=
    @Gives.statements oracle program.statements (.empty oracle) (Table.sound_empty oracle)
  refine ⟨_, Asks.statements program.statements _ Table.Reached.empty, fun names agrees => ?_⟩
  exact congrArg Program.mk (determined names agrees).2

open Naming in
/-- The methods of all classes are in the table that renaming leaves. Otherwise their names could
be chosen in another way, but the renamed program is only one. -/
theorem Program.exists_lookup {program : Program} {oracle : Oracle} {table : Table oracle}
    (determined : ∀ names : Names, names.Agrees table →
      program.rename oracle = ⟨names.statements program.statements⟩)
    {members : Members} (listed : members ∈ program.classes) {spelling : String}
    (method : spelling ∈ members.methods) :
    table.fields.lookup spelling = some (table.names.field spelling) := by
  cases found : table.fields.lookup spelling with
  | some name => rw [(table.agrees_names).field found]
  | none =>
      -- Both these names agree with the table, and they differ at the spelling only.
      let other : Names := { table.names with
        field := Function.update table.names.field spelling (table.names.field spelling ++ "_") }
      have agrees : other.Agrees table := by
        refine ⟨(table.agrees_names).entity, fun {key name} known => ?_⟩
        have differs : key ≠ spelling := by
          rintro rfl
          rw [found] at known
          cases known
        have same := (table.agrees_names).field known
        simpa only [other, Function.update_of_ne differs] using same
      have same := (determined _ (table.agrees_names)).symm.trans (determined _ agrees)
      have classes := congrArg Program.classes same
      simp only [Program.classes, Names.classes_statements] at classes
      have methods := congrArg Members.methods (List.map_inj_left.mp classes members listed)
      have equal := List.map_inj_left.mp methods spelling method
      have longer := congrArg String.length equal
      simp [other] at longer

/-- The generated classes have the members of the classes of an accepted program, each method
under the name of its spelling. The methods of one class have different names, all of them usable,
and a method is called `constructor` only if the oracle proposes this for its spelling. -/
theorem Program.members_distinct {program tree : Program} {bound : BoundProgram}
    (binds : program.bind = .ok bound) (either : tree = program ∨ tree = bound.program)
    (oracle : Naming.Oracle) :
    ∃ name : String → String,
      (tree.rename oracle).classes = program.classes.map (.under name) ∧
      (∀ members ∈ (tree.rename oracle).classes,
        members.methods.Nodup ∧ ∀ method ∈ members.methods, Naming.Usable method) ∧
      ∀ members ∈ program.classes, ∀ spelling ∈ members.methods,
        name spelling = "constructor" → oracle.Proposes spelling "constructor" := by
  have same : tree.classes = program.classes := by
    rcases either with rfl | rfl
    · rfl
    · exact Program.classes_of_bind binds
  obtain ⟨ledger, read⟩ := Program.exists_readAll binds
  have distinct := Program.methods_nodup read
  obtain ⟨table, reached, determined⟩ := tree.exists_table oracle
  have given : ∀ members ∈ program.classes, ∀ spelling ∈ members.methods,
      table.fields.lookup spelling = some (table.names.field spelling) := by
    rw [← same]
    intro members listed spelling method
    exact Program.exists_lookup determined listed method
  have renamed : (tree.rename oracle).classes = program.classes.map (.under table.names.field) := by
    rw [determined _ table.agrees_names, ← same]
    exact table.names.classes_statements tree.statements
  refine ⟨table.names.field, renamed, ?_, ?_⟩
  · rw [renamed, List.forall_mem_map]
    intro members listed
    constructor
    · refine (distinct members listed).map_on fun first mem second mem' equal => ?_
      have here := given members listed first mem
      have there := given members listed second mem'
      exact reached.sound.field_injective here (equal ▸ there)
    · intro method mem
      obtain ⟨spelling, mem', rfl⟩ := List.mem_map.mp mem
      exact reached.sound.proper_names.field spelling
  · intro members listed spelling method named
    have found := given members listed spelling method
    rw [named] at found
    exact reached.traceable.proposes found (by decide)

/-- The tokens of `class A \x7b constructor() \x7b \x7d function m() \x7b \x7d \x7d`. -/
def constructedTokens : List Token :=
  [⟨.keyword .classKw, ⟨1, 1⟩⟩, ⟨.ident "A", ⟨1, 2⟩⟩, ⟨.symbol .lbrace, ⟨1, 3⟩⟩,
    ⟨.keyword .constructorKw, ⟨2, 1⟩⟩, ⟨.symbol .lparen, ⟨2, 2⟩⟩, ⟨.symbol .rparen, ⟨2, 3⟩⟩,
    ⟨.symbol .lbrace, ⟨2, 4⟩⟩, ⟨.symbol .rbrace, ⟨2, 5⟩⟩,
    ⟨.keyword .functionKw, ⟨3, 1⟩⟩, ⟨.ident "m", ⟨3, 2⟩⟩, ⟨.symbol .lparen, ⟨3, 3⟩⟩,
    ⟨.symbol .rparen, ⟨3, 4⟩⟩, ⟨.symbol .lbrace, ⟨3, 5⟩⟩, ⟨.symbol .rbrace, ⟨3, 6⟩⟩,
    ⟨.symbol .rbrace, ⟨4, 1⟩⟩, ⟨.eof, ⟨4, 2⟩⟩]

/-- A class with a constructor and one method, before and after binding. -/
def constructedProgram (entity : Nat → Option EntityId) : Program :=
  ⟨[.classDef ⟨1, 1⟩ ⟨"A", ⟨1, 2⟩, entity 0⟩ (some (.mk ⟨2, 1⟩ [] (.mk ⟨2, 4⟩ []))) ⟨1, 3⟩
      [.mk ⟨3, 1⟩ ⟨"m", ⟨3, 2⟩, entity 1⟩ [] (.mk ⟨3, 5⟩ [])]]⟩

/-- The program after binding. -/
def constructedBound : BoundProgram :=
  ⟨constructedProgram fun index => some ⟨index⟩,
    ⟨#[.variable "A" false .classRef, .function "m"]⟩⟩

theorem constructedProgram_binds :
    (constructedProgram fun _ => none).bind = .ok constructedBound := rfl

theorem Program.members_distinct_constructed :
    ∃ name : String → String,
      (constructedBound.program.rename .silent).classes =
        (constructedProgram fun _ => none).classes.map (.under name) ∧
      (∀ members ∈ (constructedBound.program.rename .silent).classes,
        members.methods.Nodup ∧ ∀ method ∈ members.methods, Naming.Usable method) ∧
      ∀ members ∈ (constructedProgram fun _ => none).classes, ∀ spelling ∈ members.methods,
        name spelling = "constructor" → Naming.Oracle.silent.Proposes spelling "constructor" :=
  Program.members_distinct constructedProgram_binds (.inr rfl) .silent

/-- Under an oracle that proposes it, the method becomes a second constructor of its class. -/
theorem Program.method_named_constructor :
    Program.ofTokens constructedTokens = .ok (constructedProgram fun _ => none) ∧
      (constructedProgram fun _ => none).bind = .ok constructedBound ∧
      (constructedBound.program.rename (.dictionary [("m", "constructor")])).classes =
        [⟨true, ["constructor"]⟩] ∧
      constructedBound.program.generate (.dictionary [("m", "constructor")]) 2 =
        "class var_1 \x7b\n  constructor() \x7b\n  \x7d\n  constructor() \x7b\n  \x7d\n\x7d" :=
  ⟨rfl, rfl, by decide +kernel, by decide +kernel⟩

end Qalam
