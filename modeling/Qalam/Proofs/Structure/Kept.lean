/-
# What analysis leaves alone

Analysis writes tags, entities and canonical keys into a tree and nothing else. Strip the bound
tree of them, and what is left is the tree that was analysed, stripped as well: names, operators,
constants, positions and the order of everything are the same. The keys of an object literal are
recorded by the texts by which they are compared, and the check that these differ has been passed.
-/

import Qalam.Proofs.Structure.Checked
import Qalam.Proofs.Structure.Relabel

namespace Qalam

open Relabel

/-- The recorded key of an entry. -/
def Pair.canonical : Pair → Option String
  | .mk _ _ _ canonical => canonical

/-- Every entry of an object literal records the text of its key, and no two texts are the same. -/
def Expr.Keyed : Expr → Prop
  | .object _ entries =>
    (∀ entry ∈ entries, entry.canonical = some entry.key.keyText) ∧
      (entries.map fun entry => entry.key.keyText).Nodup
  | _ => True

/-- What a bound part of a tree has in common with the part it was made from, and what is recorded
in it. -/
structure Kept {α : Type} (stripped : α → α) (parts : α → List Expr) (original bound : α) :
    Prop where
  same : stripped bound = stripped original
  keyed : ∀ x ∈ parts bound, x.Keyed

/-- The text of a key does not depend on what binding adds. -/
theorem Relabel.keyText_strip (e : Expr) : (strip.expr e).keyText = e.keyText := by
  cases e with
  | literal note value => cases value <;> rfl
  | _ => rfl

/-- Keys that are the same but for what binding adds are compared by the same text. -/
theorem keyText_of_strip {e bound : Expr} (same : strip.expr bound = strip.expr e) :
    bound.keyText = e.keyText := by
  rw [← keyText_strip bound, same, keyText_strip]

theorem Relabel.strip_withTag (tag : Tag) (e : Expr) :
    strip.expr (e.withTag tag) = strip.expr e := by
  cases e <;> rfl

/-- The tag of a target is of no importance for the keys inside it. -/
theorem keyed_withTag {e : Expr} (keyed : ∀ x ∈ Parts.expr e, x.Keyed) (tag : Tag) :
    ∀ x ∈ Parts.expr (e.withTag tag), x.Keyed := by
  cases e with
  | literal | this | ident =>
      rw [Expr.withTag, Parts.expr, List.forall_mem_singleton]
      exact trivial
  | _ =>
      rw [Parts.expr, List.forall_mem_cons] at keyed
      rw [Expr.withTag, Parts.expr, List.forall_mem_cons]
      exact keyed

namespace Analysis.Yields

/-- The new key differs from those before it, and is one of them from now on. -/
theorem distinctKey (seen : List String) (entry : Pair) :
    Yields (Analysis.distinctKey seen entry) fun longer =>
      entry.key.keyText ∉ seen ∧ longer = entry.key.keyText :: seen := by
  intro context longer final runs
  obtain ⟨pos, key, value, canonical⟩ := entry
  by_cases known : key.keyText ∈ seen
  · rw [Analysis.distinctKey, if_pos known] at runs
    cases runs
  · rw [Analysis.distinctKey, if_neg known] at runs
    cases runs
    exact ⟨known, rfl⟩

end Analysis.Yields

namespace Kept

open Analysis (Yields)

/-- What is kept of a whole, from what is kept of its parts. -/
theorem of_expr {e bound : Expr} {inside : List Expr} (parts : Parts.expr bound = bound :: inside)
    (same : strip.expr bound = strip.expr e) (here : bound.Keyed) (there : ∀ x ∈ inside, x.Keyed) :
    Kept strip.expr Parts.expr e bound := by
  refine ⟨same, ?_⟩
  rw [parts, List.forall_mem_cons]
  exact ⟨here, there⟩

mutual

theorem expr : ∀ e : Expr, Yields (Analysis.expr e) (Kept strip.expr Parts.expr e)
  | .literal note value => by
      rw [Analysis.expr]
      exact Yields.pure (of_expr rfl rfl trivial (by simp))
  | .ident note name entity => by
      rw [Analysis.expr]
      refine Yields.after _ fun found => ?_
      exact Yields.pure (of_expr rfl rfl trivial (by simp))
  | .call note callee args => by
      rw [Analysis.expr]
      refine (expr callee).bind fun bound first => ?_
      refine Yields.after _ fun _ => ?_
      refine (exprs args).map fun others second => ?_
      refine of_expr rfl ?_ trivial (List.forall_mem_append.mpr ⟨first.keyed, second.keyed⟩)
      rw [Relabel.expr, first.same, second.same]
      rfl
  | .this note name => by
      rw [Analysis.expr]
      refine Yields.after _ fun _ => ?_
      exact Yields.pure (of_expr rfl rfl trivial (by simp))
  | .new note target args => by
      rw [Analysis.expr]
      refine (expr target).bind fun bound first => ?_
      refine Yields.after _ fun _ => ?_
      refine (exprs args).map fun others second => ?_
      refine of_expr rfl ?_ trivial (List.forall_mem_append.mpr ⟨first.keyed, second.keyed⟩)
      rw [Relabel.expr, first.same, second.same]
      rfl
  | .typeOf note operand => by
      rw [Analysis.expr]
      refine (expr operand).map fun bound inner => ?_
      refine of_expr rfl ?_ trivial inner.keyed
      rw [Relabel.expr, inner.same]
      rfl
  | .ternary note condition yes no => by
      rw [Analysis.expr]
      refine (expr condition).bind fun test first => ?_
      refine Yields.after _ fun _ => ?_
      refine (expr yes).bind fun left second => ?_
      refine (expr no).map fun right third => ?_
      refine of_expr rfl ?_ trivial ?_
      · rw [Relabel.expr, first.same, second.same, third.same]
        rfl
      · rw [List.forall_mem_append, List.forall_mem_append]
        exact ⟨first.keyed, second.keyed, third.keyed⟩
  | .binary note op left right => by
      rw [Analysis.expr]
      refine (expr left).bind fun boundLeft first => ?_
      refine (expr right).bind fun boundRight second => ?_
      refine Yields.after _ fun tag => ?_
      refine Yields.pure ?_
      refine of_expr rfl ?_ trivial (List.forall_mem_append.mpr ⟨first.keyed, second.keyed⟩)
      rw [Relabel.expr, first.same, second.same]
      rfl
  | .unary note op side operand => by
      rw [Analysis.expr]
      refine (expr operand).bind fun bound inner => ?_
      refine Yields.after _ fun tag => ?_
      refine Yields.pure ?_
      refine of_expr rfl ?_ trivial inner.keyed
      rw [Relabel.expr, inner.same]
      rfl
  | .array note elements => by
      rw [Analysis.expr]
      refine (exprs elements).map fun bound inner => ?_
      refine of_expr rfl ?_ trivial inner.keyed
      rw [Relabel.expr, inner.same]
      rfl
  | .object note entries => by
      rw [Analysis.expr]
      refine (pairs [] entries).map fun bound ⟨inner, recorded, distinct, _⟩ => ?_
      refine of_expr rfl ?_ ⟨recorded, distinct⟩ inner.keyed
      rw [Relabel.expr, inner.same]
      rfl
  | .member note base index => by
      rw [Analysis.expr]
      refine (expr base).bind fun boundBase first => ?_
      refine Yields.after _ fun _ => ?_
      refine (expr index).bind fun boundIndex second => ?_
      have whole : Kept strip.expr Parts.expr (.member note base index)
          (.member { note with tag := some .any } boundBase boundIndex) := by
        refine of_expr rfl ?_ trivial (List.forall_mem_append.mpr ⟨first.keyed, second.keyed⟩)
        rw [Relabel.expr, first.same, second.same]
        rfl
      dsimp only
      split
      · exact Yields.after _ fun _ => Yields.pure whole
      · exact Yields.pure whole
  | .property note base name => by
      rw [Analysis.expr]
      refine (expr base).bind fun bound inner => ?_
      refine Yields.after _ fun _ => ?_
      refine Yields.pure ?_
      refine of_expr rfl ?_ trivial inner.keyed
      rw [Relabel.expr, inner.same]
      rfl

theorem exprs : ∀ es : List Expr, Yields (Analysis.exprs es) (Kept strip.exprs Parts.exprs es)
  | [] => Yields.pure ⟨rfl, by simp [Parts.exprs]⟩
  | e :: others => by
      rw [Analysis.exprs]
      refine (expr e).bind fun bound first => ?_
      refine (exprs others).map fun rest second => ?_
      constructor
      · rw [Relabel.exprs, first.same, second.same]
        rfl
      · rw [Parts.exprs, List.forall_mem_append]
        exact ⟨first.keyed, second.keyed⟩

theorem pair : ∀ entry : Pair, Yields (Analysis.pair entry) fun bound =>
    Kept strip.pair Parts.pair entry bound ∧ bound.canonical = some bound.key.keyText
  | .mk pos key value canonical => by
      by_cases plain : Parts.isName key = true
      · -- a plain name as a key is not an expression, so nothing is inside it
        cases key with
        | ident note name entity =>
            rw [Analysis.pair, pure_bind]
            refine (expr value).map fun bound inner => ?_
            refine ⟨⟨?_, inner.keyed⟩, rfl⟩
            rw [Relabel.pair, inner.same]
            rfl
        | _ => cases plain
      · rw [Analysis.pair]
        · refine (expr key).bind fun boundKey first => ?_
          refine (expr value).map fun boundValue second => ?_
          refine ⟨⟨?_, ?_⟩, rfl⟩
          · rw [Relabel.pair, first.same, second.same]
            rfl
          · have shape := congrArg Parts.isName first.same
            rw [isName_expr, isName_expr] at shape
            rw [Parts.pair, shape, if_neg plain, List.forall_mem_append]
            exact ⟨first.keyed, second.keyed⟩
        · rintro note name entity rfl
          exact plain rfl

theorem pairs : ∀ (seen : List String) (entries : List Pair),
    Yields (Analysis.pairs seen entries) fun bound =>
      Kept strip.pairs Parts.pairs entries bound ∧
        (∀ entry ∈ bound, entry.canonical = some entry.key.keyText) ∧
        (bound.map fun entry => entry.key.keyText).Nodup ∧
        ∀ entry ∈ bound, entry.key.keyText ∉ seen
  | seen, [] => Yields.pure ⟨⟨rfl, by simp [Parts.pairs]⟩, by simp, by simp, by simp⟩
  | seen, entry :: others => by
      rw [Analysis.pairs]
      refine (pair entry).bind fun first ⟨here, recorded⟩ => ?_
      refine (Yields.distinctKey seen first).bind ?_
      rintro _ ⟨fresh, rfl⟩
      refine (pairs _ others).map fun rest ⟨there, recorded', distinct, apart⟩ => ?_
      refine ⟨⟨?_, ?_⟩, List.forall_mem_cons.mpr ⟨recorded, recorded'⟩, ?_, ?_⟩
      · rw [Relabel.pairs, here.same, there.same]
        rfl
      · rw [Parts.pairs, List.forall_mem_append]
        exact ⟨here.keyed, there.keyed⟩
      · rw [List.map_cons, List.nodup_cons]
        refine ⟨?_, distinct⟩
        intro listed
        obtain ⟨later, mem, same⟩ := List.mem_map.mp listed
        exact apart later mem (same ▸ List.mem_cons_self)
      · rw [List.forall_mem_cons]
        exact ⟨fresh, fun later mem known => apart later mem (List.mem_cons_of_mem _ known)⟩

end

/-! ## Statements -/

theorem optional : ∀ value : Option Expr, Yields (Analysis.optional value) fun bound =>
    Kept (Option.map strip.expr) Parts.optional value bound.1
  | some e => by
      refine (expr e).map fun bound inner => ?_
      exact ⟨congrArg some inner.same, inner.keyed⟩
  | none => Yields.pure ⟨rfl, by simp [Parts.optional]⟩

/-- A declared name keeps its spelling and its place. -/
theorem declareBinding (name : Binding) (entity : Entity) :
    Yields (Analysis.declareBinding name entity) fun bound =>
      strip.binding bound = strip.binding name :=
  Yields.after _ fun _ => Yields.pure rfl

theorem declarator (constant : Bool) (name : Binding) (init : Option Expr) :
    Yields (Analysis.declarator constant name init) fun bound =>
      strip.declarator bound = strip.declarator (name, init) ∧
        ∀ x ∈ Parts.optional bound.2, x.Keyed := by
  refine (optional init).bind fun found inner => ?_
  refine (declareBinding name _).map fun bound declared => ?_
  refine ⟨?_, inner.keyed⟩
  rw [Relabel.declarator, declared, inner.same]
  rfl

theorem declarators (constant : Bool) : ∀ entries : List (Binding × Option Expr),
    Yields (Analysis.declarators constant entries)
      (Kept (List.map strip.declarator) (List.flatMap fun entry => Parts.optional entry.2) entries)
  | [] => Yields.pure ⟨rfl, by simp⟩
  | (name, init) :: others => by
      rw [Analysis.declarators]
      refine (declarator constant name init).bind fun first here => ?_
      refine (declarators constant others).map fun rest there => ?_
      constructor
      · rw [List.map_cons, here.1, there.same]
        rfl
      · rw [List.flatMap_cons, List.forall_mem_append]
        exact ⟨here.2, there.keyed⟩

theorem parameters : ∀ params : List Parameter,
    Yields (Analysis.parameters params) fun bound =>
      bound.map strip.parameter = params.map strip.parameter
  | [] => Yields.pure rfl
  | param :: others => by
      rw [Analysis.parameters]
      have first : Yields (Analysis.parameter param) fun bound =>
          strip.parameter bound = strip.parameter param :=
        Yields.after _ fun _ => Yields.pure rfl
      refine first.bind fun bound here => ?_
      refine (parameters others).map fun rest there => ?_
      rw [List.map_cons, List.map_cons, here, there]

mutual

theorem statement : ∀ s : Statement,
    Yields (Analysis.statement s) (Kept strip.statement Parts.statement s)
  | .declare pos constant name init => by
      rw [Analysis.statement]
      refine (declarator constant name init).map ?_
      rintro ⟨boundName, boundInit⟩ ⟨same, keyed⟩
      obtain ⟨sameName, sameInit⟩ := Prod.mk.inj same
      refine ⟨?_, keyed⟩
      rw [Relabel.statement, Relabel.statement, sameName, sameInit]
  | .declareAll pos constant entries => by
      rw [Analysis.statement]
      refine (declarators constant entries).map fun bound inner => ?_
      refine ⟨?_, inner.keyed⟩
      rw [Relabel.statement, Relabel.statement, inner.same]
  | .assign pos target value => by
      rw [Analysis.statement]
      refine (expr target).bind fun boundTarget first => ?_
      refine (expr value).bind fun boundValue second => ?_
      refine Yields.after _ fun _ => ?_
      refine Yields.after _ fun _ => ?_
      refine Yields.pure ?_
      constructor
      · rw [Relabel.statement, Relabel.statement, strip_withTag, first.same, second.same]
      · rw [Parts.statement, List.forall_mem_append]
        exact ⟨keyed_withTag first.keyed _, second.keyed⟩
  | .tryCatch pos body name handler => by
      rw [Analysis.statement]
      refine (blockIn id body).bind fun boundBody first => ?_
      refine Yields.after _ fun _ => ?_
      refine (declareBinding name _).bind fun boundName declared => ?_
      refine (blockHere handler).bind fun boundHandler second => ?_
      refine Yields.after _ fun _ => ?_
      refine Yields.pure ?_
      constructor
      · rw [Relabel.statement, Relabel.statement, first.same, declared, second.same]
      · rw [Parts.statement, List.forall_mem_append]
        exact ⟨first.keyed, second.keyed⟩
  | .classDef pos name (some initialiser) bodyPos methods => by
      rw [Analysis.statement]
      refine Yields.after _ fun declared => ?_
      refine Yields.after _ fun _ => ?_
      refine (constructor initialiser).present.bind ?_
      rintro _ ⟨boundInitialiser, rfl, first⟩
      refine (functions methods).bind fun boundMethods second => ?_
      refine Yields.after _ fun _ => ?_
      refine Yields.pure ?_
      constructor
      · rw [Relabel.statement, Relabel.statement, first.same, second.same]
        rfl
      · rw [Parts.statement, List.forall_mem_append]
        exact ⟨first.keyed, second.keyed⟩
  | .classDef pos name none bodyPos methods => by
      rw [Analysis.statement]
      refine Yields.after _ fun declared => ?_
      refine Yields.after _ fun _ => ?_
      dsimp only
      rw [pure_bind]
      refine (functions methods).bind fun boundMethods inner => ?_
      refine Yields.after _ fun _ => ?_
      refine Yields.pure ?_
      refine ⟨?_, inner.keyed⟩
      rw [Relabel.statement, Relabel.statement, inner.same]
      rfl
  | .function declared => by
      rw [Analysis.statement]
      refine (function declared).map fun bound inner => ?_
      refine ⟨?_, inner.keyed⟩
      rw [Relabel.statement, Relabel.statement, inner.same]
  | .ifElse pos alternatives (some otherwise) => by
      rw [Analysis.statement]
      refine (ifArms alternatives).bind fun bound first => ?_
      refine (blockIn id otherwise).present.bind ?_
      rintro _ ⟨boundOtherwise, rfl, second⟩
      refine Yields.pure ?_
      constructor
      · rw [Relabel.statement, Relabel.statement, first.same, second.same]
      · rw [Parts.statement, List.forall_mem_append]
        exact ⟨first.keyed, second.keyed⟩
  | .ifElse pos alternatives none => by
      rw [Analysis.statement]
      refine (ifArms alternatives).bind fun bound inner => ?_
      dsimp only
      rw [pure_bind]
      refine Yields.pure ?_
      refine ⟨?_, inner.keyed⟩
      rw [Relabel.statement, Relabel.statement, inner.same]
  | .whileLoop pos condition body => by
      rw [Analysis.statement]
      refine (expr condition).bind fun test first => ?_
      refine Yields.after _ fun _ => ?_
      refine (blockIn _ body).map fun inner second => ?_
      constructor
      · rw [Relabel.statement, Relabel.statement, first.same, second.same]
      · rw [Parts.statement, List.forall_mem_append]
        exact ⟨first.keyed, second.keyed⟩
  | .forLoop pos name init condition step body => by
      rw [Analysis.statement]
      refine Yields.after _ fun _ => ?_
      refine (expr init).bind fun boundInit first => ?_
      refine (declareBinding name _).bind fun boundName declared => ?_
      refine (expr condition).bind fun test second => ?_
      refine Yields.after _ fun _ => ?_
      refine (expr step).bind fun boundStep third => ?_
      refine (blockIn id body).bind fun boundBody inner => ?_
      refine Yields.after _ fun _ => ?_
      refine Yields.pure ?_
      constructor
      · rw [Relabel.statement, Relabel.statement, declared, first.same, second.same, third.same,
          inner.same]
      · simp only [Parts.statement, List.forall_mem_append]
        exact ⟨first.keyed, second.keyed, third.keyed, inner.keyed⟩
  | .forOf pos name iterable body => by
      rw [Analysis.statement]
      refine (expr iterable).bind fun boundIterable first => ?_
      refine Yields.after _ fun _ => ?_
      refine Yields.after _ fun _ => ?_
      refine (declareBinding name _).bind fun boundName declared => ?_
      refine (blockHere body).bind fun boundBody second => ?_
      refine Yields.after _ fun _ => ?_
      refine Yields.pure ?_
      constructor
      · rw [Relabel.statement, Relabel.statement, declared, first.same, second.same]
      · rw [Parts.statement, List.forall_mem_append]
        exact ⟨first.keyed, second.keyed⟩
  | .switch pos selector alternatives (some otherwise) => by
      rw [Analysis.statement]
      refine (expr selector).bind fun boundSelector first => ?_
      refine (switchArms alternatives).bind fun bound second => ?_
      refine (blockIn _ otherwise).present.bind ?_
      rintro _ ⟨boundOtherwise, rfl, third⟩
      refine Yields.pure ?_
      constructor
      · rw [Relabel.statement, Relabel.statement, first.same, second.same, third.same]
      · simp only [Parts.statement, List.forall_mem_append]
        exact ⟨first.keyed, second.keyed, third.keyed⟩
  | .switch pos selector alternatives none => by
      rw [Analysis.statement]
      refine (expr selector).bind fun boundSelector first => ?_
      refine (switchArms alternatives).bind fun bound second => ?_
      dsimp only
      rw [pure_bind]
      refine Yields.pure ?_
      constructor
      · rw [Relabel.statement, Relabel.statement, first.same, second.same]
      · rw [Parts.statement, List.forall_mem_append]
        exact ⟨first.keyed, second.keyed⟩
  | .returns pos (some value) => by
      rw [Analysis.statement]
      refine Yields.after _ fun _ => ?_
      refine (expr value).map fun bound inner => ?_
      refine ⟨?_, inner.keyed⟩
      rw [Relabel.statement, Relabel.statement, Option.map_some, Option.map_some, inner.same]
  | .returns pos none => by
      rw [Analysis.statement]
      refine Yields.after _ fun _ => ?_
      exact Yields.pure ⟨rfl, by simp [Parts.statement, Parts.optional]⟩
  | .print pos argument => by
      rw [Analysis.statement]
      refine (expr argument).map fun bound inner => ?_
      refine ⟨?_, inner.keyed⟩
      rw [Relabel.statement, Relabel.statement, inner.same]
  | .breakLoop pos => by
      rw [Analysis.statement]
      exact Yields.after _ fun _ => Yields.pure ⟨rfl, by simp [Parts.statement]⟩
  | .continueLoop pos => by
      rw [Analysis.statement]
      exact Yields.after _ fun _ => Yields.pure ⟨rfl, by simp [Parts.statement]⟩
  | .expr pos e => by
      rw [Analysis.statement]
      refine (expr e).map fun bound inner => ?_
      refine ⟨?_, inner.keyed⟩
      rw [Relabel.statement, Relabel.statement, inner.same]

theorem statements : ∀ body : List Statement,
    Yields (Analysis.statements body) (Kept strip.statements Parts.statements body)
  | [] => Yields.pure ⟨rfl, by simp [Parts.statements]⟩
  | first :: others => by
      rw [Analysis.statements]
      refine (statement first).bind fun boundFirst here => ?_
      refine (statements others).map fun rest there => ?_
      constructor
      · rw [Relabel.statements, Relabel.statements, here.same, there.same]
      · rw [Parts.statements, List.forall_mem_append]
        exact ⟨here.keyed, there.keyed⟩

theorem blockHere : ∀ body : Block,
    Yields (Analysis.blockHere body) (Kept strip.block Parts.block body)
  | .mk pos body => by
      rw [Analysis.blockHere]
      refine (statements body).map fun bound inner => ?_
      refine ⟨?_, inner.keyed⟩
      rw [Relabel.block, Relabel.block, inner.same]

theorem blockIn (adjust : Surroundings → Surroundings) : ∀ body : Block,
    Yields (Analysis.blockIn adjust body) (Kept strip.block Parts.block body)
  | .mk pos body => by
      rw [Analysis.blockIn]
      refine Yields.after _ fun _ => ?_
      refine (statements body).bind fun bound inner => ?_
      refine Yields.after _ fun _ => ?_
      refine Yields.pure ?_
      refine ⟨?_, inner.keyed⟩
      rw [Relabel.block, Relabel.block, inner.same]

theorem function : ∀ declared : Function,
    Yields (Analysis.function declared) (Kept strip.function Parts.function declared)
  | .mk pos name params body => by
      rw [Analysis.function]
      refine Yields.after _ fun id => ?_
      refine Yields.after _ fun _ => ?_
      refine (parameters params).bind fun boundParams named => ?_
      refine (blockHere body).bind fun bound inner => ?_
      refine Yields.after _ fun _ => ?_
      refine Yields.pure ?_
      refine ⟨?_, inner.keyed⟩
      rw [Relabel.function, Relabel.function, named, inner.same]
      rfl

theorem functions : ∀ members : List Function,
    Yields (Analysis.functions members) (Kept strip.functions Parts.functions members)
  | [] => Yields.pure ⟨rfl, by simp [Parts.functions]⟩
  | first :: others => by
      rw [Analysis.functions]
      refine (function first).bind fun boundFirst here => ?_
      refine (functions others).map fun rest there => ?_
      constructor
      · rw [Relabel.functions, Relabel.functions, here.same, there.same]
      · rw [Parts.functions, List.forall_mem_append]
        exact ⟨here.keyed, there.keyed⟩

theorem constructor : ∀ initialiser : Constructor,
    Yields (Analysis.constructor initialiser) (Kept strip.constructor Parts.constructor initialiser)
  | .mk pos params body => by
      rw [Analysis.constructor]
      refine Yields.after _ fun _ => ?_
      refine (parameters params).bind fun boundParams named => ?_
      refine (blockHere body).bind fun bound inner => ?_
      refine Yields.after _ fun _ => ?_
      refine Yields.pure ?_
      refine ⟨?_, inner.keyed⟩
      rw [Relabel.constructor, Relabel.constructor, named, inner.same]

theorem ifArms : ∀ alternatives : List Arm,
    Yields (Analysis.ifArms alternatives) (Kept strip.arms Parts.arms alternatives)
  | [] => Yields.pure ⟨rfl, by simp [Parts.arms]⟩
  | first :: others => by
      rw [Analysis.ifArms]
      refine (ifArm first).bind fun boundFirst here => ?_
      refine (ifArms others).map fun rest there => ?_
      constructor
      · rw [Relabel.arms, Relabel.arms, here.same, there.same]
      · rw [Parts.arms, List.forall_mem_append]
        exact ⟨here.keyed, there.keyed⟩

theorem ifArm : ∀ alternative : Arm,
    Yields (Analysis.ifArm alternative) (Kept strip.arm Parts.arm alternative)
  | .mk pos condition body => by
      rw [Analysis.ifArm]
      refine (expr condition).bind fun test first => ?_
      refine Yields.after _ fun _ => ?_
      refine (blockIn id body).map fun inner second => ?_
      constructor
      · rw [Relabel.arm, Relabel.arm, first.same, second.same]
      · rw [Parts.arm, List.forall_mem_append]
        exact ⟨first.keyed, second.keyed⟩

theorem switchArms : ∀ alternatives : List Arm,
    Yields (Analysis.switchArms alternatives) (Kept strip.arms Parts.arms alternatives)
  | [] => Yields.pure ⟨rfl, by simp [Parts.arms]⟩
  | first :: others => by
      rw [Analysis.switchArms]
      refine (switchArm first).bind fun boundFirst here => ?_
      refine (switchArms others).map fun rest there => ?_
      constructor
      · rw [Relabel.arms, Relabel.arms, here.same, there.same]
      · rw [Parts.arms, List.forall_mem_append]
        exact ⟨here.keyed, there.keyed⟩

theorem switchArm : ∀ alternative : Arm,
    Yields (Analysis.switchArm alternative) (Kept strip.arm Parts.arm alternative)
  | .mk pos test body => by
      rw [Analysis.switchArm]
      refine (expr test).bind fun bound first => ?_
      refine (blockIn _ body).map fun inner second => ?_
      constructor
      · rw [Relabel.arm, Relabel.arm, first.same, second.same]
      · rw [Parts.arm, List.forall_mem_append]
        exact ⟨first.keyed, second.keyed⟩

end

end Kept

end Qalam
