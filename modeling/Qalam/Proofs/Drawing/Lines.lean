/-
# Outlines without line feeds

Every label of an outline is one line of its drawing, if no name in the tree has a line feed in it.
Names are the only part of a tree that labels show as it is: strings are shown with escapes, and
numbers by their digits.
-/

import Qalam.Proofs.Drawing.Labels
import Qalam.Proofs.Printing.Brackets
import Qalam.Proofs.Structure.Nodes

namespace Qalam

/-- The name of a node, if it has one, has no line feed in it. -/
def Node.Unbroken (node : Node) : Prop := ∀ name, node.name? = some name → '\n' ∉ name.toList

namespace Outline

variable {outline first second : Outline} {forest others : List Outline}

theorem Unbroken.labelled {words : String} (plain : '\n' ∉ words.toList)
    (unbroken : outline.Unbroken) : (outline.labelled words).Unbroken := by
  cases unbroken with
  | node here below =>
      refine .node ?_ below
      rw [String.toList_append, List.mem_append, not_or]
      exact ⟨plain, here⟩

/-- A forest without line feeds in its labels. -/
def UnbrokenAll (forest : List Outline) : Prop := ∀ outline ∈ forest, outline.Unbroken

theorem Unbroken.above {label : String} (plain : '\n' ∉ label.toList)
    (below : UnbrokenAll forest) : (Outline.node label forest).Unbroken :=
  .node plain below

namespace UnbrokenAll

theorem nil : UnbrokenAll [] := List.forall_mem_nil _

theorem cons (here : first.Unbroken) (there : UnbrokenAll others) :
    UnbrokenAll (first :: others) :=
  List.forall_mem_cons.mpr ⟨here, there⟩

theorem append (here : UnbrokenAll forest) (there : UnbrokenAll others) :
    UnbrokenAll (forest ++ others) :=
  List.forall_mem_append.mpr ⟨here, there⟩

theorem one (unbroken : first.Unbroken) : UnbrokenAll [first] := .cons unbroken .nil

theorem two (here : first.Unbroken) (there : second.Unbroken) : UnbrokenAll [first, second] :=
  .cons here (.one there)

end UnbrokenAll

end Outline

namespace Drawing

open Outline (UnbrokenAll)

/-! ## Expressions -/

theorem literal_unbroken (value : Literal) : '\n' ∉ (literal value).toList := by
  cases value with
  | bool value => cases value <;> decide
  | number value =>
      have plain : '\n' ∉ value.text.toList := by
        cases value with
        | finite =>
            exact (Brackets.fragment_of_isNumber (EcmaScript.isNumber_positional _)).unbroken
        | infinite => decide
      simpa [literal] using plain
  | int value =>
      have number := Brackets.fragment_of_isNumber (EcmaScript.isNumber_digitText value)
      simpa [literal] using number.unbroken
  | str value => simpa [literal] using Text.display_unbroken value
  | null | undefined => decide

theorem named_unbroken {name : String} (plain : '\n' ∉ name.toList) (entity : Option EntityId)
    (note : Note) : (named none name entity note).Unbroken := by
  refine .above ?_ .nil
  simpa [typed] using plain

mutual

theorem expr_unbroken : ∀ {e : Expr}, (∀ node ∈ Nodes.expr e, node.Unbroken) →
    (expr none e).Unbroken
  | .literal note value, _ => .above (literal_unbroken value) .nil
  | .ident note name entity, plain =>
      named_unbroken (plain _ List.mem_cons_self name rfl) entity note
  | .call note callee args, plain => by
      simp only [Nodes.expr, List.forall_mem_cons, List.forall_mem_append] at plain
      rw [expr, typed_none]
      exact .above (by decide) (.two ((expr_unbroken plain.2.1).labelled (by decide))
        (.above (by decide) (exprs_unbroken plain.2.2)))
  | .this note field, plain => by
      rw [expr, typed_none]
      have named := plain (.field field) (by simp [Nodes.expr]) field.name rfl
      exact .above (by decide) (.one (named_unbroken named none field.note))
  | .new note target args, plain => by
      simp only [Nodes.expr, List.forall_mem_cons, List.forall_mem_append] at plain
      rw [expr, typed_none]
      exact .above (by decide) (.two ((expr_unbroken plain.2.1).labelled (by decide))
        (.above (by decide) (exprs_unbroken plain.2.2)))
  | .typeOf note operand, plain => by
      simp only [Nodes.expr, List.forall_mem_cons] at plain
      rw [expr, typed_none]
      exact .above (by decide) (.one (expr_unbroken plain.2))
  | .ternary note condition yes no, plain => by
      simp only [Nodes.expr, List.forall_mem_cons, List.forall_mem_append] at plain
      rw [expr, typed_none]
      exact .above (by decide) (.cons ((expr_unbroken plain.2.1).labelled (by decide))
        (.two ((expr_unbroken plain.2.2.1).labelled (by decide))
          ((expr_unbroken plain.2.2.2).labelled (by decide))))
  | .binary note op left right, plain => by
      simp only [Nodes.expr, List.forall_mem_cons, List.forall_mem_append] at plain
      have label : '\n' ∉ ("Binary(" ++ op.text ++ ")").toList := by cases op <;> decide
      rw [expr, typed_none]
      exact .above label (.two (expr_unbroken plain.2.1) (expr_unbroken plain.2.2))
  | .unary note op side operand, plain => by
      simp only [Nodes.expr, List.forall_mem_cons] at plain
      have label : '\n' ∉ ("Unary(" ++ fixity side ++ " " ++ op.text ++ ")").toList := by
        cases side <;> cases op <;> decide
      rw [expr, typed_none]
      exact .above label (.one (expr_unbroken plain.2))
  | .array note elements, plain => by
      simp only [Nodes.expr, List.forall_mem_cons] at plain
      rw [expr, typed_none]
      exact .above (by decide) (exprs_unbroken plain.2)
  | .object note entries, plain => by
      simp only [Nodes.expr, List.forall_mem_cons] at plain
      rw [expr, typed_none]
      exact .above (by decide) (pairs_unbroken plain.2)
  | .member note base index, plain => by
      simp only [Nodes.expr, List.forall_mem_cons, List.forall_mem_append] at plain
      rw [expr, typed_none]
      exact .above (by decide) (.two ((expr_unbroken plain.2.1).labelled (by decide))
        ((expr_unbroken plain.2.2).labelled (by decide)))
  | .property note base field, plain => by
      simp only [Nodes.expr, List.forall_mem_cons] at plain
      have named := named_unbroken (plain.2.1 field.name rfl) none field.note
      rw [expr, typed_none]
      exact .above (by decide) (.two ((expr_unbroken plain.2.2).labelled (by decide))
        (named.labelled (by decide)))

theorem exprs_unbroken : ∀ {es : List Expr}, (∀ node ∈ Nodes.exprs es, node.Unbroken) →
    UnbrokenAll (exprs none es)
  | [], _ => .nil
  | e :: others, plain => by
      rw [Nodes.exprs, List.forall_mem_append] at plain
      exact .cons (expr_unbroken plain.1) (exprs_unbroken plain.2)

theorem pair_unbroken : ∀ {entry : Pair}, (∀ node ∈ Nodes.pair entry, node.Unbroken) →
    (pair none entry).Unbroken
  | .mk pos key value canonical, plain => by
      simp only [Nodes.pair, List.forall_mem_cons, List.forall_mem_append] at plain
      exact .above (by decide) (.two ((expr_unbroken plain.2.1).labelled (by decide))
        ((expr_unbroken plain.2.2).labelled (by decide)))

theorem pairs_unbroken : ∀ {entries : List Pair}, (∀ node ∈ Nodes.pairs entries, node.Unbroken) →
    UnbrokenAll (pairs none entries)
  | [], _ => .nil
  | entry :: others, plain => by
      rw [Nodes.pairs, List.forall_mem_append] at plain
      exact .cons (pair_unbroken plain.1) (pairs_unbroken plain.2)

end

/-! ## Statements -/

theorem optional_unbroken {value : Option Expr}
    (plain : ∀ node ∈ Nodes.optional value, node.Unbroken) :
    UnbrokenAll (value.toList.map (expr none)) := by
  cases value with
  | none => exact .nil
  | some e => exact .one (expr_unbroken plain)

theorem declarator_unbroken {entry : Binding × Option Expr}
    (plain : ∀ node ∈ Nodes.declarator entry, node.Unbroken) :
    (declarator none entry).Unbroken := by
  rw [Nodes.declarator, List.forall_mem_cons] at plain
  exact .above (plain.1 _ rfl) (optional_unbroken plain.2)

theorem params_unbroken {parameters : List Parameter}
    (plain : ∀ node ∈ parameters.map Node.parameter, node.Unbroken) :
    (params none parameters).Unbroken := by
  rw [List.forall_mem_map] at plain
  refine .above (by decide) (List.forall_mem_map.mpr fun param mem => ?_)
  exact named_unbroken (plain param mem _ rfl) _ _

/-- A name behind words. -/
theorem announced {words name : String} (plain : '\n' ∉ words.toList)
    (plain' : '\n' ∉ name.toList) : '\n' ∉ (words ++ name).toList := by
  rw [String.toList_append, List.mem_append, not_or]
  exact ⟨plain, plain'⟩

mutual

theorem statement_unbroken : ∀ {s : Statement}, (∀ node ∈ Nodes.statement s, node.Unbroken) →
    (statement none s).Unbroken
  | .declare pos constant name init, plain => by
      simp only [Nodes.statement, Nodes.declarator, List.forall_mem_cons] at plain
      have words : '\n' ∉ (declarationKind constant ++ ": ").toList := by cases constant <;> decide
      exact .above (announced words (plain.2.1 _ rfl)) (optional_unbroken plain.2.2)
  | .declareAll pos constant entries, plain => by
      simp only [Nodes.statement, List.forall_mem_cons, List.forall_mem_flatMap] at plain
      have words : '\n' ∉ ("Multi" ++ declarationKind constant).toList := by
        cases constant <;> decide
      exact .above words (List.forall_mem_map.mpr fun entry mem =>
        declarator_unbroken (plain.2 entry mem))
  | .assign pos target value, plain => by
      simp only [Nodes.statement, List.forall_mem_cons, List.forall_mem_append] at plain
      exact .above (by decide) (.two ((expr_unbroken plain.2.1).labelled (by decide))
        ((expr_unbroken plain.2.2).labelled (by decide)))
  | .tryCatch pos body name handler, plain => by
      simp only [Nodes.statement, List.forall_mem_cons, List.forall_mem_append] at plain
      exact .above (by decide) (.two (block_unbroken (by decide) plain.2.2.1)
        (block_unbroken (announced (by decide) (plain.2.1 _ rfl)) plain.2.2.2))
  | .classDef pos name (some initialiser) bodyPos methods, plain => by
      simp only [Nodes.statement, List.forall_mem_cons, List.forall_mem_append] at plain
      exact .above (announced (by decide) (plain.2.1 _ rfl))
        (.cons (constructor_unbroken plain.2.2.1) (functions_unbroken plain.2.2.2))
  | .classDef pos name none bodyPos methods, plain => by
      simp only [Nodes.statement, List.forall_mem_cons] at plain
      exact .above (announced (by decide) (plain.2.1 _ rfl)) (functions_unbroken plain.2.2)
  | .function declared, plain => by
      rw [Nodes.statement, List.forall_mem_cons] at plain
      exact function_unbroken (by decide) plain.2
  | .ifElse pos alternatives (some otherwise), plain => by
      simp only [Nodes.statement, List.forall_mem_cons, List.forall_mem_append] at plain
      exact .above (by decide) ((arms_unbroken (by decide) (by decide) plain.2.1).append
        (.one (block_unbroken (by decide) plain.2.2)))
  | .ifElse pos alternatives none, plain => by
      rw [Nodes.statement, List.forall_mem_cons] at plain
      exact .above (by decide) (arms_unbroken (by decide) (by decide) plain.2)
  | .whileLoop pos condition body, plain => by
      simp only [Nodes.statement, List.forall_mem_cons, List.forall_mem_append] at plain
      exact .above (by decide) (.two ((expr_unbroken plain.2.1).labelled (by decide))
        (block_unbroken (by decide) plain.2.2))
  | .forLoop pos name init condition step body, plain => by
      simp only [Nodes.statement, List.forall_mem_cons, List.forall_mem_append] at plain
      exact .above (announced (by decide) (plain.2.1 _ rfl))
        (.cons ((expr_unbroken plain.2.2.1).labelled (by decide))
          (.cons ((expr_unbroken plain.2.2.2.1).labelled (by decide))
            (.two ((expr_unbroken plain.2.2.2.2.1).labelled (by decide))
              (block_unbroken (by decide) plain.2.2.2.2.2))))
  | .forOf pos name iterable body, plain => by
      simp only [Nodes.statement, List.forall_mem_cons, List.forall_mem_append] at plain
      exact .above (announced (by decide) (plain.2.1 _ rfl))
        (.two ((expr_unbroken plain.2.2.1).labelled (by decide))
          (block_unbroken (by decide) plain.2.2.2))
  | .switch pos selector alternatives (some otherwise), plain => by
      simp only [Nodes.statement, List.forall_mem_cons, List.forall_mem_append] at plain
      exact .above (by decide) (.append (.cons ((expr_unbroken plain.2.1).labelled (by decide))
        (arms_unbroken (by decide) (by decide) plain.2.2.1))
          (.one (block_unbroken (by decide) plain.2.2.2)))
  | .switch pos selector alternatives none, plain => by
      simp only [Nodes.statement, List.forall_mem_cons, List.forall_mem_append] at plain
      exact .above (by decide) (.cons ((expr_unbroken plain.2.1).labelled (by decide))
        (arms_unbroken (by decide) (by decide) plain.2.2))
  | .returns pos value, plain => by
      rw [Nodes.statement, List.forall_mem_cons] at plain
      exact .above (by decide) (optional_unbroken plain.2)
  | .print pos argument, plain => by
      rw [Nodes.statement, List.forall_mem_cons] at plain
      exact .above (by decide) (.one (expr_unbroken plain.2))
  | .breakLoop _, _ | .continueLoop _, _ => .above (by decide) .nil
  | .expr pos e, plain => by
      rw [Nodes.statement, List.forall_mem_cons] at plain
      exact .above (by decide) (.one (expr_unbroken plain.2))

theorem statements_unbroken : ∀ {body : List Statement},
    (∀ node ∈ Nodes.statements body, node.Unbroken) → UnbrokenAll (statements none body)
  | [], _ => .nil
  | first :: others, plain => by
      rw [Nodes.statements, List.forall_mem_append] at plain
      exact .cons (statement_unbroken plain.1) (statements_unbroken plain.2)

theorem block_unbroken {words : String} (label : '\n' ∉ words.toList) : ∀ {body : Block},
    (∀ node ∈ Nodes.block body, node.Unbroken) → (block none words body).Unbroken
  | .mk pos body, plain => by
      rw [Nodes.block, List.forall_mem_cons] at plain
      exact .above label (statements_unbroken plain.2)

theorem function_unbroken {kind : String} (label : '\n' ∉ kind.toList) : ∀ {declared : Function},
    (∀ node ∈ Nodes.function declared, node.Unbroken) → (function none kind declared).Unbroken
  | .mk pos name parameters body, plain => by
      simp only [Nodes.function, List.forall_mem_cons, List.forall_mem_append] at plain
      exact .above (announced (announced label (by decide)) (plain.2.1 _ rfl))
        (.two (params_unbroken plain.2.2.1) (block_unbroken (by decide) plain.2.2.2))

theorem functions_unbroken : ∀ {members : List Function},
    (∀ node ∈ Nodes.functions members, node.Unbroken) → UnbrokenAll (functions none members)
  | [], _ => .nil
  | first :: others, plain => by
      rw [Nodes.functions, List.forall_mem_append] at plain
      exact .cons (function_unbroken (by decide) plain.1) (functions_unbroken plain.2)

theorem constructor_unbroken : ∀ {initialiser : Constructor},
    (∀ node ∈ Nodes.constructor initialiser, node.Unbroken) →
    (constructor none initialiser).Unbroken
  | .mk pos parameters body, plain => by
      simp only [Nodes.constructor, List.forall_mem_cons, List.forall_mem_append] at plain
      exact .above (by decide)
        (.two (params_unbroken plain.2.1) (block_unbroken (by decide) plain.2.2))

theorem arms_unbroken {test words : String} (label : '\n' ∉ test.toList)
    (label' : '\n' ∉ words.toList) : ∀ {alternatives : List Arm},
    (∀ node ∈ Nodes.arms alternatives, node.Unbroken) →
    UnbrokenAll (arms none test words alternatives)
  | [], _ => .nil
  | first :: others, plain => by
      rw [Nodes.arms, List.forall_mem_append] at plain
      exact .cons (arm_unbroken label label' plain.1) (arms_unbroken label label' plain.2)

theorem arm_unbroken {test words : String} (label : '\n' ∉ test.toList)
    (label' : '\n' ∉ words.toList) : ∀ {alternative : Arm},
    (∀ node ∈ Nodes.arm alternative, node.Unbroken) → (arm none test words alternative).Unbroken
  | .mk pos condition body, plain => by
      simp only [Nodes.arm, List.forall_mem_cons, List.forall_mem_append] at plain
      exact .above (by decide) (.two ((expr_unbroken plain.2.1).labelled label)
        (block_unbroken label' plain.2.2))

end

end Drawing

end Qalam
