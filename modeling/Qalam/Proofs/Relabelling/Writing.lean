/-
# Generated text shows no records

The generated text shows the names, operators and constants of a tree. What is recorded beside these
does not appear in it, so it stays the same when all records are forgotten.
-/

import Qalam.JavaScript.Statement
import Qalam.Proofs.Structure.Relabel

namespace Qalam

namespace JavaScript

open Relabel (blank)

theorem asOperand_blank (e : Expr) (text : String) :
    asOperand (blank.expr e) text = asOperand e text := by
  cases e <;> rfl

mutual

theorem expr_blank : ∀ e : Expr, expr (blank.expr e) = expr e
  | .literal .. | .ident .. | .this .. => rfl
  | .call note callee args => by
      rw [Relabel.expr, expr, expr, asOperand_blank, expr_blank callee, list_blank _ args]
  | .new note target args => by
      rw [Relabel.expr, expr, expr, asOperand_blank, expr_blank target, list_blank _ args]
  | .typeOf note operand => by
      rw [Relabel.expr, expr, expr, asOperand_blank, expr_blank operand]
  | .ternary note condition yes no => by
      simp only [Relabel.expr, expr, asOperand_blank, expr_blank condition, expr_blank yes,
        expr_blank no]
  | .binary note op left right => by
      simp only [Relabel.expr, expr, asOperand_blank, expr_blank left, expr_blank right]
  | .unary note op .before operand | .unary note op .behind operand => by
      rw [Relabel.expr, expr, expr, asOperand_blank, expr_blank operand]
  | .array note elements => by rw [Relabel.expr, expr, expr, list_blank _ elements]
  | .object note entries => by rw [Relabel.expr, expr, expr, pairs_blank entries]
  | .member note base index => by
      rw [Relabel.expr, expr, expr, asOperand_blank, expr_blank base, expr_blank index]
  | .property note base field => by
      rw [Relabel.expr, expr, expr, asOperand_blank, expr_blank base]
      rfl

theorem list_blank (separator : String) : ∀ es : List Expr,
    list separator (blank.exprs es) = list separator es
  | [] => rfl
  | [last] => by simp only [Relabel.exprs, list, expr_blank last]
  | first :: next :: others => by
      have rest := list_blank separator (next :: others)
      rw [Relabel.exprs] at rest
      simp only [Relabel.exprs, list, expr_blank first, rest]

theorem pair_blank : ∀ entry : Pair, pair (blank.pair entry) = pair entry
  | .mk pos key value canonical => by
      rw [Relabel.pair, pair, pair, expr_blank key, expr_blank value]

theorem pairs_blank : ∀ entries : List Pair, pairs (blank.pairs entries) = pairs entries
  | [] => rfl
  | [last] => by simp only [Relabel.pairs, pairs, pair_blank last]
  | first :: next :: others => by
      have rest := pairs_blank (next :: others)
      rw [Relabel.pairs] at rest
      simp only [Relabel.pairs, pairs, pair_blank first, rest]

end

theorem declarator_blank (entry : Binding × Option Expr) :
    declarator (blank.declarator entry) = declarator entry := by
  obtain ⟨name, init⟩ := entry
  cases init with
  | none => rfl
  | some e => exact congrArg (name.name ++ " = " ++ ·) (expr_blank e)

theorem declaration_blank (constant : Bool) (name : Binding) (init : Option Expr) :
    declaration constant (blank.binding name) (init.map blank.expr) =
      declaration constant name init := by
  rw [declaration, declaration, ← declarator_blank (name, init), Option.isNone_map]
  rfl

theorem params_blank (parameters : List Parameter) :
    params (parameters.map blank.parameter) = params parameters := by
  rw [params, params, List.map_map]
  rfl

mutual

theorem statement_blank (margin : Margin) : ∀ s : Statement,
    statement margin (blank.statement s) = statement margin s
  | .declare pos constant name init => by
      rw [Relabel.statement, statement, statement, declaration_blank]
  | .declareAll pos constant entries => by
      rw [Relabel.statement, statement, statement, List.map_map,
        show declarator ∘ blank.declarator = declarator from funext (declarator_blank)]
  | .assign pos target value => by
      rw [Relabel.statement, statement, statement, expr_blank, expr_blank]
  | .tryCatch pos body name handler => by
      rw [Relabel.statement, statement, statement, block_blank _ body, block_blank _ handler]
      rfl
  | .classDef pos name (some initialiser) bodyPos members => by
      rw [Relabel.statement, statement, statement, constructor_blank _ initialiser,
        methods_blank _ members]
      rfl
  | .classDef pos name none bodyPos members => by
      rw [Relabel.statement, statement, statement, methods_blank _ members]
      rfl
  | .function declared => by
      rw [Relabel.statement, statement, statement, function_blank _ _ declared]
  | .ifElse pos alternatives (some otherwise) => by
      rw [Relabel.statement, statement, statement, ifArms_blank _ _ alternatives,
        block_blank _ otherwise]
  | .ifElse pos alternatives none => by
      rw [Relabel.statement, statement, statement, ifArms_blank _ _ alternatives]
  | .whileLoop pos condition body => by
      rw [Relabel.statement, statement, statement, expr_blank, block_blank _ body]
  | .forLoop pos name init condition step body => by
      rw [Relabel.statement, statement, statement, expr_blank, expr_blank, expr_blank,
        block_blank _ body]
      rfl
  | .forOf pos name iterable body => by
      rw [Relabel.statement, statement, statement, expr_blank, block_blank _ body]
      rfl
  | .switch pos selector alternatives (some otherwise) => by
      rw [Relabel.statement, statement, statement, expr_blank, switchArms_blank _ alternatives,
        block_blank _ otherwise]
  | .switch pos selector alternatives none => by
      rw [Relabel.statement, statement, statement, expr_blank, switchArms_blank _ alternatives]
  | .returns pos (some value) => by
      rw [Relabel.statement, Option.map_some, statement, statement, expr_blank]
  | .returns pos none => rfl
  | .print pos e | .expr pos e => by
      rw [Relabel.statement, statement, statement, expr_blank]
  | .breakLoop pos | .continueLoop pos => rfl

theorem statements_blank (margin : Margin) : ∀ body : List Statement,
    statements margin (blank.statements body) = statements margin body
  | [] => rfl
  | first :: others => by
      rw [Relabel.statements, statements, statements, statement_blank _ first,
        statements_blank _ others]

theorem block_blank (margin : Margin) : ∀ body : Block,
    block margin (blank.block body) = block margin body
  | .mk pos body => by rw [Relabel.block, block, block, statements_blank _ body]

theorem function_blank (margin : Margin) (opening : String) : ∀ declared : Function,
    function margin opening (blank.function declared) = function margin opening declared
  | .mk pos name parameters body => by
      rw [Relabel.function, function, function, params_blank, block_blank _ body]
      rfl

theorem methods_blank (margin : Margin) : ∀ members : List Function,
    methods margin (blank.functions members) = methods margin members
  | [] => rfl
  | first :: others => by
      rw [Relabel.functions, methods, methods, function_blank _ _ first,
        methods_blank _ others]

theorem constructor_blank (margin : Margin) : ∀ initialiser : Constructor,
    constructor margin (blank.constructor initialiser) = constructor margin initialiser
  | .mk pos parameters body => by
      rw [Relabel.constructor, constructor, constructor, params_blank, block_blank _ body]

theorem ifArms_blank (margin : Margin) (opening : String) : ∀ alternatives : List Arm,
    ifArms margin opening (blank.arms alternatives) = ifArms margin opening alternatives
  | [] => rfl
  | first :: others => by
      rw [Relabel.arms, ifArms, ifArms, ifArm_blank _ _ first, ifArms_blank _ _ others]

theorem ifArm_blank (margin : Margin) (opening : String) : ∀ alternative : Arm,
    ifArm margin opening (blank.arm alternative) = ifArm margin opening alternative
  | .mk pos condition body => by
      rw [Relabel.arm, ifArm, ifArm, expr_blank, block_blank _ body]

theorem switchArms_blank (margin : Margin) : ∀ alternatives : List Arm,
    switchArms margin (blank.arms alternatives) = switchArms margin alternatives
  | [] => rfl
  | first :: others => by
      rw [Relabel.arms, switchArms, switchArms, switchArm_blank _ first,
        switchArms_blank _ others]

theorem switchArm_blank (margin : Margin) : ∀ alternative : Arm,
    switchArm margin (blank.arm alternative) = switchArm margin alternative
  | .mk pos test body => by
      rw [Relabel.arm, switchArm, switchArm, expr_blank, block_blank _ body]

end

end JavaScript

end Qalam
