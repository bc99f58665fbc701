/-
# Drawings do not show positions

A drawing shows names, tags and entities, so it stays the same when positions are moved.
-/

import Qalam.Proofs.Structure.Relabel
import Qalam.Tree.Drawing

namespace Qalam

namespace Drawing

open Relabel

variable (move : Position → Position) (entities : Option Entities)

mutual

theorem expr_relocate : ∀ e : Expr, expr entities ((relocate move).expr e) = expr entities e
  | .literal .. | .ident .. | .this .. => rfl
  | .call note callee args => by
      rw [Relabel.expr, expr, expr, expr_relocate callee, exprs_relocate args]
      rfl
  | .new note target args => by
      rw [Relabel.expr, expr, expr, expr_relocate target, exprs_relocate args]
      rfl
  | .typeOf note operand => by
      rw [Relabel.expr, expr, expr, expr_relocate operand]
      rfl
  | .ternary note condition yes no => by
      rw [Relabel.expr, expr, expr, expr_relocate condition, expr_relocate yes, expr_relocate no]
      rfl
  | .binary note op left right => by
      rw [Relabel.expr, expr, expr, expr_relocate left, expr_relocate right]
      rfl
  | .unary note op side operand => by
      rw [Relabel.expr, expr, expr, expr_relocate operand]
      rfl
  | .array note elements => by
      rw [Relabel.expr, expr, expr, exprs_relocate elements]
      rfl
  | .object note entries => by
      rw [Relabel.expr, expr, expr, pairs_relocate entries]
      rfl
  | .member note base index => by
      rw [Relabel.expr, expr, expr, expr_relocate base, expr_relocate index]
      rfl
  | .property note base field => by
      rw [Relabel.expr, expr, expr, expr_relocate base]
      rfl

theorem exprs_relocate : ∀ es : List Expr,
    exprs entities ((relocate move).exprs es) = exprs entities es
  | [] => rfl
  | e :: others => by rw [Relabel.exprs, exprs, exprs, expr_relocate e, exprs_relocate others]

theorem pair_relocate : ∀ entry : Pair,
    pair entities ((relocate move).pair entry) = pair entities entry
  | .mk pos key value canonical => by
      rw [Relabel.pair, pair, pair, expr_relocate key, expr_relocate value]

theorem pairs_relocate : ∀ entries : List Pair,
    pairs entities ((relocate move).pairs entries) = pairs entities entries
  | [] => rfl
  | entry :: others => by
      rw [Relabel.pairs, pairs, pairs, pair_relocate entry, pairs_relocate others]

end

theorem optional_relocate (value : Option Expr) :
    (value.map (relocate move).expr).toList.map (expr entities) =
      value.toList.map (expr entities) := by
  cases value with
  | none => rfl
  | some e => exact congrArg (fun outline => [outline]) (expr_relocate move entities e)

theorem declarators_relocate (entries : List (Binding × Option Expr)) :
    (entries.map (relocate move).declarator).map (declarator entities) =
      entries.map (declarator entities) := by
  rw [List.map_map]
  congr 1
  funext entry
  show Outline.node _ ((entry.2.map (relocate move).expr).toList.map (expr entities)) = _
  rw [optional_relocate]
  rfl

theorem params_relocate (parameters : List Parameter) :
    params entities (parameters.map (relocate move).parameter) = params entities parameters := by
  rw [params, List.map_map]
  rfl

mutual

theorem statement_relocate : ∀ s : Statement,
    statement entities ((relocate move).statement s) = statement entities s
  | .declare pos constant name init => by
      rw [Relabel.statement, statement, statement, optional_relocate]
      rfl
  | .declareAll pos constant entries => by
      rw [Relabel.statement, statement, statement, declarators_relocate]
  | .assign pos target value => by
      rw [Relabel.statement, statement, statement, expr_relocate, expr_relocate]
  | .tryCatch pos body name handler => by
      rw [Relabel.statement, statement, statement, block_relocate "try" body,
        block_relocate _ handler]
      rfl
  | .classDef pos name (some initialiser) bodyPos methods => by
      rw [Relabel.statement, statement, statement, constructor_relocate initialiser,
        functions_relocate methods]
      rfl
  | .classDef pos name none bodyPos methods => by
      rw [Relabel.statement, statement, statement, functions_relocate methods]
      rfl
  | .function declared => by
      rw [Relabel.statement, statement, statement, function_relocate _ declared]
  | .ifElse pos alternatives (some otherwise) => by
      rw [Relabel.statement, statement, statement, arms_relocate _ _ alternatives,
        block_relocate _ otherwise]
  | .ifElse pos alternatives none => by
      rw [Relabel.statement, statement, statement, arms_relocate _ _ alternatives]
  | .whileLoop pos condition body => by
      rw [Relabel.statement, statement, statement, expr_relocate, block_relocate _ body]
  | .forLoop pos name init condition step body => by
      rw [Relabel.statement, statement, statement, expr_relocate, expr_relocate, expr_relocate,
        block_relocate _ body]
      rfl
  | .forOf pos name iterable body => by
      rw [Relabel.statement, statement, statement, expr_relocate, block_relocate _ body]
      rfl
  | .switch pos selector alternatives (some otherwise) => by
      rw [Relabel.statement, statement, statement, expr_relocate, arms_relocate _ _ alternatives,
        block_relocate _ otherwise]
  | .switch pos selector alternatives none => by
      rw [Relabel.statement, statement, statement, expr_relocate, arms_relocate _ _ alternatives]
  | .returns pos value => by
      rw [Relabel.statement, statement, statement, optional_relocate]
  | .print pos e | .expr pos e => by
      rw [Relabel.statement, statement, statement, expr_relocate]
  | .breakLoop pos | .continueLoop pos => rfl

theorem statements_relocate : ∀ body : List Statement,
    statements entities ((relocate move).statements body) = statements entities body
  | [] => rfl
  | first :: others => by
      rw [Relabel.statements, statements, statements, statement_relocate first,
        statements_relocate others]

theorem block_relocate (label : String) : ∀ body : Block,
    block entities label ((relocate move).block body) = block entities label body
  | .mk pos body => by rw [Relabel.block, block, block, statements_relocate body]

theorem function_relocate (kind : String) : ∀ declared : Function,
    function entities kind ((relocate move).function declared) = function entities kind declared
  | .mk pos name parameters body => by
      rw [Relabel.function, function, function, params_relocate, block_relocate _ body]
      rfl

theorem functions_relocate : ∀ members : List Function,
    functions entities ((relocate move).functions members) = functions entities members
  | [] => rfl
  | first :: others => by
      rw [Relabel.functions, functions, functions, function_relocate _ first,
        functions_relocate others]

theorem constructor_relocate : ∀ initialiser : Constructor,
    constructor entities ((relocate move).constructor initialiser) =
      constructor entities initialiser
  | .mk pos parameters body => by
      rw [Relabel.constructor, constructor, constructor, params_relocate, block_relocate _ body]

theorem arms_relocate (test body : String) : ∀ alternatives : List Arm,
    arms entities test body ((relocate move).arms alternatives) =
      arms entities test body alternatives
  | [] => rfl
  | first :: others => by
      rw [Relabel.arms, arms, arms, arm_relocate _ _ first, arms_relocate _ _ others]

theorem arm_relocate (testWord bodyWord : String) : ∀ alternative : Arm,
    arm entities testWord bodyWord ((relocate move).arm alternative) =
      arm entities testWord bodyWord alternative
  | .mk pos test body => by
      rw [Relabel.arm, arm, arm, expr_relocate, block_relocate _ body]

end

end Drawing

theorem Program.drawing_relocate (move : Position → Position) (program : Program) :
    ((Relabel.relocate move).program program).drawing = program.drawing := by
  rw [Program.drawing, Relabel.program, Drawing.program, Drawing.statements_relocate]
  rfl

theorem BoundProgram.drawing_relocate (move : Position → Position) (bound : BoundProgram) :
    ((Relabel.relocate move).boundProgram bound).drawing = bound.drawing := by
  rw [BoundProgram.drawing, Relabel.boundProgram, Relabel.program, Drawing.program,
    Drawing.statements_relocate, Relabel.entities_of_name rfl]
  rfl

end Qalam
