/-
# Outlines of expressions

The outline of an expression tells the expression, except for what is recorded beside it. The word
at the beginning of a label tells the kind of a node, what stands behind the word tells its name,
constant or operator, and the nodes below it tell its parts.
-/

import Qalam.Proofs.Drawing.Numbers
import Qalam.Proofs.Drawing.Rows
import Qalam.Proofs.Structure.Relabel

namespace Qalam.Drawing

open Relabel (blank)

/-! ## The words of labels -/

/-- The letters at the beginning of a label. -/
def word (label : String) : List Char := label.toList.takeWhile Char.isAlpha

theorem word_append {front : String} (ends : word front ≠ front.toList) (rest : String) :
    word (front ++ rest) = word front := by
  have shorter : (front.toList.takeWhile Char.isAlpha).length ≠ front.toList.length :=
    fun length => ends ((List.takeWhile_prefix _).eq_of_length length)
  rw [word, String.toList_append, List.takeWhile_append, if_neg shorter]
  rfl

/-- The place of the word of a label in a table. -/
def find (table : List (List String)) (label : String) : Nat :=
  table.findIdx fun words => words.any fun spelling => spelling.toList = word label

theorem find_append (front : String) {table : List (List String)}
    (ends : word front ≠ front.toList) (rest : String) :
    find table (front ++ rest) = find table front := by
  rw [find, find, word_append ends]

theorem find_enclosed {table : List (List String)} {front : String}
    (ends : word front ≠ front.toList) (inner back : String) :
    find table (front ++ inner ++ back) = find table front := by
  rw [String.append_assoc, find_append front ends]

theorem find_label {table : List (List String)} {outline : Outline} (label : String)
    (same : outline.label = label) {place : Nat} (found : find table label = place) :
    find table outline.label = place :=
  same ▸ found

theorem enclosed_inj {front inner inner' back : String}
    (same : front ++ inner ++ back = front ++ inner' ++ back) : inner = inner' :=
  (String.append_right_inj front).mp ((String.append_left_inj back).mp same)

/-! ## Constants and operators -/

/-- The words for constants. -/
def literalWords : List (List String) :=
  [["Bool"], ["Number"], ["Int"], ["Str"], ["Null"], ["Undefined"]]

theorem find_literal (value : Literal) : find literalWords (literal value) = value.ctorIdx := by
  cases value with
  | bool | number | int | str => exact (find_enclosed (by decide) _ ")").trans rfl
  | null | undefined => rfl

/-- The label of a constant tells the constant. Numbers with a point have to be in their one
form. -/
theorem literal_injective {first second : Literal}
    (known : ∀ value, first = .number value → value.Canonical)
    (known' : ∀ value, second = .number value → value.Canonical)
    (same : literal first = literal second) : first = second := by
  have kinds : first.ctorIdx = second.ctorIdx := by rw [← find_literal, same, find_literal]
  cases first with
  | bool value =>
      cases second with
      | bool value' =>
          have texts := enclosed_inj same
          cases value <;> cases value' <;> first | rfl | exact absurd texts (by decide)
      | _ => cases kinds
  | number value =>
      cases second with
      | number value' =>
          rw [Binary64.text_injective (known value rfl) (known' value' rfl) (enclosed_inj same)]
      | _ => cases kinds
  | int value =>
      cases second with
      | int value' =>
          have digits := String.ofList_inj.mp (enclosed_inj same)
          have numbers := congrArg (Nat.ofDigitChars 10 · 0) digits
          simp only [Nat.ofDigitChars_ten_toDigits] at numbers
          rw [numbers]
      | _ => cases kinds
  | str value =>
      cases second with
      | str value' => rw [Text.display_injective (enclosed_inj same)]
      | _ => cases kinds
  | null =>
      cases second with
      | null => rfl
      | _ => cases kinds
  | undefined =>
      cases second with
      | undefined => rfl
      | _ => cases kinds

/-- All binary operators. -/
def binaryOps : List BinaryOp :=
  [.add, .sub, .mul, .div, .mod, .pow, .eq, .ne, .lt, .le, .gt, .ge, .and, .or, .addAssign,
    .subAssign]

theorem binaryText_injective {first second : BinaryOp} (same : first.text = second.text) :
    first = second := by
  have found : ∀ op : BinaryOp, binaryOps.find? (fun op' => op'.text = op.text) = some op := by
    intro op
    cases op <;> decide
  have told := found first
  rw [same, found second] at told
  exact (Option.some.inj told).symm

/-- The sides and operators of unary expressions. -/
def unaryOps : List (Fixity × UnaryOp) :=
  [(.before, .neg), (.before, .not), (.before, .increment), (.before, .decrement),
    (.behind, .neg), (.behind, .not), (.behind, .increment), (.behind, .decrement)]

theorem unaryText_injective {side side' : Fixity} {op op' : UnaryOp}
    (same : fixity side ++ " " ++ op.text = fixity side' ++ " " ++ op'.text) :
    side = side' ∧ op = op' := by
  have found : ∀ side op, unaryOps.find? (fun entry =>
      fixity entry.1 ++ " " ++ entry.2.text = fixity side ++ " " ++ op.text) = some (side, op) := by
    intro side op
    cases side <;> cases op <;> decide
  have told := found side op
  rw [same, found side' op'] at told
  exact Prod.mk.inj (Option.some.inj told).symm

/-! ## Expressions -/

/-- The words for expressions. -/
def exprWords : List (List String) :=
  [["Bool", "Number", "Int", "Str", "Null", "Undefined"], ["Ident"], ["Call"], ["This"], ["New"],
    ["TypeOf"], ["Ternary"], ["Binary"], ["Unary"], ["Array"], ["Object"], ["Member"],
    ["Property"]]

theorem find_expr (e : Expr) : find exprWords (expr none e).label = e.ctorIdx := by
  cases e with
  | literal note value =>
      cases value with
      | bool | number | int | str => exact (find_enclosed (by decide) _ ")").trans rfl
      | null => exact find_label "Null" rfl rfl
      | undefined => exact find_label "Undefined" rfl rfl
  | ident note name entity => exact (find_enclosed (by decide) name ")").trans rfl
  | binary note op left right => exact (find_enclosed (by decide) op.text ")").trans rfl
  | unary note op side operand =>
      have front : (expr none (.unary note op side operand)).label =
          "Unary(" ++ (fixity side ++ " " ++ op.text) ++ ")" := by
        simp [expr, typed, Outline.label, String.append_assoc]
      rw [front]
      exact (find_enclosed (by decide) _ ")").trans rfl
  | call => exact find_label "Call" rfl rfl
  | this => exact find_label "This" rfl rfl
  | new => exact find_label "New" rfl rfl
  | typeOf => exact find_label "TypeOf" rfl rfl
  | ternary => exact find_label "Ternary" rfl rfl
  | array => exact find_label "Array" rfl rfl
  | object => exact find_label "Object" rfl rfl
  | member => exact find_label "Member" rfl rfl
  | property => exact find_label "Property" rfl rfl

theorem ctorIdx_of_expr_eq {e e' : Expr} (same : expr none e = expr none e') :
    e.ctorIdx = e'.ctorIdx := by
  rw [← find_expr, same, find_expr]

theorem typed_none (label : String) (note : Note) : typed none label note = label := rfl

theorem binding_none (name : Binding) : binding none name = name.name := rfl

theorem labelled_inj {words : String} {first second : Outline}
    (same : first.labelled words = second.labelled words) : first = second := by
  obtain ⟨label, children⟩ := first
  obtain ⟨label', children'⟩ := second
  simp only [Outline.labelled, Outline.node.injEq] at same
  rw [(String.append_right_inj words).mp same.1, same.2]

theorem named_inj {name name' : String} {entity entity' : Option EntityId} {note note' : Note}
    (same : named none name entity note = named none name' entity' note') : name = name' :=
  enclosed_inj (congrArg Outline.label same)

mutual

theorem expr_injective : ∀ {e e' : Expr}, (∀ node ∈ Nodes.expr e, node.Canonical) →
    (∀ node ∈ Nodes.expr e', node.Canonical) → expr none e = expr none e' →
      blank.expr e = blank.expr e'
  | .literal note value, e', known, known', same => by
      have kinds := ctorIdx_of_expr_eq same
      cases e' with
      | literal note' value' =>
          have values : value = value' := by
            refine literal_injective (fun x here => ?_) (fun x here => ?_)
              (congrArg Outline.label same)
            · exact known _ List.mem_cons_self note x (here ▸ rfl)
            · exact known' _ List.mem_cons_self note' x (here ▸ rfl)
          rw [values]
          rfl
      | _ => cases kinds
  | .ident note name entity, e', _, _, same => by
      have kinds := ctorIdx_of_expr_eq same
      cases e' with
      | ident note' name' entity' =>
          have names : name = name' := named_inj same
          rw [names]
          rfl
      | _ => cases kinds
  | .call note callee args, e', known, known', same => by
      have kinds := ctorIdx_of_expr_eq same
      cases e' with
      | call note' callee' args' =>
          simp only [Nodes.expr, List.forall_mem_cons, List.forall_mem_append] at known known'
          simp only [expr, typed_none, Outline.node.injEq, List.cons.injEq, true_and,
            and_true] at same
          rw [Relabel.expr, Relabel.expr,
            expr_injective known.2.1 known'.2.1 (labelled_inj same.1),
            exprs_injective known.2.2 known'.2.2 same.2]
          rfl
      | _ => cases kinds
  | .this note field, e', _, _, same => by
      have kinds := ctorIdx_of_expr_eq same
      cases e' with
      | this note' field' =>
          simp only [expr, Outline.node.injEq, List.cons.injEq, and_true] at same
          have names : field.name = field'.name := named_inj same.2
          rw [Relabel.expr, Relabel.expr, Relabel.field, Relabel.field, names]
          rfl
      | _ => cases kinds
  | .new note target args, e', known, known', same => by
      have kinds := ctorIdx_of_expr_eq same
      cases e' with
      | new note' target' args' =>
          simp only [Nodes.expr, List.forall_mem_cons, List.forall_mem_append] at known known'
          simp only [expr, typed_none, Outline.node.injEq, List.cons.injEq, true_and,
            and_true] at same
          rw [Relabel.expr, Relabel.expr,
            expr_injective known.2.1 known'.2.1 (labelled_inj same.1),
            exprs_injective known.2.2 known'.2.2 same.2]
          rfl
      | _ => cases kinds
  | .typeOf note operand, e', known, known', same => by
      have kinds := ctorIdx_of_expr_eq same
      cases e' with
      | typeOf note' operand' =>
          simp only [Nodes.expr, List.forall_mem_cons] at known known'
          simp only [expr, typed_none, Outline.node.injEq, List.cons.injEq, true_and,
            and_true] at same
          rw [Relabel.expr, Relabel.expr, expr_injective known.2 known'.2 same]
          rfl
      | _ => cases kinds
  | .ternary note condition yes no, e', known, known', same => by
      have kinds := ctorIdx_of_expr_eq same
      cases e' with
      | ternary note' condition' yes' no' =>
          simp only [Nodes.expr, List.forall_mem_cons, List.forall_mem_append] at known known'
          simp only [expr, typed_none, Outline.node.injEq, List.cons.injEq, true_and,
            and_true] at same
          rw [Relabel.expr, Relabel.expr,
            expr_injective known.2.1 known'.2.1 (labelled_inj same.1),
            expr_injective known.2.2.1 known'.2.2.1 (labelled_inj same.2.1),
            expr_injective known.2.2.2 known'.2.2.2 (labelled_inj same.2.2)]
          rfl
      | _ => cases kinds
  | .binary note op left right, e', known, known', same => by
      have kinds := ctorIdx_of_expr_eq same
      cases e' with
      | binary note' op' left' right' =>
          simp only [Nodes.expr, List.forall_mem_cons, List.forall_mem_append] at known known'
          simp only [expr, typed_none, Outline.node.injEq, List.cons.injEq, and_true] at same
          rw [Relabel.expr, Relabel.expr, binaryText_injective (enclosed_inj same.1),
            expr_injective known.2.1 known'.2.1 same.2.1,
            expr_injective known.2.2 known'.2.2 same.2.2]
          rfl
      | _ => cases kinds
  | .unary note op side operand, e', known, known', same => by
      have kinds := ctorIdx_of_expr_eq same
      cases e' with
      | unary note' op' side' operand' =>
          simp only [Nodes.expr, List.forall_mem_cons] at known known'
          simp only [expr, typed_none, Outline.node.injEq, List.cons.injEq, and_true] at same
          have inner : fixity side ++ " " ++ op.text ++ ")" =
              fixity side' ++ " " ++ op'.text ++ ")" :=
            (String.append_right_inj "Unary(").mp (by simpa only [String.append_assoc] using same.1)
          obtain ⟨rfl, rfl⟩ := unaryText_injective ((String.append_left_inj ")").mp inner)
          rw [Relabel.expr, Relabel.expr, expr_injective known.2 known'.2 same.2]
          rfl
      | _ => cases kinds
  | .array note elements, e', known, known', same => by
      have kinds := ctorIdx_of_expr_eq same
      cases e' with
      | array note' elements' =>
          simp only [Nodes.expr, List.forall_mem_cons] at known known'
          simp only [expr, typed_none, Outline.node.injEq, true_and] at same
          rw [Relabel.expr, Relabel.expr, exprs_injective known.2 known'.2 same]
          rfl
      | _ => cases kinds
  | .object note entries, e', known, known', same => by
      have kinds := ctorIdx_of_expr_eq same
      cases e' with
      | object note' entries' =>
          simp only [Nodes.expr, List.forall_mem_cons] at known known'
          simp only [expr, typed_none, Outline.node.injEq, true_and] at same
          rw [Relabel.expr, Relabel.expr, pairs_injective known.2 known'.2 same]
          rfl
      | _ => cases kinds
  | .member note base index, e', known, known', same => by
      have kinds := ctorIdx_of_expr_eq same
      cases e' with
      | member note' base' index' =>
          simp only [Nodes.expr, List.forall_mem_cons, List.forall_mem_append] at known known'
          simp only [expr, typed_none, Outline.node.injEq, List.cons.injEq, true_and,
            and_true] at same
          rw [Relabel.expr, Relabel.expr,
            expr_injective known.2.1 known'.2.1 (labelled_inj same.1),
            expr_injective known.2.2 known'.2.2 (labelled_inj same.2)]
          rfl
      | _ => cases kinds
  | .property note base field, e', known, known', same => by
      have kinds := ctorIdx_of_expr_eq same
      cases e' with
      | property note' base' field' =>
          simp only [Nodes.expr, List.forall_mem_cons] at known known'
          simp only [expr, typed_none, Outline.node.injEq, List.cons.injEq, true_and,
            and_true] at same
          have names : field.name = field'.name := named_inj (labelled_inj same.2)
          rw [Relabel.expr, Relabel.expr, expr_injective known.2.2 known'.2.2 (labelled_inj same.1),
            Relabel.field, Relabel.field, names]
          rfl
      | _ => cases kinds
termination_by structural e => e

theorem exprs_injective : ∀ {es es' : List Expr},
    (∀ node ∈ Nodes.exprs es, node.Canonical) →
    (∀ node ∈ Nodes.exprs es', node.Canonical) → exprs none es = exprs none es' →
    blank.exprs es = blank.exprs es'
  | [], [], _, _, _ => rfl
  | [], _ :: _, _, _, same | _ :: _, [], _, _, same => by cases same
  | e :: others, e' :: others', known, known', same => by
      rw [Nodes.exprs, List.forall_mem_append] at known known'
      obtain ⟨here, there⟩ := List.cons.inj same
      rw [Relabel.exprs, Relabel.exprs, expr_injective known.1 known'.1 here,
        exprs_injective known.2 known'.2 there]
termination_by structural es => es

theorem pair_injective : ∀ {entry entry' : Pair},
    (∀ node ∈ Nodes.pair entry, node.Canonical) →
    (∀ node ∈ Nodes.pair entry', node.Canonical) → pair none entry = pair none entry' →
    blank.pair entry = blank.pair entry'
  | .mk pos key value canonical, .mk pos' key' value' canonical', known, known', same => by
      simp only [Nodes.pair, List.forall_mem_cons, List.forall_mem_append] at known known'
      simp only [pair, Outline.node.injEq, List.cons.injEq, true_and, and_true] at same
      rw [Relabel.pair, Relabel.pair,
        expr_injective known.2.1 known'.2.1 (labelled_inj same.1),
        expr_injective known.2.2 known'.2.2 (labelled_inj same.2)]
      rfl
termination_by structural entry => entry

theorem pairs_injective : ∀ {entries entries' : List Pair},
    (∀ node ∈ Nodes.pairs entries, node.Canonical) →
    (∀ node ∈ Nodes.pairs entries', node.Canonical) →
    pairs none entries = pairs none entries' → blank.pairs entries = blank.pairs entries'
  | [], [], _, _, _ => rfl
  | [], _ :: _, _, _, same | _ :: _, [], _, _, same => by cases same
  | entry :: others, entry' :: others', known, known', same => by
      rw [Nodes.pairs, List.forall_mem_append] at known known'
      obtain ⟨here, there⟩ := List.cons.inj same
      rw [Relabel.pairs, Relabel.pairs, pair_injective known.1 known'.1 here,
        pairs_injective known.2 known'.2 there]
termination_by structural entries => entries

end

end Qalam.Drawing
