/-
# Outlines of statements

The outline of a statement tells the statement as that of an expression tells the expression. Where
a part may be missing, the label of the node that stands for it is one that no other part there has:
an alternative is no `else`, and a method is no constructor.
-/

import Qalam.Proofs.Drawing.Labels

namespace Qalam.Drawing

open Relabel (blank)

/-! ## The words of statements -/

/-- The words for statements. -/
def statementWords : List (List String) :=
  [["Let", "Const"], ["MultiLet", "MultiConst"], ["Assign"], ["TryCatch"], ["Class"], ["FnDecl"],
    ["If"], ["While"], ["For"], ["ForOf"], ["Switch"], ["Return"], ["Print"], ["Break"],
    ["Continue"], ["ExprStmt"]]

theorem find_statement (s : Statement) :
    find statementWords (statement none s).label = s.ctorIdx := by
  cases s with
  | declare pos constant name init =>
      cases constant with
      | true => exact (find_append "Const: " (by decide) name.name).trans rfl
      | false => exact (find_append "Let: " (by decide) name.name).trans rfl
  | declareAll pos constant entries =>
      cases constant with
      | true => exact find_label "MultiConst" rfl rfl
      | false => exact find_label "MultiLet" rfl rfl
  | assign => exact find_label "Assign" rfl rfl
  | tryCatch => exact find_label "TryCatch" rfl rfl
  | classDef pos name initialiser bodyPos methods =>
      have front : (statement none (.classDef pos name initialiser bodyPos methods)).label =
          "Class: " ++ name.name := by
        cases initialiser <;> rfl
      rw [front]
      exact (find_append "Class: " (by decide) name.name).trans rfl
  | function declared =>
      obtain ⟨pos, name, parameters, body⟩ := declared
      exact (find_append "FnDecl: " (by decide) name.name).trans rfl
  | ifElse pos alternatives otherwise =>
      cases otherwise <;> exact find_label "If" rfl rfl
  | whileLoop => exact find_label "While" rfl rfl
  | forLoop pos name => exact (find_append "For: " (by decide) name.name).trans rfl
  | forOf pos name => exact (find_append "ForOf: " (by decide) name.name).trans rfl
  | switch pos selector alternatives otherwise =>
      cases otherwise <;> exact find_label "Switch" rfl rfl
  | returns => exact find_label "Return" rfl rfl
  | print => exact find_label "Print" rfl rfl
  | breakLoop => exact find_label "Break" rfl rfl
  | continueLoop => exact find_label "Continue" rfl rfl
  | expr => exact find_label "ExprStmt" rfl rfl

theorem ctorIdx_of_statement_eq {s s' : Statement} (same : statement none s = statement none s') :
    s.ctorIdx = s'.ctorIdx := by
  rw [← find_statement, same, find_statement]

/-! ## Lists of parts -/

/-- Two readings of lists, one of which is known by the other for each of the items. -/
theorem map_eq_map_of {α β γ : Type} {f : α → β} {g : α → γ} : ∀ {xs ys : List α},
    (∀ x ∈ xs, ∀ y ∈ ys, f x = f y → g x = g y) → xs.map f = ys.map f → xs.map g = ys.map g
  | [], [], _, _ => rfl
  | [], _ :: _, _, same | _ :: _, [], _, same => by cases same
  | x :: xs, y :: ys, told, same => by
      obtain ⟨here, there⟩ := List.cons.inj same
      rw [List.map_cons, List.map_cons,
        told x List.mem_cons_self y List.mem_cons_self here,
        map_eq_map_of (fun x mem y mem' =>
          told x (List.mem_cons_of_mem _ mem) y (List.mem_cons_of_mem _ mem')) there]

theorem parameters_injective {parameters parameters' : List Parameter}
    (same : params none parameters = params none parameters') :
    parameters.map blank.parameter = parameters'.map blank.parameter := by
  refine map_eq_map_of (fun param _ param' _ equal => ?_) (congrArg Outline.children same)
  have names : param.name = param'.name := named_inj equal
  rw [Relabel.parameter, Relabel.parameter, names]
  rfl

theorem optional_injective {value value' : Option Expr}
    (known : ∀ node ∈ Nodes.optional value, node.Canonical)
    (known' : ∀ node ∈ Nodes.optional value', node.Canonical)
    (same : value.toList.map (expr none) = value'.toList.map (expr none)) :
    value.map blank.expr = value'.map blank.expr := by
  cases value with
  | none =>
      cases value' with
      | none => rfl
      | some e' => cases same
  | some e =>
      cases value' with
      | none => cases same
      | some e' => rw [Option.map_some, Option.map_some,
          expr_injective known known' (List.cons.inj same).1]

theorem binding_injective {name name' : Binding} (same : name.name = name'.name) :
    blank.binding name = blank.binding name' := by
  rw [Relabel.binding, Relabel.binding, same]
  rfl

theorem declarator_injective {entry entry' : Binding × Option Expr}
    (known : ∀ node ∈ Nodes.declarator entry, node.Canonical)
    (known' : ∀ node ∈ Nodes.declarator entry', node.Canonical)
    (same : declarator none entry = declarator none entry') :
    blank.declarator entry = blank.declarator entry' := by
  have names : entry.1.name = entry'.1.name := congrArg Outline.label same
  rw [Nodes.declarator, List.forall_mem_cons] at known known'
  rw [Relabel.declarator, Relabel.declarator, binding_injective names,
    optional_injective known.2 known'.2 (congrArg Outline.children same)]

theorem declarationKind_inj {constant constant' : Bool} {name name' : String}
    (same : declarationKind constant ++ ": " ++ name = declarationKind constant' ++ ": " ++ name') :
    constant = constant' ∧ name = name' := by
  have letters := congrArg (fun label => label.toList.head?) same
  cases constant <;> cases constant'
  · exact ⟨rfl, (String.append_right_inj _).mp same⟩
  · simp [declarationKind] at letters
  · simp [declarationKind] at letters
  · exact ⟨rfl, (String.append_right_inj _).mp same⟩

/-! ## Statements -/

theorem label_block (words : String) (body : Block) : (block none words body).label = words := by
  cases body
  rfl

theorem constructor_ne_function (initialiser : Constructor) (method : Function) :
    constructor none initialiser ≠ function none "Method" method := by
  intro same
  obtain ⟨pos, parameters, body⟩ := initialiser
  obtain ⟨pos', name, parameters', body'⟩ := method
  have letters := congrArg (fun outline => outline.label.toList.head?) same
  simp [constructor, function, Outline.label] at letters

/-- The outlines of a last block that may be missing. -/
def otherwise (words : String) (last : Option Block) : List Outline :=
  last.toList.map (block none words)

theorem free_otherwise {words : String} (other : words ≠ "case") (last last' : Option Block) :
    ∀ outline ∈ otherwise words last ++ otherwise words last', outline.label ≠ "case" := by
  intro outline mem
  obtain ⟨body, -, rfl⟩ | ⟨body, -, rfl⟩ :=
    (List.mem_append.mp mem).imp List.mem_map.mp List.mem_map.mp
  · rwa [label_block]
  · rwa [label_block]

theorem statement_ifElse (pos : Position) (alternatives : List Arm) (last : Option Block) :
    statement none (.ifElse pos alternatives last) =
      .node "If" (arms none "condition: " "then" alternatives ++ otherwise "else" last) := by
  cases last <;> simp [statement, otherwise]

theorem statement_switch (pos : Position) (selector : Expr) (alternatives : List Arm)
    (last : Option Block) : statement none (.switch pos selector alternatives last) =
      .node "Switch" ((expr none selector).labelled "selector: " ::
        (arms none "test: " "body" alternatives ++ otherwise "default" last)) := by
  cases last <;> simp [statement, otherwise]

theorem blank_ifElse (pos : Position) (alternatives : List Arm) (last : Option Block) :
    blank.statement (.ifElse pos alternatives last) =
      .ifElse .start (blank.arms alternatives) (last.map blank.block) := by
  cases last <;> rfl

theorem blank_switch (pos : Position) (selector : Expr) (alternatives : List Arm)
    (last : Option Block) : blank.statement (.switch pos selector alternatives last) =
      .switch .start (blank.expr selector) (blank.arms alternatives) (last.map blank.block) := by
  cases last <;> rfl

theorem nodes_ifElse {pos : Position} {alternatives : List Arm} {last : Option Block}
    (known : ∀ node ∈ Nodes.statement (.ifElse pos alternatives last), node.Canonical) :
    (∀ node ∈ Nodes.arms alternatives, node.Canonical) ∧
      ∀ body ∈ last, ∀ node ∈ Nodes.block body, node.Canonical := by
  cases last with
  | none =>
      rw [Nodes.statement, List.forall_mem_cons] at known
      exact ⟨known.2, by simp⟩
  | some body =>
      simp only [Nodes.statement, List.forall_mem_cons, List.forall_mem_append] at known
      exact ⟨known.2.1, by simpa using known.2.2⟩

theorem nodes_switch {pos : Position} {selector : Expr} {alternatives : List Arm}
    {last : Option Block}
    (known : ∀ node ∈ Nodes.statement (.switch pos selector alternatives last), node.Canonical) :
    (∀ node ∈ Nodes.expr selector, node.Canonical) ∧
      (∀ node ∈ Nodes.arms alternatives, node.Canonical) ∧
        ∀ body ∈ last, ∀ node ∈ Nodes.block body, node.Canonical := by
  cases last with
  | none =>
      simp only [Nodes.statement, List.forall_mem_cons, List.forall_mem_append] at known
      exact ⟨known.2.1, known.2.2, by simp⟩
  | some body =>
      simp only [Nodes.statement, List.forall_mem_cons, List.forall_mem_append] at known
      exact ⟨known.2.1, known.2.2.1, by simpa using known.2.2.2⟩

mutual

theorem statement_injective : ∀ {s s' : Statement},
    (∀ node ∈ Nodes.statement s, node.Canonical) → (∀ node ∈ Nodes.statement s', node.Canonical) →
    statement none s = statement none s' → blank.statement s = blank.statement s'
  | .declare pos constant name init, s', known, known', same => by
      have kinds := ctorIdx_of_statement_eq same
      cases s' with
      | declare pos' constant' name' init' =>
          simp only [Nodes.statement, Nodes.declarator, List.forall_mem_cons] at known known'
          simp only [statement, binding_none, Outline.node.injEq] at same
          obtain ⟨rfl, names⟩ := declarationKind_inj same.1
          rw [Relabel.statement, Relabel.statement, binding_injective names,
            optional_injective known.2.2 known'.2.2 same.2]
          rfl
      | _ => cases kinds
  | .declareAll pos constant entries, s', known, known', same => by
      have kinds := ctorIdx_of_statement_eq same
      cases s' with
      | declareAll pos' constant' entries' =>
          simp only [statement, Outline.node.injEq] at same
          have constants : constant = constant' := by
            have letters := same.1
            cases constant <;> cases constant' <;> first | rfl | exact absurd letters (by decide)
          simp only [Nodes.statement, List.forall_mem_cons, List.forall_mem_flatMap] at known known'
          have entries := map_eq_map_of (fun entry mem entry' mem' =>
            declarator_injective (known.2 entry mem) (known'.2 entry' mem')) same.2
          rw [Relabel.statement, Relabel.statement, constants, entries]
          rfl
      | _ => cases kinds
  | .assign pos target value, s', known, known', same => by
      have kinds := ctorIdx_of_statement_eq same
      cases s' with
      | assign pos' target' value' =>
          simp only [Nodes.statement, List.forall_mem_cons, List.forall_mem_append] at known known'
          simp only [statement, Outline.node.injEq, List.cons.injEq, true_and, and_true] at same
          rw [Relabel.statement, Relabel.statement,
            expr_injective known.2.1 known'.2.1 (labelled_inj same.1),
            expr_injective known.2.2 known'.2.2 (labelled_inj same.2)]
          rfl
      | _ => cases kinds
  | .tryCatch pos body name handler, s', known, known', same => by
      have kinds := ctorIdx_of_statement_eq same
      cases s' with
      | tryCatch pos' body' name' handler' =>
          simp only [Nodes.statement, List.forall_mem_cons, List.forall_mem_append] at known known'
          simp only [statement, binding_none, Outline.node.injEq, List.cons.injEq, true_and,
            and_true] at same
          have names := congrArg Outline.label same.2
          rw [label_block, label_block, String.append_right_inj] at names
          rw [Relabel.statement, Relabel.statement, binding_injective names,
            block_injective known.2.2.1 known'.2.2.1 same.1,
            block_injective known.2.2.2 known'.2.2.2 same.2]
          rfl
      | _ => cases kinds
  | .classDef pos name (some initialiser) bodyPos methods, s', known, known', same => by
      have kinds := ctorIdx_of_statement_eq same
      cases s' with
      | classDef pos' name' initialiser' bodyPos' methods' =>
          cases initialiser' with
          | some initialiser' =>
              simp only [Nodes.statement, List.forall_mem_cons, List.forall_mem_append]
                at known known'
              simp only [statement, binding_none, Outline.node.injEq, List.cons.injEq,
                String.append_right_inj] at same
              rw [Relabel.statement, Relabel.statement, binding_injective same.1,
                constructor_injective known.2.2.1 known'.2.2.1 same.2.1,
                functions_injective known.2.2.2 known'.2.2.2 same.2.2]
              rfl
          | none =>
              -- the first outline below the one class is a constructor, that of the other is none
              cases methods' with
              | nil => simp [statement, functions] at same
              | cons method others =>
                  simp only [statement, functions, Outline.node.injEq, List.cons.injEq] at same
                  exact absurd same.2.1 (constructor_ne_function _ _)
      | _ => cases kinds
  | .classDef pos name none bodyPos methods, s', known, known', same => by
      have kinds := ctorIdx_of_statement_eq same
      cases s' with
      | classDef pos' name' initialiser' bodyPos' methods' =>
          cases initialiser' with
          | some initialiser' =>
              cases methods with
              | nil => simp [statement, functions] at same
              | cons method others =>
                  simp only [statement, functions, Outline.node.injEq, List.cons.injEq] at same
                  exact absurd same.2.1.symm (constructor_ne_function _ _)
          | none =>
              simp only [Nodes.statement, List.forall_mem_cons] at known known'
              simp only [statement, binding_none, Outline.node.injEq,
                String.append_right_inj] at same
              rw [Relabel.statement, Relabel.statement, binding_injective same.1,
                functions_injective known.2.2 known'.2.2 same.2]
              rfl
      | _ => cases kinds
  | .function declared, s', known, known', same => by
      have kinds := ctorIdx_of_statement_eq same
      cases s' with
      | function declared' =>
          rw [Nodes.statement, List.forall_mem_cons] at known known'
          rw [Relabel.statement, Relabel.statement,
            function_injective known.2 known'.2 same]
      | _ => cases kinds
  | .ifElse pos alternatives last, s', known, known', same => by
      have kinds := ctorIdx_of_statement_eq same
      cases s' with
      | ifElse pos' alternatives' last' =>
          obtain ⟨branches, ending⟩ := nodes_ifElse known
          obtain ⟨branches', ending'⟩ := nodes_ifElse known'
          rw [statement_ifElse, statement_ifElse, Outline.node.injEq] at same
          obtain ⟨here, there⟩ := arms_injective (free_otherwise (by decide) _ _)
            branches branches' same.2
          rw [blank_ifElse, blank_ifElse, here, otherwise_injective ending ending' there]
      | _ => cases kinds
  | .whileLoop pos condition body, s', known, known', same => by
      have kinds := ctorIdx_of_statement_eq same
      cases s' with
      | whileLoop pos' condition' body' =>
          simp only [Nodes.statement, List.forall_mem_cons, List.forall_mem_append] at known known'
          simp only [statement, Outline.node.injEq, List.cons.injEq, true_and, and_true] at same
          rw [Relabel.statement, Relabel.statement,
            expr_injective known.2.1 known'.2.1 (labelled_inj same.1),
            block_injective known.2.2 known'.2.2 same.2]
          rfl
      | _ => cases kinds
  | .forLoop pos name init condition step body, s', known, known', same => by
      have kinds := ctorIdx_of_statement_eq same
      cases s' with
      | forLoop pos' name' init' condition' step' body' =>
          simp only [Nodes.statement, List.forall_mem_cons, List.forall_mem_append] at known known'
          simp only [statement, binding_none, Outline.node.injEq, List.cons.injEq, and_true,
            String.append_right_inj] at same
          rw [Relabel.statement, Relabel.statement, binding_injective same.1,
            expr_injective known.2.2.1 known'.2.2.1 (labelled_inj same.2.1),
            expr_injective known.2.2.2.1 known'.2.2.2.1 (labelled_inj same.2.2.1),
            expr_injective known.2.2.2.2.1 known'.2.2.2.2.1 (labelled_inj same.2.2.2.1),
            block_injective known.2.2.2.2.2 known'.2.2.2.2.2 same.2.2.2.2]
          rfl
      | _ => cases kinds
  | .forOf pos name iterable body, s', known, known', same => by
      have kinds := ctorIdx_of_statement_eq same
      cases s' with
      | forOf pos' name' iterable' body' =>
          simp only [Nodes.statement, List.forall_mem_cons, List.forall_mem_append] at known known'
          simp only [statement, binding_none, Outline.node.injEq, List.cons.injEq, and_true,
            String.append_right_inj] at same
          rw [Relabel.statement, Relabel.statement, binding_injective same.1,
            expr_injective known.2.2.1 known'.2.2.1 (labelled_inj same.2.1),
            block_injective known.2.2.2 known'.2.2.2 same.2.2]
          rfl
      | _ => cases kinds
  | .switch pos selector alternatives last, s', known, known', same => by
      have kinds := ctorIdx_of_statement_eq same
      cases s' with
      | switch pos' selector' alternatives' last' =>
          obtain ⟨front, branches, ending⟩ := nodes_switch known
          obtain ⟨front', branches', ending'⟩ := nodes_switch known'
          rw [statement_switch, statement_switch, Outline.node.injEq, List.cons.injEq] at same
          obtain ⟨here, there⟩ := arms_injective (free_otherwise (by decide) _ _)
            branches branches' same.2.2
          rw [blank_switch, blank_switch, expr_injective front front' (labelled_inj same.2.1),
            here, otherwise_injective ending ending' there]
      | _ => cases kinds
  | .returns pos value, s', known, known', same => by
      have kinds := ctorIdx_of_statement_eq same
      cases s' with
      | returns pos' value' =>
          rw [Nodes.statement, List.forall_mem_cons] at known known'
          simp only [statement, Outline.node.injEq, true_and] at same
          rw [Relabel.statement, Relabel.statement, optional_injective known.2 known'.2 same]
          rfl
      | _ => cases kinds
  | .print pos argument, s', known, known', same => by
      have kinds := ctorIdx_of_statement_eq same
      cases s' with
      | print pos' argument' =>
          rw [Nodes.statement, List.forall_mem_cons] at known known'
          simp only [statement, Outline.node.injEq, List.cons.injEq, true_and, and_true] at same
          rw [Relabel.statement, Relabel.statement, expr_injective known.2 known'.2 same]
          rfl
      | _ => cases kinds
  | .breakLoop pos, s', _, _, same => by
      have kinds := ctorIdx_of_statement_eq same
      cases s' with
      | breakLoop => rfl
      | _ => cases kinds
  | .continueLoop pos, s', _, _, same => by
      have kinds := ctorIdx_of_statement_eq same
      cases s' with
      | continueLoop => rfl
      | _ => cases kinds
  | .expr pos e, s', known, known', same => by
      have kinds := ctorIdx_of_statement_eq same
      cases s' with
      | expr pos' e' =>
          rw [Nodes.statement, List.forall_mem_cons] at known known'
          simp only [statement, Outline.node.injEq, List.cons.injEq, true_and, and_true] at same
          rw [Relabel.statement, Relabel.statement, expr_injective known.2 known'.2 same]
          rfl
      | _ => cases kinds
termination_by structural s => s

theorem statements_injective : ∀ {body body' : List Statement},
    (∀ node ∈ Nodes.statements body, node.Canonical) →
    (∀ node ∈ Nodes.statements body', node.Canonical) →
    statements none body = statements none body' → blank.statements body = blank.statements body'
  | [], [], _, _, _ => rfl
  | [], _ :: _, _, _, same | _ :: _, [], _, _, same => by cases same
  | first :: others, first' :: others', known, known', same => by
      rw [Nodes.statements, List.forall_mem_append] at known known'
      obtain ⟨here, there⟩ := List.cons.inj same
      rw [Relabel.statements, Relabel.statements, statement_injective known.1 known'.1 here,
        statements_injective known.2 known'.2 there]
termination_by structural body => body

theorem block_injective {words words' : String} : ∀ {body body' : Block},
    (∀ node ∈ Nodes.block body, node.Canonical) → (∀ node ∈ Nodes.block body', node.Canonical) →
    block none words body = block none words' body' → blank.block body = blank.block body'
  | .mk pos body, .mk pos' body', known, known', same => by
      rw [Nodes.block, List.forall_mem_cons] at known known'
      simp only [block, Outline.node.injEq] at same
      rw [Relabel.block, Relabel.block, statements_injective known.2 known'.2 same.2]
      rfl
termination_by structural body => body

theorem otherwise_injective {words : String} : ∀ {last last' : Option Block},
    (∀ body ∈ last, ∀ node ∈ Nodes.block body, node.Canonical) →
    (∀ body ∈ last', ∀ node ∈ Nodes.block body, node.Canonical) →
    otherwise words last = otherwise words last' → last.map blank.block = last'.map blank.block
  | none, none, _, _, _ => rfl
  | none, some _, _, _, same | some _, none, _, _, same => by cases same
  | some body, some body', known, known', same => by
      rw [Option.map_some, Option.map_some,
        block_injective (known body rfl) (known' body' rfl) (List.cons.inj same).1]
termination_by structural last => last

theorem function_injective {kind : String} :
    ∀ {declared declared' : Function},
    (∀ node ∈ Nodes.function declared, node.Canonical) →
    (∀ node ∈ Nodes.function declared', node.Canonical) →
    function none kind declared = function none kind declared' →
    blank.function declared = blank.function declared'
  | .mk pos name parameters body, .mk pos' name' parameters' body', known, known', same => by
      simp only [Nodes.function, List.forall_mem_cons, List.forall_mem_append] at known known'
      simp only [function, binding_none, Outline.node.injEq, List.cons.injEq, and_true,
        String.append_right_inj] at same
      rw [Relabel.function, Relabel.function, binding_injective same.1,
        parameters_injective same.2.1, block_injective known.2.2.2 known'.2.2.2 same.2.2]
      rfl
termination_by structural declared => declared

theorem functions_injective : ∀ {members members' : List Function},
    (∀ node ∈ Nodes.functions members, node.Canonical) →
    (∀ node ∈ Nodes.functions members', node.Canonical) →
    functions none members = functions none members' →
    blank.functions members = blank.functions members'
  | [], [], _, _, _ => rfl
  | [], _ :: _, _, _, same | _ :: _, [], _, _, same => by cases same
  | first :: others, first' :: others', known, known', same => by
      rw [Nodes.functions, List.forall_mem_append] at known known'
      obtain ⟨here, there⟩ := List.cons.inj same
      rw [Relabel.functions, Relabel.functions, function_injective known.1 known'.1 here,
        functions_injective known.2 known'.2 there]
termination_by structural members => members

theorem constructor_injective : ∀ {initialiser initialiser' : Constructor},
    (∀ node ∈ Nodes.constructor initialiser, node.Canonical) →
    (∀ node ∈ Nodes.constructor initialiser', node.Canonical) →
    constructor none initialiser = constructor none initialiser' →
    blank.constructor initialiser = blank.constructor initialiser'
  | .mk pos parameters body, .mk pos' parameters' body', known, known', same => by
      simp only [Nodes.constructor, List.forall_mem_cons, List.forall_mem_append] at known known'
      simp only [constructor, Outline.node.injEq, List.cons.injEq, true_and, and_true] at same
      rw [Relabel.constructor, Relabel.constructor, parameters_injective same.1,
        block_injective known.2.2 known'.2.2 same.2]
      rfl
termination_by structural initialiser => initialiser

/-- Alternatives end in front of the first part that is none. -/
theorem arms_injective {test words : String} {tail tail' : List Outline}
    (free : ∀ outline ∈ tail ++ tail', outline.label ≠ "case") :
    ∀ {alternatives alternatives' : List Arm},
    (∀ node ∈ Nodes.arms alternatives, node.Canonical) →
    (∀ node ∈ Nodes.arms alternatives', node.Canonical) →
    arms none test words alternatives ++ tail = arms none test words alternatives' ++ tail' →
    blank.arms alternatives = blank.arms alternatives' ∧ tail = tail'
  | [], [], _, _, same => ⟨rfl, same⟩
  | [], .mk pos test body :: others, _, _, same => by
      simp only [arms, arm, List.nil_append, List.cons_append] at same
      exact absurd rfl (free _ (List.mem_append_left _ (same ▸ List.mem_cons_self)))
  | .mk pos test body :: others, [], _, _, same => by
      simp only [arms, arm, List.nil_append, List.cons_append] at same
      exact absurd rfl (free _ (List.mem_append_right _ (same ▸ List.mem_cons_self)))
  | first :: others, first' :: others', known, known', same => by
      rw [Nodes.arms, List.forall_mem_append] at known known'
      obtain ⟨here, there⟩ := List.cons.inj same
      obtain ⟨behind, tails⟩ := arms_injective free known.2 known'.2 there
      rw [Relabel.arms, Relabel.arms, arm_injective known.1 known'.1 here, behind]
      exact ⟨rfl, tails⟩
termination_by structural alternatives => alternatives

theorem arm_injective {testWord bodyWord : String} :
    ∀ {alternative alternative' : Arm}, (∀ node ∈ Nodes.arm alternative, node.Canonical) →
    (∀ node ∈ Nodes.arm alternative', node.Canonical) →
    arm none testWord bodyWord alternative = arm none testWord bodyWord alternative' →
    blank.arm alternative = blank.arm alternative'
  | .mk pos test body, .mk pos' test' body', known, known', same => by
      simp only [Nodes.arm, List.forall_mem_cons, List.forall_mem_append] at known known'
      simp only [arm, Outline.node.injEq, List.cons.injEq, true_and, and_true] at same
      rw [Relabel.arm, Relabel.arm, expr_injective known.2.1 known'.2.1 (labelled_inj same.1),
        block_injective known.2.2 known'.2.2 same.2]
      rfl
termination_by structural alternative => alternative

end

end Qalam.Drawing
