/-
# The rows of a drawing

A drawn forest has one row for each node, in preorder: four characters for each level above the
node, of which the last four connect it, and then its label. What the rows have in front of them
tells where the children of a node end, so two forests with the same rows are the same.

The text of a drawing is its rows with a line feed behind each. If no label has a line feed in it,
then the rows are the lines of the text.
-/

import Mathlib.Data.List.Forall2
import Qalam.Proofs.Drawing.Strings

namespace Qalam.Outline

/-- The label of the top node. -/
def label : Outline → String
  | .node label _ => label

/-- The forest below the top node. -/
def children : Outline → List Outline
  | .node _ children => children

mutual

/-- The rows of a node, with what stands in front of its label and in front of the rows below. -/
def rows (connector margin : String) : Outline → List String
  | .node label children => (connector ++ label) :: (rowsAll children).map (margin ++ ·)

/-- The rows of a forest. -/
def rowsAll : List Outline → List String
  | [] => []
  | [last] => rows "└── " "    " last
  | first :: second :: others => rows "├── " "│   " first ++ rowsAll (second :: others)

end

/-- Lines as a text, with a line feed behind each. -/
def text (lines : List String) : String := String.join (lines.map (· ++ "\n"))

theorem text_cons (line : String) (lines : List String) :
    text (line :: lines) = line ++ "\n" ++ text lines := by
  simp [text, String.join_cons]

theorem text_append (first second : List String) :
    text (first ++ second) = text first ++ text second := by
  simp [text, String.join_append]

mutual

theorem draw_eq_text (indent connector margin : String) : ∀ outline : Outline,
    draw indent connector margin outline =
      text ((rows connector margin outline).map (indent ++ ·))
  | .node label children => by
      have deeper : (fun row => indent ++ (margin ++ row)) = (indent ++ margin ++ ·) :=
        funext fun row => String.append_assoc.symm
      rw [draw, rows, List.map_cons, text_cons, List.map_map, drawAll_eq_text, Function.comp_def,
        deeper, ← String.append_assoc]

theorem drawAll_eq_text (indent : String) : ∀ forest : List Outline,
    drawAll indent forest = text ((rowsAll forest).map (indent ++ ·))
  | [] => rfl
  | [last] => by rw [drawAll, rowsAll, draw_eq_text]
  | first :: second :: others => by
      rw [drawAll, rowsAll, draw_eq_text, drawAll_eq_text, List.map_append, text_append]
      simp

end

/-! ## Lines -/

/-- An outline without line feeds in its labels. -/
inductive Unbroken : Outline → Prop
  | node {label : String} {children : List Outline} : '\n' ∉ label.toList →
    (∀ child ∈ children, Unbroken child) → Unbroken (.node label children)

mutual

theorem rows_unbroken {connector margin : String} (plain : '\n' ∉ connector.toList)
    (plain' : '\n' ∉ margin.toList) : ∀ {outline : Outline}, Unbroken outline →
    ∀ row ∈ rows connector margin outline, '\n' ∉ row.toList
  | .node label children, .node here below => by
      rw [rows, List.forall_mem_cons, List.forall_mem_map]
      refine ⟨?_, fun row mem => ?_⟩
      · simpa using ⟨plain, here⟩
      · simpa using ⟨plain', rowsAll_unbroken below row mem⟩

theorem rowsAll_unbroken : ∀ {forest : List Outline}, (∀ outline ∈ forest, Unbroken outline) →
    ∀ row ∈ rowsAll forest, '\n' ∉ row.toList
  | [], _ => by simp [rowsAll]
  | [last], unbroken => by
      rw [List.forall_mem_singleton] at unbroken
      rw [rowsAll]
      exact rows_unbroken (by decide) (by decide) unbroken
  | first :: second :: others, unbroken => by
      rw [List.forall_mem_cons] at unbroken
      rw [rowsAll, List.forall_mem_append]
      exact ⟨rows_unbroken (by decide) (by decide) unbroken.1, rowsAll_unbroken unbroken.2⟩

end

/-- Lines are found again in their text. -/
theorem eq_of_text_eq : ∀ {first second : List String}, (∀ line ∈ first, '\n' ∉ line.toList) →
    (∀ line ∈ second, '\n' ∉ line.toList) → text first = text second → first = second
  | [], [], _, _, _ => rfl
  | [], line :: lines, _, _, same | line :: lines, [], _, _, same => by
      have empty := congrArg String.toList same
      simp [text, String.toList_join] at empty
  | line :: lines, line' :: lines', unbroken, unbroken', same => by
      rw [List.forall_mem_cons] at unbroken unbroken'
      have chars := congrArg String.toList same
      simp only [text_cons, String.toList_append, List.append_assoc] at chars
      obtain ⟨front, back⟩ := append_cons_inj_of_notMem unbroken.1 unbroken'.1 chars
      rw [String.toList_inj.mp front,
        eq_of_text_eq unbroken.2 unbroken'.2 (String.toList_inj.mp back)]

/-! ## Rows and nodes -/

mutual

/-- The labels of an outline in preorder, each with the number of nodes above it. -/
def preorder (depth : Nat) : Outline → List (Nat × String)
  | .node label children => (depth, label) :: preorderAll (depth + 1) children

/-- The labels of a forest in preorder. -/
def preorderAll (depth : Nat) : List Outline → List (Nat × String)
  | [] => []
  | first :: others => preorder depth first ++ preorderAll depth others

end

/-- What can stand in front of a label: four connecting characters for each level above it. -/
structure IsFront (depth : Nat) (front : String) : Prop where
  length : front.toList.length = 4 * depth
  chars : ∀ c ∈ front.toList, c ∈ ['├', '└', '─', '│', ' ']

theorem isFront_empty : IsFront 0 "" := ⟨rfl, by simp⟩

theorem isFront_level {front : String} (known : front ∈ ["├── ", "└── ", "│   ", "    "]) :
    IsFront 1 front := by
  simp only [List.mem_cons, List.not_mem_nil, or_false] at known
  obtain rfl | rfl | rfl | rfl := known <;> exact ⟨rfl, by simp⟩

theorem IsFront.append {depth : Nat} {front level : String} (isFront : IsFront depth front)
    (one : IsFront 1 level) : IsFront (depth + 1) (front ++ level) where
  length := by rw [String.toList_append, List.length_append, isFront.length, one.length]; omega
  chars := by
    rw [String.toList_append, List.forall_mem_append]
    exact ⟨isFront.chars, one.chars⟩

/-- A row for a label that stands below a number of nodes. -/
def IsRow (entry : Nat × String) (row : String) : Prop :=
  ∃ front, IsFront entry.1 front ∧ row = front ++ entry.2

mutual

theorem isRow_rows {depth : Nat} {front connector margin : String} (isFront : IsFront depth front)
    (one : IsFront 1 connector) (one' : IsFront 1 margin) : ∀ outline : Outline,
    List.Forall₂ IsRow (preorder (depth + 1) outline)
      ((rows connector margin outline).map (front ++ ·))
  | .node label children => by
      have deeper : (fun row => front ++ (margin ++ row)) = (front ++ margin ++ ·) :=
        funext fun row => String.append_assoc.symm
      rw [preorder, rows, List.map_cons, List.map_map, Function.comp_def, deeper]
      refine .cons ⟨front ++ connector, isFront.append one, ?_⟩
        (isRow_rowsAll (isFront.append one') children)
      exact String.append_assoc.symm

/-- The rows of a forest are those of its nodes in preorder. -/
theorem isRow_rowsAll {depth : Nat} {front : String} (isFront : IsFront depth front) :
    ∀ forest : List Outline, List.Forall₂ IsRow (preorderAll (depth + 1) forest)
      ((rowsAll forest).map (front ++ ·))
  | [] => .nil
  | [last] => by
      rw [preorderAll, preorderAll, List.append_nil, rowsAll]
      exact isRow_rows isFront (isFront_level (by decide)) (isFront_level (by decide)) last
  | first :: second :: others => by
      rw [preorderAll, rowsAll, List.map_append]
      exact List.rel_append
        (isRow_rows isFront (isFront_level (by decide)) (isFront_level (by decide)) first)
        (isRow_rowsAll isFront (second :: others))

end

/-! ## Forests with the same rows -/

/-- Rows that stand below a node with further nodes behind it. -/
def isInside (row : String) : Bool := row.toList.head? = some '│'

theorem isInside_margin (row : String) : isInside ("│   " ++ row) = true := by
  simp [isInside]

theorem exists_rowsAll (first : Outline) (others : List Outline) :
    ∃ row more, rowsAll (first :: others) = row :: more ∧ isInside row = false := by
  obtain ⟨label, children⟩ := first
  cases others with
  | nil => exact ⟨_, _, by rw [rowsAll, rows], by simp [isInside]⟩
  | cons second others => exact ⟨_, _, by rw [rowsAll, rows, List.cons_append], by simp [isInside]⟩

/-- The rows inside a node end in front of the next node. -/
theorem append_inj_of_isInside {inside inside' behind behind' : List String}
    (margin : ∀ row ∈ inside, isInside row = true) (margin' : ∀ row ∈ inside', isInside row = true)
    (next : ∀ row ∈ behind.head?, isInside row = false)
    (next' : ∀ row ∈ behind'.head?, isInside row = false)
    (same : inside ++ behind = inside' ++ behind') : inside = inside' ∧ behind = behind' := by
  have front : ∀ {inside behind : List String}, (∀ row ∈ inside, isInside row = true) →
      (∀ row ∈ behind.head?, isInside row = false) →
      (inside ++ behind).takeWhile isInside = inside := by
    intro inside behind margin next
    rw [List.takeWhile_append_of_pos margin]
    cases behind with
    | nil => simp
    | cons row more => simp [next row rfl]
  have rows : inside = inside' := by rw [← front margin next, same, front margin' next']
  subst rows
  exact ⟨rfl, List.append_cancel_left same⟩

/-- The rows of a forest tell its nodes. -/
theorem rowsAll_injective : ∀ {first second : List Outline}, rowsAll first = rowsAll second →
    first = second
  | [], [], _ => rfl
  | [], outline :: others, same | outline :: others, [], same => by
      obtain ⟨row, more, rows, -⟩ := exists_rowsAll outline others
      rw [rows] at same
      cases same
  | [.node label children], [.node label' children'], same => by
      simp only [rowsAll, rows] at same
      obtain ⟨labels, below⟩ := List.cons.inj same
      rw [(String.append_right_inj _).mp labels]
      have injective : Function.Injective ("    " ++ · : String → String) :=
        fun _ _ => (String.append_right_inj _).mp
      rw [rowsAll_injective (List.map_injective_iff.mpr injective below)]
  | [.node label children], .node label' children' :: second :: others, same
  | .node label' children' :: second :: others, [.node label children], same => by
      have connectors := congrArg (fun rows => rows.head?.bind fun row => row.toList.head?) same
      simp [rowsAll, rows] at connectors
  | .node label children :: second :: others, .node label' children' :: second' :: others',
    same => by
      simp only [rowsAll, rows, List.cons_append] at same
      obtain ⟨labels, below⟩ := List.cons.inj same
      obtain ⟨row, more, next, outside⟩ := exists_rowsAll second others
      obtain ⟨row', more', next', outside'⟩ := exists_rowsAll second' others'
      obtain ⟨inside, behind⟩ := append_inj_of_isInside
        (by simp [isInside_margin]) (by simp [isInside_margin])
        (by simpa [next] using outside) (by simpa [next'] using outside') below
      have injective : Function.Injective ("│   " ++ · : String → String) :=
        fun _ _ => (String.append_right_inj _).mp
      rw [(String.append_right_inj _).mp labels,
        rowsAll_injective (List.map_injective_iff.mpr injective inside), rowsAll_injective behind]

end Qalam.Outline
