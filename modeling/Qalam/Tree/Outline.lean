/-
# Drawn trees

An outline is a tree of labels. It is drawn with one line per node, each line connected to its
parent by box-drawing characters: a corner for the last child, a branch for the others.
-/

namespace Qalam

/-- A tree of labels. -/
inductive Outline
  | node (label : String) (children : List Outline)

namespace Outline

/-- A node without children. -/
def leaf (label : String) : Outline := .node label []

/-- The same tree with words put in front of its top label. -/
def labelled (words : String) : Outline → Outline
  | .node label children => .node (words ++ label) children

mutual

/-- Draw a node and what is below it. The connector stands before its label, the margin before
the lines below it. -/
def draw (indent connector margin : String) : Outline → String
  | .node label children =>
    indent ++ connector ++ label ++ "\n" ++ drawAll (indent ++ margin) children

/-- Draw several nodes below one another. -/
def drawAll (indent : String) : List Outline → String
  | [] => ""
  | [last] => draw indent "└── " "    " last
  | first :: others => draw indent "├── " "│   " first ++ drawAll indent others

end

end Outline

end Qalam
