/-
# Analysis of statements

Each construct opens the frames that its names need. A block has a frame of its own; the name
of a handler or of a loop over items shares the frame of the body; a counting loop has one frame
for its header and one more for its body. A function or class is declared before its body, so
that the body can refer to it. A variable is declared after its value.
-/

import Qalam.Analysis.Expression

namespace Qalam.Analysis

/-- The surroundings of a loop body or of a case. -/
def insideLoop (around : Surroundings) : Surroundings := { around with inLoop := true }

/-- The surroundings of a function body. Loops around the function do not count in it. -/
def insideFunction (id : EntityId) (around : Surroundings) : Surroundings :=
  { around with inLoop := false, inFunction := some id }

/-- The surroundings of a class body. Loops around the class do not count in it, but a function
does. -/
def insideClass (id : EntityId) (around : Surroundings) : Surroundings :=
  { around with inLoop := false, inClass := some id }

/-- Bind a value that may be missing, and give its tag. -/
def optional : Option Expr → Analysis (Option Expr × Tag)
  | some e => do
    let e ← expr e
    return (some e, e.tag)
  | none => return (none, .none)

/-- Declare a variable or constant after its value. -/
def declarator (constant : Bool) (name : Binding) (init : Option Expr) :
    Analysis (Binding × Option Expr) := do
  let (init, tag) ← optional init
  let name ← declareBinding name (.variable name.name constant tag)
  return (name, init)

/-- Declare several variables or constants in order. -/
def declarators (constant : Bool) :
    List (Binding × Option Expr) → Analysis (List (Binding × Option Expr))
  | [] => return []
  | (name, init) :: others => do
    let first ← declarator constant name init
    let others ← declarators constant others
    return first :: others

mutual

/-- Bind a statement. -/
def statement : Statement → Analysis Statement
  | .declare pos constant name init => do
    let (name, init) ← declarator constant name init
    return .declare pos constant name init
  | .declareAll pos constant entries => do
    let entries ← declarators constant entries
    return .declareAll pos constant entries
  | .assign pos target value => do
    let target ← expr target
    let value ← expr value
    requireMutable target
    retype value.tag target
    return .assign pos (target.withTag value.tag) value
  | .tryCatch pos body name handler => do
    let body ← blockIn id body
    enter id
    let name ← declareBinding name (.variable name.name false .any)
    let handler ← blockHere handler
    exit
    return .tryCatch pos body name handler
  | .classDef pos name initialiser bodyPos methods => do
    let declared ← declare name.pos (.ofClass name.name)
    enter (insideClass declared)
    let initialiser ← match initialiser with
      | some initialiser => some <$> constructor initialiser
      | none => pure none
    let methods ← functions methods
    exit
    return .classDef pos { name with entity := some declared } initialiser bodyPos methods
  | .function declared => .function <$> function declared
  | .ifElse pos alternatives otherwise => do
    let alternatives ← ifArms alternatives
    let otherwise ← match otherwise with
      | some otherwise => some <$> blockIn id otherwise
      | none => pure none
    return .ifElse pos alternatives otherwise
  | .whileLoop pos condition body => do
    let condition ← expr condition
    require .boolean condition
    let body ← blockIn insideLoop body
    return .whileLoop pos condition body
  | .forLoop pos name init condition step body => do
    enter insideLoop
    let init ← expr init
    let name ← declareBinding name (.variable name.name false init.tag)
    let condition ← expr condition
    require .boolean condition
    let step ← expr step
    let body ← blockIn id body
    exit
    return .forLoop pos name init condition step body
  | .forOf pos name iterable body => do
    let iterable ← expr iterable
    require .iterable iterable
    enter insideLoop
    let name ← declareBinding name (.variable name.name false .any)
    let body ← blockHere body
    exit
    return .forOf pos name iterable body
  | .switch pos selector alternatives otherwise => do
    let selector ← expr selector
    let alternatives ← switchArms alternatives
    let otherwise ← match otherwise with
      | some otherwise => some <$> blockIn insideLoop otherwise
      | none => pure none
    return .switch pos selector alternatives otherwise
  | .returns pos (some value) => do
    requireFunction pos
    let value ← expr value
    return .returns pos (some value)
  | .returns pos none => do
    requireFunction pos
    return .returns pos none
  | .print pos argument => do
    let argument ← expr argument
    return .print pos argument
  | .breakLoop pos => do
    requireLoop pos
    return .breakLoop pos
  | .continueLoop pos => do
    requireLoop pos
    return .continueLoop pos
  | .expr pos e => do
    let e ← expr e
    return .expr pos e

/-- Bind statements in order. -/
def statements : List Statement → Analysis (List Statement)
  | [] => return []
  | first :: others => do
    let first ← statement first
    let others ← statements others
    return first :: others

/-- Bind a block in the current frame. -/
def blockHere : Block → Analysis Block
  | .mk pos body => do
    let body ← statements body
    return .mk pos body

/-- Bind a block in a frame of its own. -/
def blockIn (adjust : Surroundings → Surroundings) : Block → Analysis Block
  | .mk pos body => do
    enter adjust
    let body ← statements body
    exit
    return .mk pos body

/-- Bind a function: its name outside, its parameters and body in one frame. -/
def function : Function → Analysis Function
  | .mk pos name params body => do
    let declared ← declare name.pos (.function name.name)
    enter (insideFunction declared)
    let params ← parameters params
    let body ← blockHere body
    exit
    return .mk pos { name with entity := some declared } params body

/-- Bind functions in order. -/
def functions : List Function → Analysis (List Function)
  | [] => return []
  | first :: others => do
    let first ← function first
    let others ← functions others
    return first :: others

/-- Bind a constructor. It does not count as a function. -/
def constructor : Constructor → Analysis Constructor
  | .mk pos params body => do
    enter id
    let params ← parameters params
    let body ← blockHere body
    exit
    return .mk pos params body

/-- Bind the alternatives of an `if`. -/
def ifArms : List Arm → Analysis (List Arm)
  | [] => return []
  | first :: others => do
    let first ← ifArm first
    let others ← ifArms others
    return first :: others

/-- Bind an alternative of an `if`. -/
def ifArm : Arm → Analysis Arm
  | .mk pos condition body => do
    let condition ← expr condition
    require .boolean condition
    let body ← blockIn id body
    return .mk pos condition body

/-- Bind the cases of a switch. -/
def switchArms : List Arm → Analysis (List Arm)
  | [] => return []
  | first :: others => do
    let first ← switchArm first
    let others ← switchArms others
    return first :: others

/-- Bind a case of a switch. -/
def switchArm : Arm → Analysis Arm
  | .mk pos test body => do
    let test ← expr test
    let body ← blockIn insideLoop body
    return .mk pos test body

end

end Qalam.Analysis

namespace Qalam

/-- Bind a program: annotate its tree and collect its entities. -/
def Program.bind (program : Program) : Except SemanticError BoundProgram :=
  ((Analysis.statements program.statements).run .initial).map fun (body, context) =>
    ⟨⟨body⟩, context.entities⟩

end Qalam
