/-
# Analysis with modes

A second way to bind a program. Frames lie in an arena, and beside the constructs around it each
frame has two modes. While `bindingParameters` is set, a plain name declares a parameter; while
`insidePropertyAccess` is set, it is a field and is looked up nowhere. So parameters, fields and
plain keys are read like any other name, a field in a frame that is opened for it alone; and the
index of an element has a frame in which the name of a field counts as a name again.

Nothing is undone by itself: whoever opens a frame or sets a mode has to close the frame and to put
the mode back. An analyzer has no result at all where its arena has none.
-/

import Qalam.Analysis.Statement
import Qalam.Proofs.Frames.Arena

namespace Qalam

/-- The constructs around a frame, and its modes. -/
structure Flags extends Surroundings where
  bindingParameters : Bool
  insidePropertyAccess : Bool
  deriving DecidableEq

/-- The flags of a program. -/
def Flags.outermost : Flags := ⟨.outermost, false, false⟩

/-- The frames at a place and the entities declared so far. -/
structure Analyzer where
  scopes : Arena Flags
  entities : Entities

/-- An analyzer before the first statement. -/
def Analyzer.initial : Analyzer := ⟨.new .outermost, .empty⟩

/-- A computation of an analyzer, which finds a fault or has no result. -/
abbrev Analyzing (α : Type) : Type := StateT Analyzer (ExceptT SemanticError Option) α

namespace Analyzer

variable {α : Type}

/-! ## Single actions -/

/-- Work on the arena. -/
def access (work : Arena Flags → Option (α × Arena Flags)) : Analyzing α := fun state =>
  ExceptT.mk ((work state.scopes).map fun (value, scopes) => .ok (value, { state with scopes }))

/-- Perform a check that depends on the entities alone. -/
def check (rule : Analysis α) : Analyzing α := fun state =>
  ExceptT.mk (some ((rule ⟨.root, state.entities⟩).map fun (value, context) =>
    (value, { state with entities := context.entities })))

/-- Report a fault at a position. -/
def failAt (fault : SemanticFault) (pos : Position) : Analyzing α := throw ⟨fault, pos⟩

/-- The flags of the current frame. -/
def flags : Analyzing Flags := access fun scopes => scopes.here?.map fun slot => (slot.flags, scopes)

/-- Open a frame. -/
def enter (adjust : Flags → Flags) : Analyzing Unit :=
  access fun scopes => (scopes.enter? adjust).map fun scopes => ((), scopes)

/-- Close the current frame. -/
def exit : Analyzing Unit := access fun scopes => scopes.exit?.map fun scopes => ((), scopes)

/-- Say whether plain names declare parameters. -/
def setBindingParameters (bindingParameters : Bool) : Analyzing Unit :=
  access fun scopes => (scopes.changeFlags? ({ · with bindingParameters })).map fun (_, scopes) =>
    ((), scopes)

/-- Add an entity and declare its name in the current frame. -/
def declare (pos : Position) (entity : Entity) : Analyzing EntityId := do
  let state ← get
  let (id, entities) := state.entities.alloc entity
  set { state with entities }
  match ← access (·.declare? entity.name id) with
  | .ok () => return id
  | .error fault => failAt fault pos

/-- Declare the name of a binding as an entity. -/
def declareBinding (binding : Binding) (entity : Entity) : Analyzing Binding := do
  let id ← declare binding.pos entity
  return { binding with entity := some id }

/-- The entity and the tag of a plain name, as the modes say. -/
def identifier (name : String) (pos : Position) (entity : Option EntityId) :
    Analyzing (Option EntityId × Tag) := do
  let flags ← flags
  if flags.bindingParameters then
    let id ← declare pos (.variable name false .any)
    return (some id, .any)
  else if flags.insidePropertyAccess then return (entity, .any)
  else
    match ← access fun scopes => (scopes.resolve? name).map fun found => (found, scopes) with
    | some id => return (some id, (((← get).entities.get? id).map Entity.tag).getD .any)
    | none => failAt (.notDeclared name) pos

/-- Read the name of a field. -/
def fieldName (name : String) (pos : Position) (entity : Option EntityId) :
    Analyzing (Option EntityId × Tag) := do
  enter ({ · with insidePropertyAccess := true })
  let found ← identifier name pos entity
  exit
  return found

/-- Read a field. -/
def field (field : Field) : Analyzing Field := do
  let (_, tag) ← fieldName field.name field.note.pos none
  return { field with note := { field.note with tag := some tag } }

/-- Demand a loop or switch around a statement. -/
def requireLoop (pos : Position) : Analyzing Unit := do
  if !(← flags).inLoop then failAt .loopControlOutsideLoop pos

/-- Demand a function around a statement. -/
def requireFunction (pos : Position) : Analyzing Unit := do
  if (← flags).inFunction.isNone then failAt .returnOutsideFunction pos

/-- Demand a class around an expression. -/
def requireClass (pos : Position) : Analyzing Unit := do
  if (← flags).inClass.isNone then failAt .thisOutsideClass pos

/-! ## Expressions -/

mutual

/-- Bind an expression. -/
def expr : Expr → Analyzing Expr
  | .literal note value => return .literal { note with tag := some value.tag } value
  | .ident note name entity => do
    let (entity, tag) ← identifier name note.pos entity
    return .ident { note with tag := some tag } name entity
  | .call note callee args => do
    let callee ← expr callee
    check (Analysis.requireCallable callee)
    let args ← exprs args
    return .call { note with tag := some .any } callee args
  | .this note name => do
    requireClass note.pos
    let name ← field name
    return .this { note with tag := some .any } name
  | .new note target args => do
    let target ← expr target
    check (Analysis.requireClassReference target)
    let args ← exprs args
    return .new { note with tag := some .object } target args
  | .typeOf note operand => do
    let operand ← expr operand
    return .typeOf { note with tag := some .string } operand
  | .ternary note condition yes no => do
    let condition ← expr condition
    check (Analysis.require .boolean condition)
    let yes ← expr yes
    let no ← expr no
    return .ternary { note with tag := some (.widen [yes.tag, no.tag]) } condition yes no
  | .binary note op left right => do
    let left ← expr left
    let right ← expr right
    let tag ← check (Analysis.binaryTag op left right)
    return .binary { note with tag := some tag } op left right
  | .unary note op side operand => do
    let operand ← expr operand
    let tag ← check (Analysis.unaryTag op operand)
    return .unary { note with tag := some tag } op side operand
  | .array note elements => do
    let elements ← exprs elements
    return .array { note with tag := some .array } elements
  | .object note entries => do
    let entries ← pairs [] entries
    return .object { note with tag := some .object } entries
  | .member note base index => do
    let base ← expr base
    check (Analysis.require .arrayOrObject base)
    enter ({ · with insidePropertyAccess := false })
    let index ← expr index
    exit
    if base.tag = .array then check (Analysis.require .integer index)
    return .member { note with tag := some .any } base index
  | .property note base name => do
    let base ← expr base
    check (Analysis.require .object base)
    let name ← field name
    return .property { note with tag := some .any } base name

/-- Bind several expressions in order. -/
def exprs : List Expr → Analyzing (List Expr)
  | [] => return []
  | e :: others => do
    let e ← expr e
    let others ← exprs others
    return e :: others

/-- Bind an entry of an object literal. A plain name as a key is a field name. -/
def pair : Pair → Analyzing Pair
  | .mk pos key value _ => do
    let key ← match key with
      | .ident note name entity => do
        let (entity, tag) ← fieldName name note.pos entity
        pure (.ident { note with tag := some tag } name entity)
      | key => expr key
    let value ← expr value
    return .mk pos key value (some key.keyText)

/-- Bind the entries of an object literal after those with the given keys. -/
def pairs (seen : List String) : List Pair → Analyzing (List Pair)
  | [] => return []
  | entry :: others => do
    let entry ← pair entry
    let seen ← check (Analysis.distinctKey seen entry)
    let others ← pairs seen others
    return entry :: others

end

/-! ## Statements -/

/-- Bind a parameter, which is a plain name and read as an expression. -/
def parameter (param : Parameter) : Analyzing Parameter := do
  match ← expr (.ident param.note param.name param.entity) with
  | .ident note name entity => return ⟨name, note, entity⟩
  | _ => return param

/-- Bind parameters in order. -/
def parameters : List Parameter → Analyzing (List Parameter)
  | [] => return []
  | param :: others => do
    let param ← parameter param
    let others ← parameters others
    return param :: others

/-- Bind a value that may be missing, and give its tag. -/
def optional : Option Expr → Analyzing (Option Expr × Tag)
  | some e => do
    let e ← expr e
    return (some e, e.tag)
  | none => return (none, .none)

/-- Declare a variable or constant after its value. -/
def declarator (constant : Bool) (name : Binding) (init : Option Expr) :
    Analyzing (Binding × Option Expr) := do
  let (init, tag) ← optional init
  let name ← declareBinding name (.variable name.name constant tag)
  return (name, init)

/-- Declare several variables or constants in order. -/
def declarators (constant : Bool) :
    List (Binding × Option Expr) → Analyzing (List (Binding × Option Expr))
  | [] => return []
  | (name, init) :: others => do
    let first ← declarator constant name init
    let others ← declarators constant others
    return first :: others

mutual

/-- Bind a statement. -/
def statement : Statement → Analyzing Statement
  | .declare pos constant name init => do
    let (name, init) ← declarator constant name init
    return .declare pos constant name init
  | .declareAll pos constant entries => do
    let entries ← declarators constant entries
    return .declareAll pos constant entries
  | .assign pos target value => do
    let target ← expr target
    let value ← expr value
    check (Analysis.requireMutable target)
    check (Analysis.retype value.tag target)
    return .assign pos (target.withTag value.tag) value
  | .tryCatch pos body name handler => do
    let body ← blockIn id body
    enter id
    let name ← declareBinding name (.variable name.name false .any)
    let handler ← blockHere handler
    exit
    return .tryCatch pos body name handler
  | .classDef pos name initialiser bodyPos methods => do
    let declared ← declare name.pos (.ofClass name.name)
    enter ({ · with inClass := some declared, inLoop := false })
    let initialiser ← match initialiser with
      | some initialiser => some <$> constructor initialiser
      | none => pure none
    let methods ← functions methods
    exit
    return .classDef pos { name with entity := some declared } initialiser bodyPos methods
  | .function declared => .function <$> function declared
  | .ifElse pos alternatives otherwise => do
    let alternatives ← ifArms alternatives
    let otherwise ← match otherwise with
      | some otherwise => some <$> blockIn id otherwise
      | none => pure none
    return .ifElse pos alternatives otherwise
  | .whileLoop pos condition body => do
    let condition ← expr condition
    check (Analysis.require .boolean condition)
    let body ← blockIn ({ · with inLoop := true }) body
    return .whileLoop pos condition body
  | .forLoop pos name init condition step body => do
    enter ({ · with inLoop := true })
    let init ← expr init
    let name ← declareBinding name (.variable name.name false init.tag)
    let condition ← expr condition
    check (Analysis.require .boolean condition)
    let step ← expr step
    let body ← blockIn id body
    exit
    return .forLoop pos name init condition step body
  | .forOf pos name iterable body => do
    let iterable ← expr iterable
    check (Analysis.require .iterable iterable)
    enter ({ · with inLoop := true })
    let name ← declareBinding name (.variable name.name false .any)
    let body ← blockHere body
    exit
    return .forOf pos name iterable body
  | .switch pos selector alternatives otherwise => do
    let selector ← expr selector
    let alternatives ← switchArms alternatives
    let otherwise ← match otherwise with
      | some otherwise => some <$> blockIn ({ · with inLoop := true }) otherwise
      | none => pure none
    return .switch pos selector alternatives otherwise
  | .returns pos (some value) => do
    requireFunction pos
    let value ← expr value
    return .returns pos (some value)
  | .returns pos none => do
    requireFunction pos
    return .returns pos none
  | .print pos argument => do
    let argument ← expr argument
    return .print pos argument
  | .breakLoop pos => do
    requireLoop pos
    return .breakLoop pos
  | .continueLoop pos => do
    requireLoop pos
    return .continueLoop pos
  | .expr pos e => do
    let e ← expr e
    return .expr pos e

/-- Bind statements in order. -/
def statements : List Statement → Analyzing (List Statement)
  | [] => return []
  | first :: others => do
    let first ← statement first
    let others ← statements others
    return first :: others

/-- Bind a block in the current frame. -/
def blockHere : Block → Analyzing Block
  | .mk pos body => do
    let body ← statements body
    return .mk pos body

/-- Bind a block in a frame of its own. -/
def blockIn (adjust : Flags → Flags) : Block → Analyzing Block
  | .mk pos body => do
    enter adjust
    let body ← statements body
    exit
    return .mk pos body

/-- Bind a function: its name outside, its parameters and body in one frame. -/
def function : Function → Analyzing Function
  | .mk pos name params body => do
    let declared ← declare name.pos (.function name.name)
    enter ({ · with inLoop := false, inFunction := some declared, bindingParameters := true })
    let params ← parameters params
    setBindingParameters false
    let body ← blockHere body
    exit
    return .mk pos { name with entity := some declared } params body

/-- Bind functions in order. -/
def functions : List Function → Analyzing (List Function)
  | [] => return []
  | first :: others => do
    let first ← function first
    let others ← functions others
    return first :: others

/-- Bind a constructor. It does not count as a function. -/
def constructor : Constructor → Analyzing Constructor
  | .mk pos params body => do
    enter ({ · with bindingParameters := true })
    let params ← parameters params
    setBindingParameters false
    let body ← blockHere body
    exit
    return .mk pos params body

/-- Bind the alternatives of an `if`. -/
def ifArms : List Arm → Analyzing (List Arm)
  | [] => return []
  | first :: others => do
    let first ← ifArm first
    let others ← ifArms others
    return first :: others

/-- Bind an alternative of an `if`. -/
def ifArm : Arm → Analyzing Arm
  | .mk pos condition body => do
    let condition ← expr condition
    check (Analysis.require .boolean condition)
    let body ← blockIn id body
    return .mk pos condition body

/-- Bind the cases of a switch. -/
def switchArms : List Arm → Analyzing (List Arm)
  | [] => return []
  | first :: others => do
    let first ← switchArm first
    let others ← switchArms others
    return first :: others

/-- Bind a case of a switch. -/
def switchArm : Arm → Analyzing Arm
  | .mk pos test body => do
    let test ← expr test
    let body ← blockIn ({ · with inLoop := true }) body
    return .mk pos test body

end

end Analyzer

/-- Bind a program with an analyzer. -/
def Program.analyze? (program : Program) : Option (Except SemanticError BoundProgram) :=
  ((Analyzer.statements program.statements).run .initial).run.map fun outcome =>
    outcome.map fun (body, state) => ⟨⟨body⟩, state.entities⟩

end Qalam
