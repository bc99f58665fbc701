/-
# What analysis comes to in a program

A walk over a program in the order of analysis, as a list of visits. A visit is one thing to do
(open or close a frame, declare a name, evaluate an expression, assign, jump) together with the
constructs around it, the innermost one first. The list is defined by recursion on the tree and
knows nothing of contexts, so that what a program looks like can be said without analysing it.
-/

import Qalam.Analysis.Statement
import Qalam.Proofs.Structure.Parts

namespace Qalam.Checking

/-- The constructs that can stand around a place of a program. A `block` is the body of an `if`,
of a `try`, of a handler, or of a counting loop inside the frame of its header. -/
inductive Construct
  | block | loop | switchCase | function | initialiser | classBody
  deriving DecidableEq

/-- The constructs that decide whether a place can be left by a jump. -/
def Construct.isBoundary : Construct → Bool
  | loop | switchCase | function | classBody => true
  | block | initialiser => false

/-- The nearest boundary around a place is a loop or a case of a switch. -/
def Leavable (around : List Construct) : Prop :=
  around.find? Construct.isBoundary = some .loop ∨
    around.find? Construct.isBoundary = some .switchCase

instance (around : List Construct) : Decidable (Leavable around) :=
  inferInstanceAs (Decidable (_ ∨ _))

/-- What a declared name stands for. -/
inductive Origin
  | variable (constant : Bool) (init : Option Expr)
  | parameter (tag : Option Tag)
  | item
  | function
  | classDef

namespace Origin

/-- The entity of a declaration, from its bound value. -/
def entity (name : String) : Origin → Entity
  | .variable constant (some init) => .variable name constant init.tag
  | .variable constant none => .variable name constant .none
  | .parameter _ | .item => .variable name false .any
  | .function => .function name
  | .classDef => .ofClass name

/-- The expressions in the value of a declaration. -/
def parts : Origin → List Expr
  | .variable _ init => Parts.optional init
  | _ => []

@[simp]
theorem name_entity (name : String) : ∀ origin : Origin, (origin.entity name).name = name
  | .variable _ (some _) | .variable _ none | .parameter _ | .item | .function | .classDef => rfl

end Origin

/-- A declared name, with its entity once bound. -/
structure Declaration where
  name : String
  pos : Position
  entity : Option EntityId
  origin : Origin

namespace Declaration

/-- The declaration of a binding. -/
def ofBinding (name : Binding) (origin : Origin) : Declaration :=
  ⟨name.name, name.pos, name.entity, origin⟩

/-- The declaration of a parameter. -/
def ofParameter (param : Parameter) : Declaration :=
  ⟨param.name, param.note.pos, param.entity, .parameter param.note.tag⟩

/-- The declaration of a variable or constant with its value. -/
def ofDeclarator (constant : Bool) (entry : Binding × Option Expr) : Declaration :=
  ofBinding entry.1 (.variable constant entry.2)

end Declaration

/-- The jumps out of a loop body or case. -/
inductive Jump
  | breakLoop | continueLoop
  deriving DecidableEq

/-- One thing that analysis does. An expression may have to meet a requirement. -/
inductive Act
  | opens
  | closes
  | declares (declaration : Declaration)
  | evaluates (requirement : Option Requirement) (e : Expr)
  | assigns (target value : Expr)
  | leaves (jump : Jump) (pos : Position)
  | returns (pos : Position)

/-- The expressions that an act is about, those inside other expressions included. -/
def Act.parts : Act → List Expr
  | declares declaration => declaration.origin.parts
  | evaluates _ e => Parts.expr e
  | assigns target value => Parts.expr target ++ Parts.expr value
  | opens | closes | leaves _ _ | returns _ => []

/-- The expressions of an act whose tags are their own: all but the target of an assignment,
which takes its tag from the value. -/
def Act.values : Act → List Expr
  | assigns target value => (Parts.expr target).tail ++ Parts.expr value
  | act => act.parts

/-- An act and the constructs around it, the innermost one first. -/
structure Visit where
  around : List Construct
  act : Act

namespace Visits

/-- Visits inside a frame that a construct opens. -/
def framed (construct : Construct) (around : List Construct) (inner : List Visit) : List Visit :=
  ⟨around, .opens⟩ :: inner ++ [⟨construct :: around, .closes⟩]

/-- The declarations of parameters. -/
def parameters (around : List Construct) (params : List Parameter) : List Visit :=
  params.map fun param => ⟨around, .declares (.ofParameter param)⟩

/-- The evaluation of a value that may be missing. -/
def optional (around : List Construct) : Option Expr → List Visit
  | some e => [⟨around, .evaluates none e⟩]
  | none => []

/-- The declaration of a binding inside a construct. -/
def binding (around : List Construct) (name : Binding) (origin : Origin) : Visit :=
  ⟨around, .declares (.ofBinding name origin)⟩

mutual

/-- The visits of a statement. -/
def statement (around : List Construct) : Statement → List Visit
  | .declare _ constant name init =>
    [⟨around, .declares (.ofDeclarator constant (name, init))⟩]
  | .declareAll _ constant entries =>
    entries.map fun entry => ⟨around, .declares (.ofDeclarator constant entry)⟩
  | .assign _ target value => [⟨around, .assigns target value⟩]
  | .tryCatch _ body name handler =>
    framed .block around (block (.block :: around) body) ++
      framed .block around
        (binding (.block :: around) name .item :: block (.block :: around) handler)
  | .classDef _ name (some initialiser) _ methods =>
    binding around name .classDef ::
      framed .classBody around (constructor (.classBody :: around) initialiser ++
        functions (.classBody :: around) methods)
  | .classDef _ name none _ methods =>
    binding around name .classDef ::
      framed .classBody around (functions (.classBody :: around) methods)
  | .function declared => function around declared
  | .ifElse _ alternatives (some otherwise) =>
    arms (some .boolean) .block around alternatives ++
      framed .block around (block (.block :: around) otherwise)
  | .ifElse _ alternatives none => arms (some .boolean) .block around alternatives
  | .whileLoop _ condition body =>
    ⟨around, .evaluates (some .boolean) condition⟩ ::
      framed .loop around (block (.loop :: around) body)
  | .forLoop _ name init condition step body =>
    framed .loop around
      (binding (.loop :: around) name (.variable false (some init)) ::
        ⟨.loop :: around, .evaluates (some .boolean) condition⟩ ::
        ⟨.loop :: around, .evaluates none step⟩ ::
        framed .block (.loop :: around) (block (.block :: .loop :: around) body))
  | .forOf _ name iterable body =>
    ⟨around, .evaluates (some .iterable) iterable⟩ ::
      framed .loop around (binding (.loop :: around) name .item :: block (.loop :: around) body)
  | .switch _ selector alternatives (some otherwise) =>
    ⟨around, .evaluates none selector⟩ :: (arms none .switchCase around alternatives ++
      framed .switchCase around (block (.switchCase :: around) otherwise))
  | .switch _ selector alternatives none =>
    ⟨around, .evaluates none selector⟩ :: arms none .switchCase around alternatives
  | .returns pos value => ⟨around, .returns pos⟩ :: optional around value
  | .print _ argument => [⟨around, .evaluates none argument⟩]
  | .breakLoop pos => [⟨around, .leaves .breakLoop pos⟩]
  | .continueLoop pos => [⟨around, .leaves .continueLoop pos⟩]
  | .expr _ e => [⟨around, .evaluates none e⟩]

/-- The visits of several statements. -/
def statements (around : List Construct) : List Statement → List Visit
  | [] => []
  | first :: others => statement around first ++ statements around others

/-- The visits of the statements of a block. -/
def block (around : List Construct) : Block → List Visit
  | .mk _ body => statements around body

/-- The visits of a function or method. -/
def function (around : List Construct) : Function → List Visit
  | .mk _ name params body =>
    binding around name .function ::
      framed .function around
        (parameters (.function :: around) params ++ block (.function :: around) body)

/-- The visits of several functions. -/
def functions (around : List Construct) : List Function → List Visit
  | [] => []
  | first :: others => function around first ++ functions around others

/-- The visits of a constructor. -/
def constructor (around : List Construct) : Constructor → List Visit
  | .mk _ params body =>
    framed .initialiser around
      (parameters (.initialiser :: around) params ++ block (.initialiser :: around) body)

/-- The visits of the alternatives of an `if` or `switch`. -/
def arms (requirement : Option Requirement) (construct : Construct) (around : List Construct) :
    List Arm → List Visit
  | [] => []
  | first :: others =>
    arm requirement construct around first ++ arms requirement construct around others

/-- The visits of one alternative. -/
def arm (requirement : Option Requirement) (construct : Construct) (around : List Construct) :
    Arm → List Visit
  | .mk _ test body =>
    ⟨around, .evaluates requirement test⟩ ::
      framed construct around (block (construct :: around) body)

end

/-! ## Visits and expressions

The expressions of a program are those that its visits are about. -/

/-- The expressions that some visits are about. -/
def parts (visits : List Visit) : List Expr := visits.flatMap fun visit => visit.act.parts

@[simp]
theorem parts_nil : parts [] = [] := rfl

@[simp]
theorem parts_cons (visit : Visit) (others : List Visit) :
    parts (visit :: others) = visit.act.parts ++ parts others := rfl

@[simp]
theorem parts_append (first second : List Visit) :
    parts (first ++ second) = parts first ++ parts second :=
  List.flatMap_append

@[simp]
theorem parts_framed (construct : Construct) (around : List Construct) (inner : List Visit) :
    parts (framed construct around inner) = parts inner := by
  simp [framed, Act.parts]

theorem parts_parameters (around : List Construct) (params : List Parameter) :
    parts (parameters around params) = [] := by
  simp [parts, parameters, Act.parts, Declaration.ofParameter, Origin.parts]

theorem parts_optional (around : List Construct) (value : Option Expr) :
    parts (optional around value) = Parts.optional value := by
  cases value <;> simp [optional, Act.parts, Parts.optional]

theorem parts_declarators (around : List Construct) (constant : Bool)
    (entries : List (Binding × Option Expr)) :
    parts (entries.map fun entry => ⟨around, .declares (.ofDeclarator constant entry)⟩) =
      entries.flatMap fun entry => Parts.optional entry.2 := by
  rw [parts, List.flatMap_map]
  rfl

mutual

theorem parts_statement (around : List Construct) : ∀ s : Statement,
    parts (statement around s) = Parts.statement s
  | .declare _ _ _ init => List.append_nil _
  | .declareAll _ constant entries => parts_declarators around constant entries
  | .assign _ target value => List.append_nil _
  | .tryCatch _ body name handler => by
      simp only [statement, parts_append, parts_framed, parts_cons, parts_block, Parts.statement]
      rfl
  | .classDef _ name (some initialiser) _ methods => by
      simp only [statement, parts_append, parts_framed, parts_cons, parts_constructor,
        parts_functions, Parts.statement]
      rfl
  | .classDef _ name none _ methods => by
      simp only [statement, parts_framed, parts_cons, parts_functions, Parts.statement]
      rfl
  | .function declared => parts_function around declared
  | .ifElse _ alternatives (some otherwise) => by
      simp only [statement, parts_append, parts_framed, parts_arms, parts_block, Parts.statement]
  | .ifElse _ alternatives none => parts_arms _ _ around alternatives
  | .whileLoop _ condition body => by
      simp only [statement, parts_framed, parts_cons, parts_block, Act.parts, Parts.statement]
  | .forLoop _ name init condition step body => by
      simp only [statement, parts_framed, parts_cons, parts_block, Act.parts, Parts.statement]
      rfl
  | .forOf _ name iterable body => by
      simp only [statement, parts_framed, parts_cons, parts_block, Act.parts, Parts.statement]
      rfl
  | .switch _ selector alternatives (some otherwise) => by
      simp only [statement, parts_append, parts_framed, parts_cons, parts_arms, parts_block,
        Act.parts, Parts.statement]
  | .switch _ selector alternatives none => by
      simp only [statement, parts_cons, parts_arms, Act.parts, Parts.statement]
  | .returns _ value => parts_optional around value
  | .print _ argument => List.append_nil _
  | .breakLoop _ => rfl
  | .continueLoop _ => rfl
  | .expr _ e => List.append_nil _

theorem parts_statements (around : List Construct) : ∀ body : List Statement,
    parts (statements around body) = Parts.statements body
  | [] => rfl
  | first :: others => by
      rw [statements, parts_append, parts_statement, parts_statements, Parts.statements]

theorem parts_block (around : List Construct) : ∀ body : Block,
    parts (block around body) = Parts.block body
  | .mk _ body => parts_statements around body

theorem parts_function (around : List Construct) : ∀ declared : Function,
    parts (function around declared) = Parts.function declared
  | .mk _ name params body => by
      simp only [function, parts_cons, parts_framed, parts_append, parts_parameters, parts_block,
        Parts.function]
      rfl

theorem parts_functions (around : List Construct) : ∀ members : List Function,
    parts (functions around members) = Parts.functions members
  | [] => rfl
  | first :: others => by
      rw [functions, parts_append, parts_function, parts_functions, Parts.functions]

theorem parts_constructor (around : List Construct) : ∀ initialiser : Constructor,
    parts (constructor around initialiser) = Parts.constructor initialiser
  | .mk _ params body => by
      simp only [constructor, parts_framed, parts_append, parts_parameters, parts_block,
        Parts.constructor, List.nil_append]

theorem parts_arms (requirement : Option Requirement) (construct : Construct)
    (around : List Construct) : ∀ alternatives : List Arm,
    parts (arms requirement construct around alternatives) = Parts.arms alternatives
  | [] => rfl
  | first :: others => by
      rw [arms, parts_append, parts_arm, parts_arms, Parts.arms]

theorem parts_arm (requirement : Option Requirement) (construct : Construct)
    (around : List Construct) : ∀ alternative : Arm,
    parts (arm requirement construct around alternative) = Parts.arm alternative
  | .mk _ test body => by
      simp only [arm, parts_cons, parts_framed, parts_block, Act.parts, Parts.arm]

end

end Visits

end Qalam.Checking

namespace Qalam

/-- The visits of a program. -/
def Program.visits (program : Program) : List Checking.Visit :=
  Checking.Visits.statements [] program.statements

/-- The expressions of a program are those that its visits are about. -/
theorem Program.mem_parts_iff {program : Program} {x : Expr} :
    x ∈ program.parts ↔ ∃ visit ∈ program.visits, x ∈ visit.act.parts := by
  rw [Program.parts, ← Checking.Visits.parts_statements [] program.statements]
  exact List.mem_flatMap

end Qalam
