/-
# A printer with modes

A second way to write a program: one walk over the tree that keeps the lines written so far and
four modes beside them. The level says how far the next line stands to the right. While
`standalone` is set, an expression is a statement of its own: a compound one writes its line by
itself, whereas a leaf always comes back as a text. While `formattingParameters` is set, a list is
one of arguments or parameters, and while `inClassBody` is set a function is a method. Every
function that sets a mode has to put it back.

Names are asked for on the way. For each statement the printer keeps a record of the state before
and after it, which nothing reads.
-/

import Qalam.JavaScript.Statement
import Qalam.Naming.Rename

namespace Qalam.Printing

open JavaScript (Margin literal operator asOperand parenthesized declarationWord)
open Naming (Oracle Renaming Table)

/-- What a printer goes by. -/
structure Modes where
  level : Nat
  standalone : Bool
  formattingParameters : Bool
  inClassBody : Bool
  deriving DecidableEq

/-- What a printer has done so far: the names given and the lines written, with the spaces of one
level and the modes for what follows. -/
structure Page (oracle : Oracle) where
  width : Nat
  names : Table oracle
  lines : List String
  modes : Modes

/-- Where the next line begins. -/
def Page.margin {oracle : Oracle} (page : Page oracle) : Margin := ⟨page.width, page.modes.level⟩

/-- The writing of a statement, with the page before and after it. -/
structure Call (oracle : Oracle) where
  statement : Statement
  before : Page oracle
  after : Page oracle

/-- A page and the statements that were written on it, in the order in which they ended. -/
structure Printer (oracle : Oracle) extends Page oracle where
  calls : List (Call oracle)

/-- A printer at the beginning of a program. -/
def Printer.initial (oracle : Oracle) (width : Nat) : Printer oracle where
  width := width
  names := .empty oracle
  lines := []
  modes := ⟨0, true, false, false⟩
  calls := []

/-- A computation that writes. -/
abbrev Writing (oracle : Oracle) (α : Type) : Type := StateM (Printer oracle) α

variable {oracle : Oracle}

/-! ## Single actions -/

/-- Write a line. -/
def emit (text : String) : Writing oracle Unit :=
  modify fun g => { g with lines := g.lines ++ [g.margin.line text] }

/-- Ask for names. -/
def request {α : Type} (naming : Renaming oracle α) : Writing oracle α := do
  let g ← get
  let (value, names) := naming.run g.names
  set { g with names }
  return value

/-- Change the modes. -/
def adjust (change : Modes → Modes) : Writing oracle Unit :=
  modify fun g => { g with modes := change g.modes }

/-- Say whether an expression is a statement of its own. -/
def setStandalone (standalone : Bool) : Writing oracle Unit := adjust ({ · with standalone })

/-- Say whether a list is one of arguments or parameters. -/
def setFormattingParameters (formattingParameters : Bool) : Writing oracle Unit :=
  adjust ({ · with formattingParameters })

/-- Say whether a function is a method. -/
def setInClassBody (inClassBody : Bool) : Writing oracle Unit := adjust ({ · with inClassBody })

/-- Go one level deeper. -/
def indent : Writing oracle Unit := adjust fun modes => { modes with level := modes.level + 1 }

/-- Go one level back. -/
def dedent : Writing oracle Unit := adjust fun modes => { modes with level := modes.level - 1 }

/-- Write a statement and keep a record of it. -/
def recorded (s : Statement) (writing : Writing oracle Unit) : Writing oracle Unit := do
  let before ← get
  writing
  modify fun after => { after with calls := after.calls ++ [⟨s, before.toPage, after.toPage⟩] }

/-- The name of a declaration. -/
def binding (name : Binding) : Writing oracle String :=
  request (Table.identifier name.entity name.name)

/-- The name of a field. -/
def fieldName (field : Field) : Writing oracle String := request (Table.field field.name)

/-! ## Expressions -/

mutual

/-- The text of an expression inside a line, whatever the current mode. -/
def fragment (e : Expr) : Writing oracle String := do
  let standalone := (← get).modes.standalone
  setStandalone false
  let text ← expression e
  setStandalone standalone
  return text.getD ""
termination_by (sizeOf e, 2)

/-- The text of an expression as an operand of another one. -/
def operand (e : Expr) : Writing oracle String := do
  let text ← fragment e
  return asOperand e text
termination_by (sizeOf e, 3)

/-- The text of an expression, or none if it has written a line of its own. -/
def expression : Expr → Writing oracle (Option String)
  | .literal _ value => return some (literal value)
  | .ident _ name entity => do
    let name ← request (Table.identifier entity name)
    return some name
  | e => do
    let standalone := (← get).modes.standalone
    setStandalone false
    let text ← compound e
    setStandalone standalone
    if (← get).modes.standalone then
      emit (text ++ ";")
      return none
    else return some text
termination_by e => (sizeOf e, 1)

/-- The text of an expression that has parts. A leaf has none. -/
def compound : Expr → Writing oracle String
  | .literal _ value => return literal value
  | .ident _ name entity => request (Table.identifier entity name)
  | .call _ callee args => do
    let callee ← operand callee
    let args ← list args true
    return callee ++ parenthesized args
  | .this _ field => do
    let field ← fieldName field
    return "this." ++ field
  | .new _ target args => do
    let target ← operand target
    let args ← list args true
    return "new " ++ target ++ parenthesized args
  | .typeOf _ argument => do
    let argument ← operand argument
    return "typeof " ++ argument
  | .ternary _ condition yes no => do
    let condition ← operand condition
    let yes ← operand yes
    let no ← operand no
    return condition ++ " ? " ++ yes ++ " : " ++ no
  | .binary _ op left right => do
    let left ← operand left
    let right ← operand right
    let text := left ++ " " ++ operator op ++ " " ++ right
    return if op.isCompoundAssignment then text else parenthesized text
  | .unary _ op fixity argument => do
    let argument ← operand argument
    return match fixity with
      | .before => op.text ++ parenthesized argument
      | .behind => argument ++ op.text
  | .array _ elements => do
    let elements ← list elements false
    return "[" ++ elements ++ "]"
  | .object _ entries => do
    let parts ← pairs entries
    return "\x7b" ++ ", ".intercalate parts ++ "\x7d"
  | .member _ base index => do
    let base ← operand base
    let index ← fragment index
    return base ++ "[" ++ index ++ "]"
  | .property _ base field => do
    let base ← operand base
    let field ← fieldName field
    return base ++ "." ++ field
termination_by e => (sizeOf e, 0)

/-- Expressions with commas between them: arguments and parameters have a blank behind each. -/
def list (es : List Expr) (parameters : Bool) : Writing oracle String := do
  let enclosing := (← get).modes.formattingParameters
  setFormattingParameters parameters
  let parts ← fragments es
  let separator := if (← get).modes.formattingParameters then ", " else ","
  setFormattingParameters enclosing
  return separator.intercalate parts
termination_by (sizeOf es, 1)

/-- The texts of several expressions. -/
def fragments : List Expr → Writing oracle (List String)
  | [] => return []
  | e :: others => do
    let text ← fragment e
    let texts ← fragments others
    return text :: texts
termination_by es => (sizeOf es, 0)

/-- The texts of the entries of an object literal. A plain name as a key is a field. -/
def pairs : List Pair → Writing oracle (List String)
  | [] => return []
  | .mk _ key value _ :: others => do
    let key ← match key with
      | .ident _ name _ => request (Table.field name)
      | key => fragment key
    let value ← fragment value
    let texts ← pairs others
    return (key ++ ": " ++ value) :: texts
termination_by entries => (sizeOf entries, 0)

end

/-! ## Statements -/

/-- Parameters, which are written like arguments. -/
def parameters (params : List Parameter) : Writing oracle String :=
  list (params.map fun param => .ident param.note param.name param.entity) true

/-- The texts of declared names with their values. -/
def declarators : List (Binding × Option Expr) → Writing oracle (List String)
  | [] => return []
  | (name, init) :: others => do
    let name ← binding name
    let init ← match init with
      | some init => fragment init
      | none => pure "undefined"
    let texts ← declarators others
    return (name ++ " = " ++ init) :: texts

mutual

/-- Write a statement. -/
def statement (s : Statement) : Writing oracle Unit :=
  recorded s <| match s with
  | .declare _ constant name (some init) => do
    let name ← binding name
    let init ← fragment init
    emit (declarationWord constant ++ " " ++ name ++ " = " ++ init ++ ";")
  | .declare _ constant name none => do
    let name ← binding name
    if constant then emit ("const " ++ name ++ " = undefined;")
    else emit ("let " ++ name ++ ";")
  | .declareAll _ constant entries => do
    let parts ← declarators entries
    emit (declarationWord constant ++ " " ++ ", ".intercalate parts ++ ";")
  | .assign _ target value => do
    let target ← fragment target
    let value ← fragment value
    emit (target ++ " = " ++ value ++ ";")
  | .tryCatch _ body name handler => do
    emit "try \x7b"
    indented body
    let name ← binding name
    emit ("\x7d catch (" ++ name ++ ") \x7b")
    indented handler
    emit "\x7d"
  | .classDef _ name initialiser _ members => do
    let name ← binding name
    emit ("class " ++ name ++ " \x7b")
    indent
    match initialiser with
      | some initialiser => constructor initialiser
      | none => pure ()
    let enclosing := (← get).modes.inClassBody
    setInClassBody true
    methods members
    setInClassBody enclosing
    dedent
    emit "\x7d"
  | .function declared => function declared
  | .ifElse _ alternatives otherwise => do
    ifArms true alternatives
    match otherwise with
      | some otherwise => do
        emit "\x7d else \x7b"
        indented otherwise
      | none => pure ()
    emit "\x7d"
  | .whileLoop _ condition body => do
    let condition ← fragment condition
    emit ("while (" ++ condition ++ ") \x7b")
    indented body
    emit "\x7d"
  | .forLoop _ name init condition step body => do
    let name ← binding name
    let init ← fragment init
    let condition ← fragment condition
    let step ← fragment step
    emit ("for (let " ++ name ++ " = " ++ init ++ "; " ++ condition ++ "; " ++ step ++ ") \x7b")
    indented body
    emit "\x7d"
  | .forOf _ name iterable body => do
    let name ← binding name
    let iterable ← fragment iterable
    emit ("for (let " ++ name ++ " of " ++ iterable ++ ") \x7b")
    indented body
    emit "\x7d"
  | .switch _ selector alternatives otherwise => do
    let selector ← fragment selector
    emit ("switch (" ++ selector ++ ") \x7b")
    indent
    cases alternatives
    match otherwise with
      | some otherwise => do
        emit "default:"
        indented otherwise
      | none => pure ()
    dedent
    emit "\x7d"
  | .returns _ (some value) => do
    let value ← fragment value
    emit ("return " ++ value ++ ";")
  | .returns _ none => emit "return;"
  | .print _ argument => do
    let argument ← fragment argument
    emit ("console.log(" ++ argument ++ ");")
  | .breakLoop _ => emit "break;"
  | .continueLoop _ => emit "continue;"
  | .expr _ e => do
    -- a compound expression has written its line already
    match ← expression e with
      | some text => emit (text ++ ";")
      | none => pure ()

/-- Write statements one after the other. -/
def statements : List Statement → Writing oracle Unit
  | [] => pure ()
  | first :: others => do
    statement first
    statements others

/-- Write a block one level deeper. -/
def indented : Block → Writing oracle Unit
  | .mk _ body => do
    indent
    statements body
    dedent

/-- Write a function, or a method while the mode says so. Methods are named like fields. -/
def function : Function → Writing oracle Unit
  | .mk _ name params body => do
    let isMethod := (← get).modes.inClassBody
    let name ← if isMethod then request (Table.field name.name) else binding name
    let params ← parameters params
    if isMethod then emit (name ++ "(" ++ params ++ ") \x7b")
    else emit ("function " ++ name ++ "(" ++ params ++ ") \x7b")
    setInClassBody false
    indented body
    setInClassBody isMethod
    emit "\x7d"

/-- Write the statements in the body of a class, which are functions. -/
def methods : List Function → Writing oracle Unit
  | [] => pure ()
  | first :: others => do
    recorded (.function first) (function first)
    methods others

/-- Write a constructor. -/
def constructor : Constructor → Writing oracle Unit
  | .mk _ params body => do
    let params ← parameters params
    emit ("constructor(" ++ params ++ ") \x7b")
    indented body
    emit "\x7d"

/-- Write the alternatives of an `if`. Only the first one has nothing to close. -/
def ifArms (first : Bool) : List Arm → Writing oracle Unit
  | [] => pure ()
  | .mk _ condition body :: others => do
    let condition ← fragment condition
    if first then emit ("if (" ++ condition ++ ") \x7b")
    else emit ("\x7d else if (" ++ condition ++ ") \x7b")
    indented body
    ifArms false others

/-- Write the cases of a switch. -/
def cases : List Arm → Writing oracle Unit
  | [] => pure ()
  | .mk _ test body :: others => do
    let test ← fragment test
    emit ("case " ++ test ++ ":")
    indented body
    cases others

end

end Qalam.Printing

namespace Qalam

/-- A printer that has written a program. -/
def Program.printer (program : Program) (oracle : Naming.Oracle) (width : Nat) :
    Printing.Printer oracle :=
  ((Printing.statements program.statements).run (.initial oracle width)).2

/-- The text of a program as a printer writes it. -/
def Program.printed (program : Program) (oracle : Naming.Oracle) (width : Nat) : String :=
  "\n".intercalate (program.printer oracle width).lines

end Qalam
