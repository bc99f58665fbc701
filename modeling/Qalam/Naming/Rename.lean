/-
# Giving names to a program

A program is renamed from its beginning to its end, so names are given in the order in which
the generated text mentions them: a declared name comes before its value, the name of a handler
after the body that it guards. Methods are reached through their objects, so they are named
like fields. Nothing but names is changed.
-/

import Qalam.Naming.Table
import Qalam.Tree

namespace Qalam.Naming

/-- A computation that gives names. -/
abbrev Renaming (oracle : Oracle) (α : Type) : Type := StateM (Table oracle) α

namespace Rename

variable {oracle : Oracle}

/-- Name a field. -/
def field (field : Field) : Renaming oracle Field := do
  let name ← Table.field field.name
  return { field with name }

/-- Name a declaration. -/
def binding (binding : Binding) : Renaming oracle Binding := do
  let name ← Table.identifier binding.entity binding.name
  return { binding with name }

/-- Name the declaration of a method. -/
def method (binding : Binding) : Renaming oracle Binding := do
  let name ← Table.field binding.name
  return { binding with name }

/-- Name parameters in order. -/
def parameters : List Parameter → Renaming oracle (List Parameter)
  | [] => return []
  | param :: others => do
    let name ← Table.identifier param.entity param.name
    let others ← parameters others
    return { param with name } :: others

mutual

/-- Name what an expression mentions. -/
def expr : Expr → Renaming oracle Expr
  | .literal note value => return .literal note value
  | .ident note name entity => do
    let name ← Table.identifier entity name
    return .ident note name entity
  | .call note callee args => do
    let callee ← expr callee
    let args ← exprs args
    return .call note callee args
  | .this note name => do
    let name ← field name
    return .this note name
  | .new note target args => do
    let target ← expr target
    let args ← exprs args
    return .new note target args
  | .typeOf note operand => do
    let operand ← expr operand
    return .typeOf note operand
  | .ternary note condition yes no => do
    let condition ← expr condition
    let yes ← expr yes
    let no ← expr no
    return .ternary note condition yes no
  | .binary note op left right => do
    let left ← expr left
    let right ← expr right
    return .binary note op left right
  | .unary note op side operand => do
    let operand ← expr operand
    return .unary note op side operand
  | .array note elements => do
    let elements ← exprs elements
    return .array note elements
  | .object note entries => do
    let entries ← pairs entries
    return .object note entries
  | .member note base index => do
    let base ← expr base
    let index ← expr index
    return .member note base index
  | .property note base name => do
    let base ← expr base
    let name ← field name
    return .property note base name

/-- Name what several expressions mention. -/
def exprs : List Expr → Renaming oracle (List Expr)
  | [] => return []
  | e :: others => do
    let e ← expr e
    let others ← exprs others
    return e :: others

/-- Name what an entry of an object literal mentions. A plain name as a key is a field. -/
def pair : Pair → Renaming oracle Pair
  | .mk pos key value canonical => do
    let key ← match key with
      | .ident note name entity => do
        let name ← Table.field name
        pure (.ident note name entity)
      | key => expr key
    let value ← expr value
    return .mk pos key value canonical

/-- Name what the entries of an object literal mention. -/
def pairs : List Pair → Renaming oracle (List Pair)
  | [] => return []
  | entry :: others => do
    let entry ← pair entry
    let others ← pairs others
    return entry :: others

end

/-- Name what a value mentions, if there is one. -/
def optional : Option Expr → Renaming oracle (Option Expr)
  | some e => do
    let e ← expr e
    return some e
  | none => return none

/-- Name declarations with their values. -/
def declarators :
    List (Binding × Option Expr) → Renaming oracle (List (Binding × Option Expr))
  | [] => return []
  | (name, init) :: others => do
    let name ← binding name
    let init ← optional init
    let others ← declarators others
    return (name, init) :: others

mutual

/-- Name what a statement mentions. -/
def statement : Statement → Renaming oracle Statement
  | .declare pos constant name init => do
    let name ← binding name
    let init ← optional init
    return .declare pos constant name init
  | .declareAll pos constant entries => do
    let entries ← declarators entries
    return .declareAll pos constant entries
  | .assign pos target value => do
    let target ← expr target
    let value ← expr value
    return .assign pos target value
  | .tryCatch pos body name handler => do
    let body ← block body
    let name ← binding name
    let handler ← block handler
    return .tryCatch pos body name handler
  | .classDef pos name initialiser bodyPos members => do
    let name ← binding name
    let initialiser ← match initialiser with
      | some initialiser => some <$> constructor initialiser
      | none => pure none
    let members ← methods members
    return .classDef pos name initialiser bodyPos members
  | .function (.mk pos name params body) => do
    let name ← binding name
    let params ← parameters params
    let body ← block body
    return .function (.mk pos name params body)
  | .ifElse pos alternatives otherwise => do
    let alternatives ← arms alternatives
    let otherwise ← match otherwise with
      | some otherwise => some <$> block otherwise
      | none => pure none
    return .ifElse pos alternatives otherwise
  | .whileLoop pos condition body => do
    let condition ← expr condition
    let body ← block body
    return .whileLoop pos condition body
  | .forLoop pos name init condition step body => do
    let name ← binding name
    let init ← expr init
    let condition ← expr condition
    let step ← expr step
    let body ← block body
    return .forLoop pos name init condition step body
  | .forOf pos name iterable body => do
    let name ← binding name
    let iterable ← expr iterable
    let body ← block body
    return .forOf pos name iterable body
  | .switch pos selector alternatives otherwise => do
    let selector ← expr selector
    let alternatives ← arms alternatives
    let otherwise ← match otherwise with
      | some otherwise => some <$> block otherwise
      | none => pure none
    return .switch pos selector alternatives otherwise
  | .returns pos value => do
    let value ← optional value
    return .returns pos value
  | .print pos argument => do
    let argument ← expr argument
    return .print pos argument
  | .breakLoop pos => return .breakLoop pos
  | .continueLoop pos => return .continueLoop pos
  | .expr pos e => do
    let e ← expr e
    return .expr pos e

/-- Name what statements mention, in order. -/
def statements : List Statement → Renaming oracle (List Statement)
  | [] => return []
  | first :: others => do
    let first ← statement first
    let others ← statements others
    return first :: others

/-- Name what a block mentions. -/
def block : Block → Renaming oracle Block
  | .mk pos body => do
    let body ← statements body
    return .mk pos body

/-- Name the methods of a class and what they mention. -/
def methods : List Function → Renaming oracle (List Function)
  | [] => return []
  | .mk pos name params body :: others => do
    let name ← method name
    let params ← parameters params
    let body ← block body
    let others ← methods others
    return .mk pos name params body :: others

/-- Name what a constructor mentions. -/
def constructor : Constructor → Renaming oracle Constructor
  | .mk pos params body => do
    let params ← parameters params
    let body ← block body
    return .mk pos params body

/-- Name what the alternatives of an `if` or `switch` mention. -/
def arms : List Arm → Renaming oracle (List Arm)
  | [] => return []
  | .mk pos test body :: others => do
    let test ← expr test
    let body ← block body
    let others ← arms others
    return .mk pos test body :: others

end

end Rename

end Qalam.Naming

namespace Qalam

/-- The program with the names that an oracle leads to. -/
def Program.rename (program : Program) (oracle : Naming.Oracle) : Program :=
  ⟨((Naming.Rename.statements program.statements).run (.empty oracle)).1⟩

end Qalam
