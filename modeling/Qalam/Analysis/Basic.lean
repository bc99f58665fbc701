/-
# Analysis: what the rules have in common

Analysis binds names to entities and values to tags. It walks over a tree in the order of the
text, carries the scope of the current place and the table of the entities declared so far, and
stops at the first fault. Each rule of the language that can be broken is a small check on its
own.
-/

import Qalam.Fault.Semantic
import Qalam.Scope
import Qalam.Tree

namespace Qalam

namespace Analysis

/-- What is known at a place of the program. -/
structure Context where
  scope : Scope
  entities : Entities
  deriving DecidableEq

/-- The context before the first statement. -/
def Context.initial : Context := ⟨.root, .empty⟩

end Analysis

/-- A computation that binds a part of a program or finds a fault in it. -/
abbrev Analysis (α : Type) : Type := StateT Analysis.Context (Except SemanticError) α

namespace Analysis

/-- Report a fault at a position. -/
def failAt {α : Type} (fault : SemanticFault) (pos : Position) : Analysis α :=
  throw ⟨fault, pos⟩

/-- Open a frame. -/
def enter (adjust : Surroundings → Surroundings) : Analysis Unit :=
  modify fun context => { context with scope := context.scope.enter adjust }

/-- Close the innermost frame. -/
def exit : Analysis Unit :=
  modify fun context => { context with scope := context.scope.exit }

/-- The constructs around the current place. -/
def surroundings : Analysis Surroundings := return (← get).scope.surroundings

/-- Add an entity and declare its name in the innermost frame. -/
def declare (pos : Position) (entity : Entity) : Analysis EntityId := do
  let context ← get
  let (id, entities) := context.entities.alloc entity
  match context.scope.declare? entity.name id with
  | some scope =>
    set (⟨scope, entities⟩ : Context)
    return id
  | none => failAt (.alreadyDeclared entity.name) pos

/-- Declare the name of a binding as an entity. -/
def declareBinding (binding : Binding) (entity : Entity) : Analysis Binding := do
  let id ← declare binding.pos entity
  return { binding with entity := some id }

/-- Declare a parameter. Nothing is known about its value. -/
def parameter (param : Parameter) : Analysis Parameter := do
  let id ← declare param.note.pos (.variable param.name false .any)
  return { param with entity := some id, note := { param.note with tag := some .any } }

/-- Declare parameters in order. -/
def parameters : List Parameter → Analysis (List Parameter)
  | [] => return []
  | param :: others => do
    let param ← parameter param
    let others ← parameters others
    return param :: others

/-- The entity of a name and the tag that it has at this point. -/
def resolve (name : String) (pos : Position) : Analysis (EntityId × Tag) := do
  let context ← get
  match context.scope.resolve? name with
  | some id => return (id, ((context.entities.get? id).map Entity.tag).getD .any)
  | none => failAt (.notDeclared name) pos

/-- A field name is not looked up, and nothing is known about its value. -/
def field (field : Field) : Field :=
  { field with note := { field.note with tag := some .any } }

/-- Demand that a bound expression meets a requirement. -/
def require (requirement : Requirement) (e : Expr) : Analysis Unit := do
  if !requirement.accepts e.tag then failAt (.typeMismatch requirement e.tag) e.pos

/-- Demand that a bound expression is not the name of a constant. -/
def requireMutable : Expr → Analysis Unit
  | .ident note _ (some id) => do
    match (← get).entities.get? id with
    | some entity => if entity.isConstant then failAt (.assignToConstant entity.name) note.pos
    | none => return
  | _ => return

/-- Record the tag of a value that is assigned to a bound expression. Only a name keeps it. -/
def retype (tag : Tag) : Expr → Analysis Unit
  | .ident _ _ (some id) =>
    modify fun context => { context with entities := context.entities.retype id tag }
  | _ => return

/-- Demand a loop or switch around a statement. -/
def requireLoop (pos : Position) : Analysis Unit := do
  if !(← surroundings).inLoop then failAt .loopControlOutsideLoop pos

/-- Demand a function around a statement. -/
def requireFunction (pos : Position) : Analysis Unit := do
  if (← surroundings).inFunction.isNone then failAt .returnOutsideFunction pos

/-- Demand a class around an expression. -/
def requireClass (pos : Position) : Analysis Unit := do
  if (← surroundings).inClass.isNone then failAt .thisOutsideClass pos

end Analysis

end Qalam
