/-
# Entities

An entity is what a declaration brings into being: a variable, a constant, a parameter, a
class or a function. Entities are numbered in the order of their declarations, and the number
is what identifiers of a bound program refer to. A class is a variable with the tag of a class.
-/

import Qalam.Tag

namespace Qalam

/-- The number of an entity in its table. -/
structure EntityId where
  index : Nat
  deriving DecidableEq, Inhabited

/-- The written form of an entity number. -/
def EntityId.text (id : EntityId) : String := s!"#{id.index}"

/-- A declared name. The tag of a variable may change by assignment; a function keeps its
own. -/
inductive Entity
  | variable (name : String) (constant : Bool) (tag : Tag)
  | function (name : String)
  deriving DecidableEq, Inhabited

namespace Entity

/-- The entity of a class. -/
def ofClass (name : String) : Entity := .variable name false .classRef

/-- The declared name. -/
def name : Entity → String
  | .variable name _ _ => name
  | .function name => name

/-- The tag of the value. -/
def tag : Entity → Tag
  | .variable _ _ tag => tag
  | .function _ => .function

/-- Whether assignment is forbidden. -/
def isConstant : Entity → Bool
  | .variable _ constant _ => constant
  | .function _ => false

/-- The entity after an assignment of a value with the given tag. -/
def retype (tag : Tag) : Entity → Entity
  | .variable name constant _ => .variable name constant tag
  | .function name => .function name

/-- The description of an entity. What holds a class is described as that class, whether it
was declared constant or not. -/
def text : Entity → String
  | .variable name _ .classRef => "Class " ++ name
  | .variable name true tag => "Variable(const) " ++ name ++ ": " ++ tag.text
  | .variable name false tag => "Variable " ++ name ++ ": " ++ tag.text
  | .function name => "Function " ++ name

end Entity

/-- The table of all entities of a program, in the order of declaration. -/
structure Entities where
  entries : Array Entity
  deriving DecidableEq, Inhabited

namespace Entities

/-- The table before any declaration. -/
def empty : Entities := ⟨#[]⟩

/-- The number of entities. -/
def size (entities : Entities) : Nat := entities.entries.size

/-- Whether nothing is declared. -/
def isEmpty (entities : Entities) : Bool := entities.entries.isEmpty

/-- Add an entity; it receives the next free number. -/
def alloc (entities : Entities) (entity : Entity) : EntityId × Entities :=
  (⟨entities.entries.size⟩, ⟨entities.entries.push entity⟩)

/-- The entity with a number. -/
def get? (entities : Entities) (id : EntityId) : Option Entity :=
  entities.entries[id.index]?

/-- Record the tag of a value assigned to an entity. -/
def retype (entities : Entities) (id : EntityId) (tag : Tag) : Entities :=
  ⟨entities.entries.modify id.index (Entity.retype tag)⟩

/-- All entities with their numbers. -/
def toList (entities : Entities) : List (EntityId × Entity) :=
  entities.entries.toList.mapIdx fun index entity => (⟨index⟩, entity)

/-- A new entity can be found under the number it received. -/
theorem get?_alloc (entities : Entities) (entity : Entity) :
    (entities.alloc entity).2.get? (entities.alloc entity).1 = some entity := by
  simp [alloc, get?]

/-- Recording a tag adds no entity. -/
theorem size_retype (entities : Entities) (id : EntityId) (tag : Tag) :
    (entities.retype id tag).size = entities.size := by
  simp [retype, size]

end Entities

end Qalam
