/-
# The table of names

Every entity and every field of a program gets one name in the generated code. The oracle is
asked once for each spelling in the source; where it has no usable proposal the spelling gets
the next of `var_1`, `var_2` and so on. Entities and fields have separate name spaces: within
one of them a name that is taken already is made distinct by the least suffix that is free.
Entities moreover avoid the words that mean something to the target language.
-/

import Qalam.Entity
import Qalam.Naming.Oracle
import Qalam.Naming.Sanitize

namespace Qalam.Naming

/-- Words that never become the name of an entity. -/
def reserved : List String :=
  ["arguments", "await", "break", "case", "catch", "class", "console", "const", "continue",
    "debugger", "default", "delete", "do", "else", "enum", "eval", "export", "extends", "false",
    "finally", "for", "function", "if", "implements", "import", "in", "instanceof", "interface",
    "let", "new", "null", "package", "private", "protected", "public", "return", "static",
    "super", "switch", "this", "throw", "true", "try", "typeof", "undefined", "var", "void",
    "while", "with", "yield"]

/-- A base name with a numeric suffix; zero stands for no suffix. -/
def suffixed (base : String) : Nat → String
  | 0 => base
  | suffix + 1 => base ++ "_" ++ toString (suffix + 1)

/-- A base name with the least suffix that is not taken. Among one more suffix than there are
taken names one is free. -/
def fresh (base : String) (taken : List String) : String :=
  ((List.range (taken.length + 1)).findSome? fun suffix =>
    if suffixed base suffix ∈ taken then none else some (suffixed base suffix)).getD base

/-- The names given so far, the memory of the oracle, and the number of spellings for which it
had no usable proposal. -/
structure Table (oracle : Oracle) where
  memory : oracle.Memory
  candidates : List (String × String)
  fallbacks : Nat
  entities : List (EntityId × String)
  fields : List (String × String)

namespace Table

variable {oracle : Oracle}

/-- The table before any name is given. -/
def empty (oracle : Oracle) : Table oracle := ⟨oracle.initial, [], 0, [], []⟩

/-- The names that a new entity has to avoid. -/
def takenEntities (table : Table oracle) : List String :=
  reserved ++ table.entities.map Prod.snd

/-- The names that a new field has to avoid. -/
def takenFields (table : Table oracle) : List String :=
  table.fields.map Prod.snd

/-- The base name for a spelling. The oracle is asked only at the first time. -/
def candidate (spelling : String) : StateM (Table oracle) String := do
  let table ← get
  match table.candidates.lookup spelling with
  | some base => return base
  | none =>
    let (proposal, memory) := oracle.ask table.memory spelling
    match proposal.bind sanitize? with
    | some base =>
      set { table with memory, candidates := (spelling, base) :: table.candidates }
      return base
    | none =>
      let fallbacks := table.fallbacks + 1
      let base := "var_" ++ toString fallbacks
      set { table with memory, fallbacks, candidates := (spelling, base) :: table.candidates }
      return base

/-- The name of an entity. It stays the same once it is given. -/
def entity (id : EntityId) (spelling : String) : StateM (Table oracle) String := do
  match (← get).entities.lookup id with
  | some name => return name
  | none =>
    let base ← candidate spelling
    let table ← get
    let name := fresh base table.takenEntities
    set { table with entities := (id, name) :: table.entities }
    return name

/-- The name of a field. It stays the same once it is given. -/
def field (spelling : String) : StateM (Table oracle) String := do
  match (← get).fields.lookup spelling with
  | some name => return name
  | none =>
    let base ← candidate spelling
    let table ← get
    let name := fresh base table.takenFields
    set { table with fields := (spelling, name) :: table.fields }
    return name

/-- The name of a declared or used identifier. Without an entity it is named like a field. -/
def identifier (entity : Option EntityId) (spelling : String) : StateM (Table oracle) String :=
  match entity with
  | some id => Table.entity id spelling
  | none => field spelling

end Table

end Qalam.Naming
