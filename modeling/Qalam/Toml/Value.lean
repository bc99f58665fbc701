/-
# TOML documents

A document is a table of values. Tables remember how they came about, because that decides
whether they may be opened or extended again: a table with a header of its own, one that was
only mentioned on the way to another header, one made by a dotted key, and one written inline.
-/

namespace Qalam.Toml

/-- How a table came about. -/
inductive Origin
  | header
  | implied
  | dotted
  | inline
  deriving DecidableEq

/-- Values of a document. Floating-point numbers and dates are recognised, but only the text of
a date is kept. -/
inductive Value
  | string (text : String)
  | integer (value : Int)
  | float
  | boolean (value : Bool)
  | date (text : String)
  | array (items : List Value)
  | table (origin : Origin) (entries : List (String × Value))
  | tables (items : List (List (String × Value)))

/-- Entries with distinct keys, in the order in which they were defined. -/
abbrev Table : Type := List (String × Value)

/-- The value of a key. -/
def Table.get? (table : Table) (key : String) : Option Value := table.lookup key

/-- Replace the value of a key, or add it at the end. -/
def Table.put (table : Table) (key : String) (value : Value) : Table :=
  match table with
  | [] => [(key, value)]
  | (other, old) :: rest =>
    if other = key then (key, value) :: rest else (other, old) :: Table.put rest key value

/-- Add a key that is not defined yet. -/
def Table.insert? (table : Table) (key : String) (value : Value) : Option Table :=
  match table.get? key with
  | some _ => none
  | none => some (table.put key value)

/-- Apply a change to the last element of a list. -/
def changeLast? {α : Type} (change : α → Option α) : List α → Option (List α)
  | [] => none
  | [last] => (change last).map ([·])
  | first :: others => (changeLast? change others).map (first :: ·)

/-- Apply a change to the table that a header path leads to. Missing tables on the way are
implied. -/
def Table.alongHeader (change : Table → Option Table) : List String → Table → Option Table
  | [], table => change table
  | key :: path, table =>
    match table.get? key with
    | none => do
      let inner ← alongHeader change path []
      return table.put key (.table .implied inner)
    | some (.table .inline _) => none
    | some (.table origin entries) => do
      let inner ← alongHeader change path entries
      return table.put key (.table origin inner)
    | some (.tables items) => do
      let items ← changeLast? (alongHeader change path) items
      return table.put key (.tables items)
    | some _ => none

/-- Open the table of a header. It must not have been defined before, except by implication. -/
def Table.openTable (key : String) (table : Table) : Option Table :=
  match table.get? key with
  | none => some (table.put key (.table .header []))
  | some (.table .implied entries) => some (table.put key (.table .header entries))
  | some _ => none

/-- Add an element to an array of tables. -/
def Table.openElement (key : String) (table : Table) : Option Table :=
  match table.get? key with
  | none => some (table.put key (.tables [[]]))
  | some (.tables items) => some (table.put key (.tables (items ++ [[]])))
  | some _ => none

/-- Define a key. Tables on the way are made by the dotted key itself or by an earlier one; the
innermost of them cannot be a table that other headers imply. -/
def Table.define (value : Value) : List String → String → Table → Option Table
  | [], key, table => table.insert? key value
  | step :: path, key, table =>
    match table.get? step with
    | none => do
      let inner ← define value path key []
      return table.put step (.table .dotted inner)
    | some (.table .dotted entries) => do
      let inner ← define value path key entries
      return table.put step (.table .dotted inner)
    | some (.table .implied entries) =>
      if path.isEmpty then none
      else do
        let inner ← define value path key entries
        return table.put step (.table .implied inner)
    | some (.tables items) =>
      if path.isEmpty then none
      else do
        let items ← changeLast? (define value path key) items
        return table.put step (.tables items)
    | some _ => none

end Qalam.Toml
