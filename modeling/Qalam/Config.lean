/-
# Configuration

A configuration says how far blocks are indented and where names come from: a dictionary, a
command with a time limit, or nothing. It is read from a document; what the document leaves out
keeps its default, and what it says beyond that is ignored. A record can also be written as an
array of its fields in their order.
-/

import Qalam.Toml.Parse

namespace Qalam

/-- Where names come from. -/
structure NamingConfig where
  dictionary : Option String
  command : Option (List String)
  timeoutMs : Nat
  deriving DecidableEq

/-- The settings of a compilation. -/
structure Config where
  naming : NamingConfig
  indent : Nat
  deriving DecidableEq

/-- Names come from nowhere unless a document says otherwise. -/
def NamingConfig.default : NamingConfig := ⟨none, none, 2000⟩

/-- The settings without a document. -/
def Config.default : Config := ⟨.default, 2⟩

namespace Toml

/-- The fields of a record, found by position and name. -/
abbrev Record : Type := Nat → String → Option Value

/-- A value as a record. A date is a record without any known field. -/
def Value.record? : Value → Option Record
  | .table _ entries => some fun _ name => entries.lookup name
  | .array items => some fun index _ => items[index]?
  | .tables items => some fun index _ => (items[index]?).map (.table .header)
  | .date _ => some fun _ _ => none
  | _ => none

/-- A value as a string. -/
def Value.string? : Value → Option String
  | .string text => some text
  | _ => none

/-- A value as a number that is not negative. -/
def Value.nat? : Value → Option Nat
  | .integer value => if 0 ≤ value then some value.toNat else none
  | _ => none

/-- A value as a list of strings. -/
def Value.strings? : Value → Option (List String)
  | .array items => items.mapM Value.string?
  | .tables [] => some []
  | _ => none

/-- A field that may be missing. The outer result is none if the field cannot be read. -/
def optional? {α : Type} (read : Value → Option α) : Option Value → Option (Option α)
  | none => some none
  | some value => (read value).map some

end Toml

open Toml

/-- Read the settings for names. -/
def NamingConfig.ofValue? (value : Value) : Option NamingConfig := do
  let record ← value.record?
  let dictionary ← optional? Value.string? (record 0 "dictionary")
  let command ← optional? Value.strings? (record 1 "command")
  let timeoutMs ← optional? Value.nat? (record 2 "timeout_ms")
  return ⟨dictionary, command, timeoutMs.getD NamingConfig.default.timeoutMs⟩

/-- Read the settings of a compilation from a document. -/
def Config.ofToml? (text : String) : Option Config := do
  let table ← Toml.parse? text
  let naming ← optional? NamingConfig.ofValue? (table.get? "naming")
  let indent ← optional? Value.nat? (table.get? "indent")
  return ⟨naming.getD .default, indent.getD Config.default.indent⟩

/-- The names of a dictionary, in the order of the document. -/
abbrev Dictionary : Type := List (String × String)

/-- The key under which a date is stored where a table is expected. No identifier is spelled
like this. -/
def dateKey : String := "$__toml_private_datetime"

/-- The entries of a table of names. A date counts as a table with a single entry. -/
def Dictionary.ofValue? : Value → Option Dictionary
  | .table _ entries => entries.mapM fun (spelling, value) =>
    value.string?.map fun name => (spelling, name)
  | .date text => some [(dateKey, text)]
  | _ => none

/-- Read a dictionary from a document. -/
def Dictionary.ofToml? (text : String) : Option Dictionary := do
  let table ← Toml.parse? text
  let names ← optional? Dictionary.ofValue? (table.get? "names")
  return names.getD []

end Qalam
