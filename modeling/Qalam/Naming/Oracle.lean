/-
# Sources of names

An oracle proposes a name for each identifier of a program, or none. It may remember what it
was asked before, so nothing is assumed about how two answers are related.
-/

namespace Qalam.Naming

/-- A source of proposals with a memory of its own. -/
structure Oracle where
  Memory : Type
  initial : Memory
  ask : Memory → String → Option String × Memory

namespace Oracle

/-- The oracle that answers each question in the same way every time. -/
def ofFunction (answer : String → Option String) : Oracle where
  Memory := Unit
  initial := ()
  ask _ spelling := (answer spelling, ())

/-- The oracle that never proposes anything. -/
def silent : Oracle := ofFunction fun _ => none

/-- The oracle that looks proposals up in a list. -/
def dictionary (entries : List (String × String)) : Oracle :=
  ofFunction fun spelling => entries.lookup spelling

/-- An oracle that also keeps the questions it was asked, the latest one first. -/
def recording (oracle : Oracle) : Oracle where
  Memory := oracle.Memory × List String
  initial := (oracle.initial, [])
  ask memory spelling :=
    let (answer, inner) := oracle.ask memory.1 spelling
    (answer, (inner, spelling :: memory.2))

end Oracle

end Qalam.Naming
