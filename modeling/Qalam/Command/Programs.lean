/-
# Programs by their names

The programs that a command can name. Those that read their input leave nothing of it, the
others leave all of it.
-/

import Qalam.Command.Calculation
import Qalam.Command.Condition
import Qalam.Command.Edit

namespace Qalam.Command

/-- What is read and what is complained about, in the order of arguments. The input can be read
only once. -/
def catParts (contents? : String → Option (List Char)) (find : String → Option Kind) :
    List String → List Char → List Char × List String
  | [], _ => ([], [])
  | arg :: args, input =>
    let (text, complaints) :=
      if arg = "-" || arg = "/dev/stdin" then (input, [])
      else if arg = "/dev/null" then ([], [])
      else match contents? arg, find arg with
        | some text, _ => (text, [])
        | none, some .directory => ([], [s!"cat: {arg}: Is a directory"])
        | none, _ => ([], [s!"cat: {arg}: No such file or directory"])
    let left := if arg = "-" || arg = "/dev/stdin" then [] else input
    let (others, more) := catParts contents? find args left
    (text ++ others, complaints ++ more)

/-- The program `cat`: its input and files in the order of its arguments. -/
def cat (contents? : String → Option (List Char)) (find : String → Option Kind)
    (args : List String) (input : List Char) : Outcome :=
  let args := if args.head? = some "--" then args.tail else args
  let (output, complaints) :=
    catParts contents? find (if args.isEmpty then ["-"] else args) input
  { Outcome.printed output with complaints, status := if complaints.isEmpty then 0 else 1 }

/-- Programs that are found by their name alone. -/
def programs : List String :=
  ["echo", "printf", "true", "false", "test", "[", "sleep", "cat", "head", "tail", "rev", "wc",
    "basename", "dirname", "seq", "tr", "cut", "sed", "grep", "sort", "uniq", "tee", "expr", "sh",
    "dash", "env"]

/-- Run a program that runs no other one. -/
def program? (contents? : String → Option (List Char)) (find : String → Option Kind)
    (program : String) (args : List String) (input : List Char) : Option Outcome :=
  let keep (outcome : Outcome) : Option Outcome := some { outcome with unread := input }
  let named (outcome : Outcome) : Outcome :=
    { outcome with complaints := outcome.complaints.map fun text => program ++ ": " ++ text }
  match program with
  | "echo" => keep (echo args)
  | "printf" => keep (printf true args)
  | "true" => keep (.ended 0)
  | "false" => keep (.ended 1)
  | "test" => keep (named (test find args))
  | "[" => keep (named (bracket find args))
  | "sleep" => keep (sleep args)
  | "basename" => keep (basename args)
  | "dirname" => keep (dirname args)
  | "seq" => keep (seq args)
  | "expr" => keep (expr args)
  | "cat" => some (cat contents? find args input)
  | "head" => some (head args input)
  | "tail" => some (tail args input)
  | "rev" => some (rev args input)
  | "wc" => some (wc args input)
  | "tr" => some (tr args input)
  | "cut" => some (cut args input)
  | "sed" => some (sed args input)
  | "grep" => some (grep args input)
  | "sort" => some (sort args input)
  | "uniq" => some (uniq args input)
  | "tee" => some (.printed input)
  | _ => none

end Qalam.Command
