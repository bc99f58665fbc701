/-
# Timings

How long each stage of a compilation took, in nanoseconds, and the two ways to report it. A
report is in milliseconds as binary floating-point numbers: the whole seconds and the fraction
of a second are converted, added and scaled, each step with one rounding.
-/

import Qalam.Decimal.Layout

namespace Qalam

/-- Nanoseconds spent in each stage. -/
structure Timings where
  lexer : Nat
  parser : Nat
  analyzer : Nat
  generator : Nat
  deriving DecidableEq, Inhabited

/-- The ways to report timings. -/
inductive TimingsFormat
  | human
  | json
  deriving DecidableEq

namespace Timings

/-- The timings of a compilation that took no time. -/
def zero : Timings := ⟨0, 0, 0, 0⟩

/-- The time of all stages together. -/
def total (timings : Timings) : Nat :=
  timings.lexer + timings.parser + timings.analyzer + timings.generator

/-- The number of nanoseconds in a second. -/
def secondLength : Nat := 1000000000

/-- Nanoseconds as milliseconds. -/
def milliseconds (nanoseconds : Nat) : Binary64 :=
  let seconds := Binary64.ofNat (nanoseconds / secondLength)
  let fraction := (Binary64.ofNat (nanoseconds % secondLength)).divNat secondLength
  (seconds.add fraction).mul (.ofNat 1000)

/-- A text with spaces behind it up to a width. -/
def padRight (width : Nat) (text : String) : String :=
  text ++ String.ofList (List.replicate (width - text.length) ' ')

/-- A text with spaces before it up to a width. -/
def padLeft (width : Nat) (text : String) : String :=
  String.ofList (List.replicate (width - text.length) ' ') ++ text

/-- A row of the table for readers: a name and a time with three places. -/
def row (name : String) (nanoseconds : Nat) : String :=
  "  " ++ padRight 10 name ++ " " ++ padLeft 10 ((milliseconds nanoseconds).fixedText 3) ++ "ms\n"

/-- The table for readers. -/
def humanText (timings : Timings) : String :=
  "Compiler timings:\n" ++ row "lexer" timings.lexer ++ row "parser" timings.parser ++
    row "analyzer" timings.analyzer ++ row "generator" timings.generator ++
    row "total" timings.total

/-- An entry of the report for programs. -/
def entry (name : String) (nanoseconds : Nat) : String :=
  "\"" ++ name ++ "_ms\":" ++ (milliseconds nanoseconds).reportText

/-- The report for programs, with its entries in alphabetical order. -/
def jsonText (timings : Timings) : String :=
  "\x7b" ++ ",".intercalate [entry "analyzer" timings.analyzer,
    entry "generator" timings.generator, entry "lexer" timings.lexer,
    entry "parser" timings.parser, entry "total" timings.total] ++ "\x7d"

/-- The report in a format. -/
def text (timings : Timings) : TimingsFormat → String
  | .human => timings.humanText
  | .json => timings.jsonText

end Timings

end Qalam
