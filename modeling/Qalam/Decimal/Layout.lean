/-
# Written forms of numbers

Three layouts are in use. Source listings and generated code write every number out in full,
without an exponent and without a point when there is no fraction. The machine-readable report
keeps a fraction on every number and uses an exponent for very small and very large ones. The
table of timings rounds to a fixed number of places.
-/

import Qalam.Decimal.Shortest

namespace Qalam

namespace Decimal

/-- A number of zeros. -/
def zeros (count : Nat) : String := String.ofList (List.replicate count '0')

/-- The digits of a natural number. -/
def digitText (n : Nat) : String := String.ofList (Nat.toDigits 10 n)

/-- Put a point before the last places of a digit string, with zeros in front if the string
is too short. -/
def pointed (n places : Nat) : String :=
  let digits := Nat.toDigits 10 n
  let digits := List.replicate (places + 1 - digits.length) '0' ++ digits
  let whole := digits.length - places
  String.ofList (digits.take whole) ++ "." ++ String.ofList (digits.drop whole)

/-- Positional form: all digits, and a point only before a fraction. -/
def positional (d : Decimal) : String :=
  if 0 ≤ d.exponent then
    if d.digits = 0 then "0" else digitText d.digits ++ zeros d.exponent.toNat
  else pointed d.digits (-d.exponent).toNat

/-- Report form: a fraction on every number, and an exponent below `1e-5` and from `1e16`. -/
def scientific (d : Decimal) : String :=
  let digits := Nat.toDigits 10 d.digits
  let point := (digits.length : Int) + d.exponent
  if d.digits = 0 then "0.0"
  else if 0 ≤ d.exponent && point ≤ 16 then digitText d.digits ++ zeros d.exponent.toNat ++ ".0"
  else if d.exponent < 0 && -5 < point && point ≤ 16 then pointed d.digits (-d.exponent).toNat
  else
    let mantissa := match digits with
      | [] => ""
      | [digit] => String.singleton digit
      | digit :: fraction => String.singleton digit ++ "." ++ String.ofList fraction
    s!"{mantissa}e{point - 1}"

end Decimal

namespace Binary64

/-- Positional form of a number, a tie going up; infinity is written `inf`. -/
def text : Binary64 → String
  | finite mantissa exponent => (Decimal.shortest .up mantissa exponent).positional
  | infinite => "inf"

/-- Report form of a number, a tie going to the even digit; there is none for infinity. -/
def reportText : Binary64 → String
  | finite mantissa exponent => (Decimal.shortest .even mantissa exponent).scientific
  | infinite => "null"

/-- The exact value rounded to a number of places, a half to the even neighbour. -/
def fixedText (places : Nat) : Binary64 → String
  | finite mantissa exponent =>
    let (numerator, denominator) := scale (mantissa * Nat.pow 10 places) 1 exponent
    Decimal.pointed (roundQuotient numerator denominator) places
  | infinite => "inf"

end Binary64

end Qalam
