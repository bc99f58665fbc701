/-
# Non-negative binary floating-point numbers

A fractional literal denotes the nearest number with a 53-bit mantissa and an exponent
between -1074 and 971; a tie goes to the even mantissa, and what is too large becomes
infinite. The sign never occurs: literals carry none and durations are not negative. All
rounding is done on exact quotients of natural numbers, so every value has one form.
-/

namespace Qalam

/-- A non-negative number `mantissa * 2 ^ exponent`, or infinity. -/
inductive Binary64
  | finite (mantissa : Nat) (exponent : Int)
  | infinite
  deriving DecidableEq, Inhabited

namespace Binary64

/-- The least mantissa of 53 binary digits. -/
def leastNormal : Nat := Nat.pow 2 52

/-- The nearest natural number to a quotient; a half goes to the even neighbour. -/
def roundQuotient (numerator denominator : Nat) : Nat :=
  let floor := numerator / denominator
  let twice := 2 * (numerator % denominator)
  if twice < denominator then floor
  else if denominator < twice then floor + 1
  else if floor % 2 = 0 then floor
  else floor + 1

/-- A quotient times a power of two, as a quotient again. -/
def scale (numerator denominator : Nat) (power : Int) : Nat × Nat :=
  if 0 ≤ power then (numerator * Nat.pow 2 power.toNat, denominator)
  else (numerator, denominator * Nat.pow 2 (-power).toNat)

/-- The exponent at which a positive quotient has 53 binary digits before the point, or the
least exponent if the quotient is too small for that. -/
def exponentOf (numerator denominator : Nat) : Int :=
  let estimate := (numerator.log2 : Int) - denominator.log2 - 53
  let guess := if estimate < -1074 then -1074 else estimate
  let (scaled, unit) := scale numerator denominator (-guess)
  if unit * (2 * leastNormal) ≤ scaled then guess + 1 else guess

/-- The number nearest to a quotient. -/
def ofQuotient (numerator denominator : Nat) : Binary64 :=
  if numerator = 0 then finite 0 0
  else
    let exponent := exponentOf numerator denominator
    let (scaled, unit) := scale numerator denominator (-exponent)
    let mantissa := roundQuotient scaled unit
    let (mantissa, exponent) :=
      if mantissa = 2 * leastNormal then (leastNormal, exponent + 1) else (mantissa, exponent)
    if mantissa = 0 then finite 0 0
    else if 971 < exponent then infinite
    else finite mantissa exponent

/-- The exact value of a finite number as a quotient. -/
def toQuotient? : Binary64 → Option (Nat × Nat)
  | finite mantissa exponent => some (scale mantissa 1 exponent)
  | infinite => none

/-- The number nearest to a natural number. -/
def ofNat (n : Nat) : Binary64 := ofQuotient n 1

/-- Carry out an operation on exact quotients and round its result once. -/
def lift₂ (operation : Nat × Nat → Nat × Nat → Nat × Nat) (left right : Binary64) : Binary64 :=
  match left.toQuotient?, right.toQuotient? with
  | some left, some right =>
    let (numerator, denominator) := operation left right
    ofQuotient numerator denominator
  | _, _ => infinite

/-- The rounded sum. -/
def add : Binary64 → Binary64 → Binary64 :=
  lift₂ fun (a, b) (c, d) => (a * d + c * b, b * d)

/-- The rounded product. -/
def mul : Binary64 → Binary64 → Binary64 :=
  lift₂ fun (a, b) (c, d) => (a * c, b * d)

/-- The rounded quotient of a number and a positive natural number. -/
def divNat (left : Binary64) (divisor : Nat) : Binary64 :=
  lift₂ (fun (a, b) (c, d) => (a * d, b * c)) left (ofNat divisor)

end Binary64

end Qalam
