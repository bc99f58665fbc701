/-
# The shortest decimal that reads back

Each number of the binary grid is the nearest one for an interval of reals. Of the decimals
in this interval the printed one has the fewest digits, and of those with the fewest digits
it is the nearest to the number itself; a format says where a tie goes. The search walks over
decimal grids, the coarsest first: on a grid only the two neighbours of the number can be
nearest, so it is enough to test these two.
-/

import Qalam.Decimal.Binary64

namespace Qalam

/-- A decimal `digits * 10 ^ exponent`. -/
structure Decimal where
  digits : Nat
  exponent : Int
  deriving DecidableEq, Inhabited

/-- Where a number goes that lies in the middle between two decimals. -/
inductive Tie
  | up
  | even
  deriving DecidableEq

/-- Whether the upper of two decimals is the better one, when the number lies at the given
part of a unit above the lower one. -/
def Tie.prefersUpper (tie : Tie) (lower part unit : Nat) : Bool :=
  if 2 * part = unit then
    match tie with
    | up => true
    | even => lower % 2 = 1
  else unit < 2 * part

namespace Decimal

/-- A quotient divided by a power of ten, as a quotient again. -/
def descale (numerator denominator : Nat) (power : Int) : Nat × Nat :=
  if 0 ≤ power then (numerator, denominator * Nat.pow 10 power.toNat)
  else (numerator * Nat.pow 10 (-power).toNat, denominator)

/-- The number of decimal digits of a natural number; zero has one. -/
def width (n : Nat) : Nat := (Nat.toDigits 10 n).length

/-- A power of ten at or above a positive quotient. -/
def ceilingPower (numerator denominator : Nat) : Int :=
  if denominator ≤ numerator then width (numerator / denominator)
  else 1 - (width (denominator / numerator) : Int)

/-- The interval of reals for which a binary number is the nearest one, over a common
denominator. The ends belong to it when the mantissa is even. -/
structure Basin where
  low : Nat
  value : Nat
  high : Nat
  denominator : Nat
  closed : Bool

namespace Basin

/-- The interval of a positive binary number. Below a power of two the neighbours are twice
as close. -/
def ofBinary (mantissa : Nat) (exponent : Int) : Basin :=
  let below := if mantissa = Binary64.leastNormal then 1 else 2
  let (unit, denominator) := Binary64.scale 1 4 exponent
  { low := (4 * mantissa - below) * unit
    value := 4 * mantissa * unit
    high := (4 * mantissa + 2) * unit
    denominator
    closed := mantissa % 2 = 0 }

/-- Whether a decimal lies in the interval. -/
def contains (basin : Basin) (candidate : Nat) (power : Int) : Bool :=
  let (low, unit) := descale basin.low basin.denominator power
  let (high, _) := descale basin.high basin.denominator power
  if basin.closed then low ≤ candidate * unit && candidate * unit ≤ high
  else low < candidate * unit && candidate * unit < high

/-- The better of the two neighbours of the value on the grid of a power of ten, if one of
them lies in the interval. -/
def neighbour? (basin : Basin) (tie : Tie) (power : Int) : Option Nat :=
  let (value, unit) := descale basin.value basin.denominator power
  let floor := value / unit
  let lower := basin.contains floor power
  let upper := basin.contains (floor + 1) power
  if upper && (!lower || tie.prefersUpper floor (value % unit) unit) then some (floor + 1)
  else if lower then some floor
  else none

/-- Walk from coarse to fine grids until one holds a decimal of the interval. Seventeen
digits always suffice, so the number of steps is bounded. -/
def search (basin : Basin) (tie : Tie) : Nat → Int → Decimal
  | 0, power => ⟨basin.value / basin.denominator, power⟩
  | steps + 1, power =>
    match basin.neighbour? tie power with
    | some digits => ⟨digits, power⟩
    | none => search basin tie steps (power - 1)

end Basin

/-- The shortest decimal that reads back as a finite binary number. -/
def shortest (tie : Tie) (mantissa : Nat) (exponent : Int) : Decimal :=
  if mantissa = 0 then ⟨0, 0⟩
  else
    let basin := Basin.ofBinary mantissa exponent
    basin.search tie 25 (ceilingPower basin.high basin.denominator)

end Decimal

end Qalam
