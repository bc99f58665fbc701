/-
# Numbers with a point

Programs that print numbers also read and write fractions. A fraction is rounded to a binary
number of limited length when it is read; it is written with a fixed number of places, with an
exponent, with as many digits as matter, or in hexadecimal digits. Every digit written is that of
the exact binary value, rounded once.
-/

import Qalam.Command.Octets
import Qalam.Decimal.Binary64

namespace Qalam.Command

/-- How binary numbers are limited: the length of the mantissa, and the least and the greatest
exponent. -/
structure Precision where
  bits : Nat
  least : Int
  greatest : Int

/-- Numbers of 64 bits. -/
def Precision.double : Precision := ⟨53, -1074, 971⟩

/-- Numbers of 80 bits. -/
def Precision.extended : Precision := ⟨64, -16445, 16320⟩

/-- A number without its sign: finite, infinite, or no number at all. -/
inductive Magnitude
  | finite (mantissa : Nat) (exponent : Int)
  | infinite
  | undefined
  deriving DecidableEq

/-- A number with a sign. -/
structure Fraction where
  negative : Bool
  magnitude : Magnitude

namespace Magnitude

/-- The nearest number to a positive quotient, and whether it is within the limits. -/
def ofQuotient (precision : Precision) (numerator denominator : Nat) : Magnitude × Bool :=
  if numerator = 0 then (.finite 0 0, true)
  else
    let limit := Nat.pow 2 precision.bits
    let estimate := (numerator.log2 : Int) - denominator.log2 - precision.bits
    let guess := if estimate < precision.least then precision.least else estimate
    let (scaled, unit) := Binary64.scale numerator denominator (-guess)
    let exponent := if unit * limit ≤ scaled then guess + 1 else guess
    let (scaled, unit) := Binary64.scale numerator denominator (-exponent)
    let mantissa := Binary64.roundQuotient scaled unit
    let (mantissa, exponent) :=
      if mantissa = limit then (limit / 2, exponent + 1) else (mantissa, exponent)
    if precision.greatest < exponent then (.infinite, false)
    else (.finite mantissa exponent, limit / 2 ≤ mantissa || scaled % unit = 0)

/-- The nearest number to digits times a power of ten, and whether it is within the limits. -/
def ofDecimal (precision : Precision) (digits : Nat) (exponent : Int) : Magnitude × Bool :=
  let point := ((Nat.toDigits 10 digits).length : Int) + exponent
  if digits = 0 then (.finite 0 0, true)
  else if 5000 < point then (.infinite, false)
  else if point < -5000 then (.finite 0 0, false)
  else if 0 ≤ exponent then ofQuotient precision (digits * Nat.pow 10 exponent.toNat) 1
  else ofQuotient precision digits (Nat.pow 10 (-exponent).toNat)

/-- The nearest number to digits times a power of two, and whether it is within the limits. -/
def ofBinary (precision : Precision) (digits : Nat) (exponent : Int) : Magnitude × Bool :=
  let point := (digits.log2 : Int) + exponent
  if digits = 0 then (.finite 0 0, true)
  else if 20000 < point then (.infinite, false)
  else if point < -20000 then (.finite 0 0, false)
  else
    let (numerator, denominator) := Binary64.scale digits 1 exponent
    ofQuotient precision numerator denominator

end Magnitude

namespace Fraction

/-- Take a word from the front of a text, in small or capital letters. -/
def takeWord? (word : String) (text : List Char) : Option (List Char) :=
  if (text.take word.length).map Char.toLower = word.toList then some (text.drop word.length)
  else none

/-- The exponent behind a letter, if there is one, and what follows it. -/
def exponent (letter : Char) : List Char → Int × List Char
  | c :: rest =>
    let (negative, unsigned) := match rest with
      | '-' :: rest => (true, rest)
      | '+' :: rest => (false, rest)
      | rest => (false, rest)
    let (value, after) := digits 10 unsigned.length 0 unsigned
    if c.toLower = letter && after.length < unsigned.length then
      (if negative then -(value : Int) else (value : Int), after)
    else (0, c :: rest)
  | [] => (0, [])

/-- Digits with a point among them: their number, how many of them stand behind the point, and
what follows. There is none without digits. -/
def pointed? (base : Nat) (text : List Char) : Option (Nat × Nat × List Char) :=
  let (whole, rest) := digits base text.length 0 text
  match rest with
  | '.' :: behind =>
    let (value, after) := digits base behind.length whole behind
    let places := behind.length - after.length
    if rest.length = text.length && places = 0 then none else some (value, places, after)
  | rest => if rest.length = text.length then none else some (whole, 0, rest)

/-- Read a number without its sign from the front of a text: its magnitude, whether it is within
the limits, and what follows. -/
def unsigned? (precision : Precision) (text : List Char) :
    Option (Magnitude × Bool × List Char) :=
  let decimal : Option (Magnitude × Bool × List Char) := do
    let (value, places, rest) ← pointed? 10 text
    let (power, rest) := exponent 'e' rest
    let (magnitude, fits) := Magnitude.ofDecimal precision value (power - places)
    return (magnitude, fits, rest)
  match takeWord? "infinity" text, takeWord? "inf" text, takeWord? "nan" text with
  | some rest, _, _ => some (.infinite, true, rest)
  | none, some rest, _ => some (.infinite, true, rest)
  | none, none, some rest => some (.undefined, true, rest)
  | none, none, none =>
    match (takeWord? "0x" text).bind (pointed? 16) with
    | some (value, places, rest) =>
      let (power, rest) := exponent 'p' rest
      let (magnitude, fits) := Magnitude.ofBinary precision value (power - 4 * places)
      some (magnitude, fits, rest)
    | none => decimal

/-- Read a number from the front of a text: the number, whether it is within the limits, and what
follows. Without a number nothing is read. -/
def read (precision : Precision) (text : List Char) : Fraction × Bool × List Char :=
  let blankless := text.dropWhile isSpace
  let (negative, body) := match blankless with
    | '-' :: rest => (true, rest)
    | '+' :: rest => (false, rest)
    | rest => (false, rest)
  match unsigned? precision body with
  | some (magnitude, fits, rest) => (⟨negative, magnitude⟩, fits, rest)
  | none => (⟨false, .finite 0 0⟩, true, text)

/-- A point and digits behind it. The point stays without digits only if it is to be kept. -/
def behindPoint (keeps : Bool) (digits : List Char) : List Char :=
  if digits.isEmpty && !keeps then [] else '.' :: digits

/-- Digits with zeros in front up to a length. -/
def padded (length : Nat) (digits : List Char) : List Char :=
  List.replicate (length - digits.length) '0' ++ digits

/-- A quotient with a number of places behind the point. -/
def fixed (keeps : Bool) (places numerator denominator : Nat) : List Char :=
  let value := Binary64.roundQuotient (numerator * Nat.pow 10 places) denominator
  let digits := padded (places + 1) (Nat.toDigits 10 value)
  let whole := digits.length - places
  digits.take whole ++ behindPoint keeps (digits.drop whole)

/-- A quotient times a power of ten. -/
def scaleTen (numerator denominator : Nat) (power : Int) : Nat × Nat :=
  if 0 ≤ power then (numerator * Nat.pow 10 power.toNat, denominator)
  else (numerator, denominator * Nat.pow 10 (-power).toNat)

/-- The digits of a quotient with one digit before the point and a number of places behind it, and
its exponent. -/
def normalized (places numerator denominator : Nat) : List Char × Int :=
  if numerator = 0 then (List.replicate (places + 1) '0', 0)
  else
    let guess := ((Nat.toDigits 10 numerator).length : Int) - (Nat.toDigits 10 denominator).length
    let (scaled, unit) := scaleTen numerator denominator (-guess)
    let power := if scaled < unit then guess - 1 else guess
    let (scaled, unit) := scaleTen numerator denominator ((places : Int) - power)
    let digits := Nat.toDigits 10 (Binary64.roundQuotient scaled unit)
    if digits.length = places + 1 then (digits, power) else (digits.dropLast, power + 1)

/-- The written form of an exponent. -/
def exponentText (letter : Char) (width : Nat) (power : Int) : List Char :=
  letter :: (if power < 0 then '-' else '+') :: padded width (Nat.toDigits 10 power.natAbs)

/-- A quotient with an exponent. -/
def exponential (keeps : Bool) (places numerator denominator : Nat) : List Char :=
  let (digits, power) := normalized places numerator denominator
  digits.take 1 ++ behindPoint keeps (digits.drop 1) ++ exponentText 'e' 2 power

/-- Drop the zeros at the end of digits. -/
def withoutZeros (digits : List Char) : List Char :=
  (digits.reverse.dropWhile (· = '0')).reverse

/-- A quotient with as many digits as matter. -/
def general (keeps : Bool) (length numerator denominator : Nat) : List Char :=
  let length := if length = 0 then 1 else length
  let (digits, power) := normalized (length - 1) numerator denominator
  let shorten (digits : List Char) : List Char := if keeps then digits else withoutZeros digits
  if power < -4 || (length : Int) ≤ power then
    digits.take 1 ++ behindPoint keeps (shorten (digits.drop 1)) ++ exponentText 'e' 2 power
  else if power < 0 then
    let zeros := List.replicate (-power - 1).toNat '0'
    '0' :: behindPoint keeps (shorten (zeros ++ digits))
  else
    let whole := power.toNat + 1
    digits.take whole ++ behindPoint keeps (shorten (digits.drop whole))

/-- A number in hexadecimal digits, of which the first one holds a number of bits. -/
def hexadecimal (keeps : Bool) (precision : Precision) (places : Option Nat) (mantissa : Nat)
    (exponent : Int) : List Char :=
  let first := if precision.bits % 4 = 0 then 4 else precision.bits % 4
  let width := (precision.bits - first) / 4
  let finish (value : Nat) (count : Nat) (power : Int) : List Char :=
    let digits := padded (count + 1) (Nat.toDigits 16 value)
    let whole := digits.length - count
    let behind := digits.drop whole
    let behind := if places.isNone then withoutZeros behind else behind
    '0' :: 'x' :: digits.take whole ++ behindPoint keeps behind ++ exponentText 'p' 1 power
  if mantissa = 0 then finish 0 (places.getD 0) 0
  else
    let shift := precision.bits - 1 - mantissa.log2
    let mantissa := mantissa * Nat.pow 2 shift
    let power := exponent - shift + (precision.bits - first : Nat)
    let count := places.getD width
    if width ≤ count then finish (mantissa * Nat.pow 16 (count - width)) count power
    else
      let value := Binary64.roundQuotient mantissa (Nat.pow 16 (width - count))
      if first = 4 && value = Nat.pow 16 (count + 1) then finish (value / 16) count (power + 4)
      else finish value count power

/-- The written form of a number without its sign. The letter says which form it is, in small or
capital letters; with a mark the point is always kept. -/
def text (precision : Precision) (letter : Char) (keeps : Bool) (places : Option Nat)
    (number : Fraction) : List Char :=
  let small := match number.magnitude with
    | .infinite => "inf".toList
    | .undefined => "nan".toList
    | .finite mantissa exponent =>
      let (numerator, denominator) := Binary64.scale mantissa 1 exponent
      match letter.toLower with
      | 'e' => exponential keeps (places.getD 6) numerator denominator
      | 'f' => fixed keeps (places.getD 6) numerator denominator
      | 'g' => general keeps (places.getD 6) numerator denominator
      | _ => hexadecimal keeps precision places mantissa exponent
  if letter.isUpper then small.map Char.toUpper else small

end Fraction

end Qalam.Command
