/-
# Plain values of a document

Numbers, dates and the words for truth values. Such a value is a run of letters, digits and a
few signs; the run is taken as a whole and then read as an integer, a floating-point number or a
date. Integers have 64 bits with a sign.
-/

import Qalam.Decimal.Binary64
import Qalam.Toml.Value

namespace Qalam.Toml

/-- ASCII digits. -/
def isDigit (c : Char) : Bool := '0' ≤ c && c ≤ '9'

/-- ASCII letters. -/
def isLetter (c : Char) : Bool := ('a' ≤ c && c ≤ 'z') || ('A' ≤ c && c ≤ 'Z')

/-- The value of a digit in some base up to sixteen. -/
def digitIn? (base : Nat) (c : Char) : Option Nat :=
  let value :=
    if isDigit c then c.toNat - 0x30
    else if 'a' ≤ c ∧ c ≤ 'f' then c.toNat - 0x61 + 10
    else if 'A' ≤ c ∧ c ≤ 'F' then c.toNat - 0x41 + 10
    else 16
  if value < base then some value else none

/-- Digits in a base, with single underscores only between two of them. -/
def digitRun? (base : Nat) : List Char → Option (List Nat)
  | [] => none
  | [c] => (digitIn? base c).map ([·])
  | c :: '_' :: rest => do
    let digit ← digitIn? base c
    let others ← digitRun? base rest
    return digit :: others
  | c :: rest => do
    let digit ← digitIn? base c
    let others ← digitRun? base rest
    return digit :: others

/-- The number written by digits in a base. -/
def valueIn (base : Nat) (digits : List Nat) : Nat :=
  digits.foldl (fun value digit => base * value + digit) 0

/-- Split off a sign; true stands for minus. -/
def splitSign : List Char → Bool × List Char
  | '-' :: rest => (true, rest)
  | '+' :: rest => (false, rest)
  | rest => (false, rest)

/-- Decimal digits without a superfluous zero in front. -/
def decimalRun? (text : List Char) : Option (List Nat) := do
  let digits ← digitRun? 10 text
  match digits with
  | 0 :: _ :: _ => none
  | _ => return digits

/-- Whether an integer fits into 64 bits with a sign. -/
def fits (value : Int) : Bool := 
  -9223372036854775808 ≤ value && value < 9223372036854775808

/-- Read an integer. -/
def integer? (text : List Char) : Option Int := do
  let value : Int ← match text with
    | '0' :: 'x' :: rest => (digitRun? 16 rest).map fun digits => Int.ofNat (valueIn 16 digits)
    | '0' :: 'o' :: rest => (digitRun? 8 rest).map fun digits => Int.ofNat (valueIn 8 digits)
    | '0' :: 'b' :: rest => (digitRun? 2 rest).map fun digits => Int.ofNat (valueIn 2 digits)
    | text =>
      let (negative, rest) := splitSign text
      (decimalRun? rest).map fun digits =>
        if negative then -(Int.ofNat (valueIn 10 digits)) else Int.ofNat (valueIn 10 digits)
  if fits value then return value else none

/-- Split a text before the first character that meets a test. -/
def splitBefore (test : Char → Bool) (text : List Char) : List Char × List Char :=
  (text.takeWhile (!test ·), text.dropWhile (!test ·))

/-- Whether a decimal number is too large for a binary one. -/
def overflows (digits : List Nat) (exponent : Int) : Bool :=
  let significant := digits.dropWhile (· = 0)
  let magnitude := (significant.length : Int) + exponent
  if significant.isEmpty || magnitude < 300 then false
  else if 320 < magnitude then true
  else
    let value := valueIn 10 significant
    let number :=
      if 0 ≤ exponent then Binary64.ofQuotient (value * Nat.pow 10 exponent.toNat) 1
      else Binary64.ofQuotient value (Nat.pow 10 (-exponent).toNat)
    number = .infinite

/-- The exponent of a floating-point number, if one is written. -/
def exponent? : List Char → Option Int
  | [] => some 0
  | _ :: rest => do
    let (negative, digits) := splitSign rest
    let digits ← digitRun? 10 digits
    return if negative then -(Int.ofNat (valueIn 10 digits)) else Int.ofNat (valueIn 10 digits)

/-- Whether a text is a floating-point number. A positive one must not be too large. -/
def isFloat (text : List Char) : Bool :=
  let (negative, rest) := splitSign text
  if rest = ['i', 'n', 'f'] || rest = ['n', 'a', 'n'] then true
  else
    let (mantissa, power) := splitBefore (fun c => c = 'e' || c = 'E') rest
    let (whole, fraction) := splitBefore (· = '.') mantissa
    if power.isEmpty && fraction.isEmpty then false
    else
      let digits := do
        let whole ← decimalRun? whole
        let fraction ← match fraction with
          | [] => some []
          | _ :: fraction => digitRun? 10 fraction
        let power ← exponent? power
        return (whole ++ fraction, power - (fraction.length : Int))
      match digits with
      | some (digits, power) => negative || !overflows digits power
      | none => false

/-- A number of exactly two digits. -/
def twoDigits? : List Char → Option Nat
  | [a, b] => do
    let a ← digitIn? 10 a
    let b ← digitIn? 10 b
    return 10 * a + b
  | _ => none

/-- The number of days of a month. -/
def daysIn (year month : Nat) : Nat :=
  if month = 2 then
    if year % 4 = 0 ∧ (year % 100 ≠ 0 ∨ year % 400 = 0) then 29 else 28
  else if month = 4 ∨ month = 6 ∨ month = 9 ∨ month = 11 then 30
  else 31

/-- Whether a text is a day of the calendar. -/
def isDay (text : List Char) : Bool :=
  match text with
  | [y₁, y₂, y₃, y₄, '-', m₁, m₂, '-', d₁, d₂] =>
    let fields := do
      let century ← twoDigits? [y₁, y₂]
      let year ← twoDigits? [y₃, y₄]
      let month ← twoDigits? [m₁, m₂]
      let day ← twoDigits? [d₁, d₂]
      return (100 * century + year, month, day)
    match fields with
    | some (year, month, day) =>
      1 ≤ month && month ≤ 12 && 1 ≤ day && day ≤ daysIn year month
    | none => false
  | _ => false

/-- Whether a text is a time of day, with or without a fraction of a second. -/
def isTime (text : List Char) : Bool :=
  match text with
  | h₁ :: h₂ :: ':' :: m₁ :: m₂ :: ':' :: s₁ :: s₂ :: fraction =>
    let fields := do
      let hour ← twoDigits? [h₁, h₂]
      let minute ← twoDigits? [m₁, m₂]
      let second ← twoDigits? [s₁, s₂]
      return (hour, minute, second)
    match fields with
    | some (hour, minute, second) =>
      hour ≤ 23 && minute ≤ 59 && second ≤ 60 &&
        (match fraction with
          | [] => true
          | '.' :: digits => !digits.isEmpty && digits.all isDigit
          | _ => false)
    | none => false
  | _ => false

/-- Whether a text is the distance of a clock from universal time. -/
def isOffset (text : List Char) : Bool :=
  match text with
  | ['Z'] | ['z'] => true
  | [sign, h₁, h₂, ':', m₁, m₂] =>
    (sign = '+' || sign = '-') &&
      (match twoDigits? [h₁, h₂], twoDigits? [m₁, m₂] with
        | some hour, some minute => hour ≤ 23 && minute ≤ 59
        | _, _ => false)
  | _ => false

/-- Whether a text is a time of day, with or without an offset. -/
def isOffsetTime (text : List Char) : Bool :=
  let (time, offset) := splitBefore (fun c => c = 'Z' || c = 'z' || c = '+' || c = '-') text
  isTime time && (offset.isEmpty || isOffset offset)

/-- Whether a text is a date, a time of day, or both. -/
def isDate (text : List Char) : Bool :=
  let day := text.take 10
  if isDay day then
    match text.drop 10 with
    | [] => true
    | 'T' :: time | 't' :: time | ' ' :: time => isOffsetTime time
    | _ => false
  else isTime text

/-- The canonical text of a time of day: nine digits of a fraction count, and zeros at its end
do not. -/
def timeText (time : List Char) : List Char :=
  let fraction := (time.drop 9).take 9
  let fraction := (fraction.reverse.dropWhile (· = '0')).reverse
  if fraction.isEmpty then time.take 8 else time.take 8 ++ '.' :: fraction

/-- The canonical text of an offset. A clock without any distance is not behind. -/
def offsetText : List Char → List Char
  | ['z'] => ['Z']
  | ['-', '0', '0', ':', '0', '0'] => ['+', '0', '0', ':', '0', '0']
  | offset => offset

/-- The canonical text of a date: the letter T stands between the day and the time of day. -/
def dateText (text : List Char) : String :=
  let isOffsetStart (c : Char) := c = 'Z' || c = 'z' || c = '+' || c = '-'
  if isDay (text.take 10) then
    match text.drop 10 with
    | [] => String.ofList text
    | _ :: clock =>
      let (time, offset) := splitBefore isOffsetStart clock
      String.ofList (text.take 10 ++ 'T' :: timeText time ++ offsetText offset)
  else String.ofList (timeText text)

/-- Read a plain value. -/
def scalar? (text : List Char) : Option Value :=
  if text = "true".toList then some (.boolean true)
  else if text = "false".toList then some (.boolean false)
  else if isDate text then some (.date (dateText text))
  else if isFloat text then some .float
  else (integer? text).map .integer

end Qalam.Toml
