/-
# Quoted arguments

An argument is written so that a shell reads it back as one word. What needs no quotes has none.
Otherwise the argument stands between apostrophes, with characters that cannot be printed as
escapes between apostrophes of their own; an argument whose only difficulty is an apostrophe
stands between double quotes.
-/

import Qalam.Command.Octets

namespace Qalam.Command

namespace Quoting

/-- Characters that never need quotes. -/
def isPlain (c : Char) : Bool :=
  isLetter c || isDigit c || ['_', '-', '.', '/', ':', ',', '@', '%', '+', ']'].contains c

/-- Whether a character needs no quotes in its place. -/
def isFree (size index : Nat) (c : Char) : Bool :=
  isPlain c || ((c = '#' || c = '~') && index ≠ 0) || ((c = '\x7b' || c = '\x7d') && size ≠ 1)

/-- Whether a character means the same between both kinds of quotes. -/
def isNeutral (size index : Nat) (c : Char) : Bool :=
  isPlain c || c = ' ' || c = '\x27' || ((c = '#' || c = '~') && index = 0) ||
    ((c = '\x7b' || c = '\x7d') && size = 1)

/-- The escape of a character that cannot be printed. -/
def escape? (c : Char) : Option (List Char) :=
  if 32 ≤ c.toNat && c.toNat < 127 then none
  else
    let letters := [('\x07', 'a'), ('\x08', 'b'), ('\x0c', 'f'), ('\n', 'n'), ('\r', 'r'),
      ('\t', 't'), ('\x0b', 'v')]
    match letters.lookup c with
    | some letter => some ['\\', letter]
    | none =>
      let digits := Nat.toDigits 8 c.toNat
      some ('\\' :: List.replicate (3 - digits.length) '0' ++ digits)

/-- The inside of an argument between apostrophes. The flag tells whether escapes have just been
written, which stand between apostrophes of their own. -/
def inside : Bool → List Char → List Char
  | _, [] => []
  | escaping, c :: rest =>
    match escape? c with
    | some text => (if escaping then text else "'$'".toList ++ text) ++ inside true rest
    | none =>
      if c = '\x27' then "'\\''".toList ++ inside false rest
      else (if escaping then ['\x27', '\x27', c] else [c]) ++ inside false rest

end Quoting

/-- An argument as a shell reads it back. An argument with an apostrophe is begun in the state in
which it ends. -/
def quoted (argument : List Char) : List Char :=
  let size := argument.length
  let endsEscaping := (argument.getLast?.bind Quoting.escape?).isSome
  let all (test : Nat → Nat → Char → Bool) : Bool :=
    (argument.mapIdx fun index c => test size index c).all id
  if size ≠ 0 && all Quoting.isFree then argument
  else if argument.contains '\x27' && all Quoting.isNeutral then '"' :: argument ++ ['"']
  else
    let escaping := argument.contains '\x27' && endsEscaping
    '\x27' :: Quoting.inside escaping argument ++ ['\x27']

end Qalam.Command
