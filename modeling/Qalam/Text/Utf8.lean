/-
# Text in octets

The reader of UTF-8 walks over octets and yields one item per character. A malformed stretch,
which ends before the first octet that rules a character out, yields an item without a
character. A strict reading refuses such items, a lenient one puts the replacement character in
their place.
-/

namespace Qalam.Text

/-- A character that has begun: how many octets are to come, the bounds of the next one, and
the bits read so far. -/
structure Unfinished where
  missing : Nat
  low : Nat
  high : Nat
  bits : Nat

/-- What the first octet of a character says. -/
inductive Lead
  | whole (code : Nat)
  | begun (rest : Unfinished)
  | malformed

/-- Classify an octet between two characters. -/
def Lead.of (octet : Nat) : Lead :=
  if octet ≤ 0x7F then .whole octet
  else if 0xC2 ≤ octet ∧ octet ≤ 0xDF then .begun ⟨1, 0x80, 0xBF, octet - 0xC0⟩
  else if octet = 0xE0 then .begun ⟨2, 0xA0, 0xBF, 0⟩
  else if octet = 0xED then .begun ⟨2, 0x80, 0x9F, 0xD⟩
  else if 0xE1 ≤ octet ∧ octet ≤ 0xEF then .begun ⟨2, 0x80, 0xBF, octet - 0xE0⟩
  else if octet = 0xF0 then .begun ⟨3, 0x90, 0xBF, 0⟩
  else if 0xF1 ≤ octet ∧ octet ≤ 0xF3 then .begun ⟨3, 0x80, 0xBF, octet - 0xF0⟩
  else if octet = 0xF4 then .begun ⟨3, 0x80, 0x8F, 4⟩
  else .malformed

/-- The items of a sequence of octets, given the character that has begun before it. -/
def utf8Items : Option Unfinished → List UInt8 → List (Option Char)
  | none, [] => []
  | some _, [] => [none]
  | none, octet :: rest =>
    match Lead.of octet.toNat with
    | .whole code => some (Char.ofNat code) :: utf8Items none rest
    | .begun next => utf8Items (some next) rest
    | .malformed => none :: utf8Items none rest
  | some begun, octet :: rest =>
    if begun.low ≤ octet.toNat ∧ octet.toNat ≤ begun.high then
      let bits := begun.bits * 64 + (octet.toNat - 0x80)
      if begun.missing ≤ 1 then some (Char.ofNat bits) :: utf8Items none rest
      else utf8Items (some ⟨begun.missing - 1, 0x80, 0xBF, bits⟩) rest
    else
      match Lead.of octet.toNat with
      | .whole code => none :: some (Char.ofNat code) :: utf8Items none rest
      | .begun next => none :: utf8Items (some next) rest
      | .malformed => none :: none :: utf8Items none rest

/-- The text of well-formed octets. -/
def ofUtf8? (octets : List UInt8) : Option String :=
  ((utf8Items none octets).mapM id).map String.ofList

/-- The text of any octets; each malformed stretch becomes a replacement character. -/
def ofUtf8Lenient (octets : List UInt8) : String :=
  String.ofList ((utf8Items none octets).map (·.getD (Char.ofNat 0xFFFD)))

/-- The octets of a text. -/
def toUtf8 (text : String) : List UInt8 := text.toUTF8.toList

end Qalam.Text
