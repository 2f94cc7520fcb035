/-!
# Octets

Byte strings and the two ways in which text shows them: pairs of lower-case
hexadecimal digits for content, and a marked upper-case pair in messages.
-/

set_option autoImplicit false

namespace BerRecords

abbrev Octets := List UInt8

namespace Octets

/-- The two digits of one octet, high half first. -/
def hexPair (octet : UInt8) : List Char :=
  [Nat.digitChar (octet.toNat / 16), Nat.digitChar (octet.toNat % 16)]

def hex (octets : Octets) : String :=
  String.ofList (octets.flatMap hexPair)

/-- One octet as messages show it: `0x` and two upper-case digits. -/
def marked (octet : UInt8) : String :=
  "0x" ++ String.ofList ((hexPair octet).map Char.toUpper)

def bigEndian (octets : Octets) : Nat :=
  octets.foldl (fun value octet => value * 256 + octet.toNat) 0

/-- Puts the fewest octets that spell a number before `tail`. -/
def spell (value : Nat) (tail : Octets) : Octets :=
  if value = 0 then tail else spell (value / 256) (UInt8.ofNat (value % 256) :: tail)
termination_by value

/-- The fewest octets that spell a positive number; none for zero. -/
def ofNat (value : Nat) : Octets :=
  spell value []

end Octets

end BerRecords
