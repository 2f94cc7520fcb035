import BerRecords.Octets

/-!
# Base 128

Numbers written in groups of seven bits, the most significant group first. Every
octet but the last carries the continuation bit. High tag numbers and the
subidentifiers of object identifiers are written this way.
-/

set_option autoImplicit false

namespace BerRecords.Base128

def continues (octet : UInt8) : Bool :=
  128 ≤ octet.toNat

def group (octet : UInt8) : Nat :=
  octet.toNat % 128

def extend (value : Nat) (octet : UInt8) : Nat :=
  value * 128 + group octet

/-- Puts the groups of a number before `tail`, each with the continuation bit. -/
def lead (value : Nat) (tail : Octets) : Octets :=
  if value = 0 then tail
  else lead (value / 128) (UInt8.ofNat (128 + value % 128) :: tail)
termination_by value

/-- The fewest groups that spell a number; a single zero octet for zero. -/
def encode (value : Nat) : Octets :=
  lead (value / 128) [UInt8.ofNat (value % 128)]

end BerRecords.Base128
