import BerRecords.Octets

/-!
# Length octets

The short form is the length itself, below 128. The long form counts the octets
of a big-endian number that follows. The indefinite form is not used.
-/

set_option autoImplicit false

namespace BerRecords.Length

def maxOctets : Nat := 4

def octets (length : Nat) : Octets :=
  if length < 128 then [UInt8.ofNat length]
  else
    let number := Octets.ofNat length
    UInt8.ofNat (128 + number.length) :: number

end BerRecords.Length
