import BerRecords.Octets

/-!
# UTF-16 units

Decoding of 16-bit units into characters: a high surrogate and the low surrogate
after it make one character, and a surrogate on its own is refused.
-/

set_option autoImplicit false

namespace BerRecords.Utf16

/-- The big-endian units that pairs of octets spell; none for an odd number of octets. -/
def units? : Octets → Option (List Nat)
  | [] => some []
  | [_] => none
  | high :: low :: rest => (units? rest).map fun units => (high.toNat * 256 + low.toNat) :: units

def isHigh (unit : Nat) : Bool :=
  0xd800 ≤ unit && unit < 0xdc00

def isLow (unit : Nat) : Bool :=
  0xdc00 ≤ unit && unit < 0xe000

def decode : List Nat → Except Nat (List Char)
  | [] => .ok []
  | [unit] =>
    if isHigh unit || isLow unit then .error unit else .ok [Char.ofNat unit]
  | unit :: next :: rest =>
    if isLow unit then .error unit
    else if isHigh unit then
      if isLow next then do
        let tail ← decode rest
        return Char.ofNat (0x10000 + (unit - 0xd800) * 0x400 + (next - 0xdc00)) :: tail
      else .error unit
    else do
      let tail ← decode (next :: rest)
      return Char.ofNat unit :: tail

end BerRecords.Utf16
