import BerRecords.Tag

/-!
# Reading identifiers

An identifier is one octet, or under the multi-octet encoding a marked octet
followed by one to four base-128 octets of which the first is not `0x80`. It is
read octet by octet, so that a reader can check its bounds between octets.
-/

set_option autoImplicit false

namespace BerRecords

inductive IdentifierError where
  | notEnabled (octet : UInt8)
  | leadingZero
  | tooLong
  deriving DecidableEq, Repr

namespace Identifier

def maxNumberOctets : Nat := 4

end Identifier

def IdentifierError.text : IdentifierError → String
  | notEnabled octet => s!"multi-octet tag number (identifier {Octets.marked octet}) not enabled"
  | leadingZero => "tag number has a leading zero continuation octet"
  | tooLong => s!"tag number longer than {Identifier.maxNumberOctets} octets"

namespace Identifier

/-- An identifier of which some octets, perhaps none, have been read. -/
inductive Pending where
  | fresh
  | long (first : UInt8) (number : Nat) (octets : Nat)
  deriving DecidableEq, Repr

inductive Progress where
  | complete (tag : Tag)
  | more (pending : Pending)
  deriving DecidableEq, Repr

def Pending.push (encoding : TagEncoding) :
    Pending → UInt8 → Except IdentifierError Progress
  | .fresh, octet =>
    match Tag.ofOctet? octet with
    | some tag => .ok (.complete tag)
    | none =>
      if encoding = .singleOctet then .error (.notEnabled octet)
      else .ok (.more (.long octet 0 0))
  | .long first number octets, octet =>
    if octets = 0 ∧ octet = 128 then .error .leadingZero
    else if maxNumberOctets ≤ octets then .error .tooLong
    else
      let number := Base128.extend number octet
      if Base128.continues octet then .ok (.more (.long first number (octets + 1)))
      else .ok (.complete (.ofLeadOctet first number))

def Pending.room : Pending → Nat
  | .fresh => maxNumberOctets + 1
  | .long _ _ octets => maxNumberOctets - octets

theorem Pending.room_push {encoding : TagEncoding} {pending next : Pending} {octet : UInt8}
    (pushed : pending.push encoding octet = .ok (.more next)) :
    next.room < pending.room := by
  cases pending with
  | fresh =>
    simp only [push] at pushed
    split at pushed
    · simp at pushed
    · split at pushed
      · simp at pushed
      · simp only [Except.ok.injEq, Progress.more.injEq] at pushed
        subst pushed
        simp [room]
  | long first number octets =>
    simp only [push] at pushed
    split at pushed
    · simp at pushed
    · split at pushed
      · simp at pushed
      · split at pushed
        · simp only [Except.ok.injEq, Progress.more.injEq] at pushed
          subst pushed
          simp only [room]
          omega
        · simp at pushed

end Identifier

end BerRecords
