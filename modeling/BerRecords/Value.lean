import BerRecords.Base128
import BerRecords.DeclaredType
import BerRecords.Text.Utf16
import BerRecords.Text.Utf8

/-!
# Scalar values

What the content octets of a primitive element mean under its declared type.
Types without a reading of their own keep their octets.
-/

set_option autoImplicit false

namespace BerRecords

/-- The meaning of a primitive element's content. Of bits it is told how many of the last octet do
not count. -/
inductive Value where
  | integer (value : Int)
  | boolean (value : Bool)
  | null
  | text (characters : List Char)
  | digits (symbols : List Char)
  | oid (dotted : String)
  | bits (unused : Nat) (octets : Octets)
  | raw (octets : Octets)
  deriving DecidableEq, Repr

namespace Value

inductive Fault where
  | notOneOctet (found : Nat)
  | notEmpty (found : Nat)
  | empty
  | tooWide (octets : Nat)
  | notSevenBit (octet : UInt8) (index : Nat)
  | utf8 (fault : Utf8.Fault)
  | oddOctets
  | unpairedSurrogate (unit : Nat)
  | lowFiller (index : Nat)
  | earlyFiller (index : Nat)
  | subidentifierTooLarge
  | subidentifierCut
  | noUnusedCount
  | badUnusedCount (count : Nat)
  deriving DecidableEq, Repr

def Fault.text : Fault → String
  | notOneOctet found => s!"expected 1 octet, found {found}"
  | notEmpty found => s!"expected no content, found {found} octets"
  | empty => "empty content"
  | tooWide octets => s!"{octets} octets do not fit in 64 bits"
  | notSevenBit octet index => s!"octet {Octets.marked octet} at {index} is not 7-bit"
  | utf8 fault => fault.text
  | oddOctets => "odd number of octets"
  | unpairedSurrogate unit =>
    "unpaired surrogate found: " ++ String.ofList (Nat.toDigits 16 unit)
  | lowFiller index => s!"filler in low nibble of octet {index}"
  | earlyFiller index => s!"filler before the last octet ({index})"
  | subidentifierTooLarge => "subidentifier too large"
  | subidentifierCut => "truncated subidentifier"
  | noUnusedCount => "missing unused-bits octet"
  | badUnusedCount count => s!"invalid unused-bits count {count}"

def redundantSign (first second : UInt8) : Bool :=
  (first = 0x00 && second.toNat < 128) || (first = 0xff && 128 ≤ second.toNat)

/-- Drops at most `excess` leading octets that only repeat a sign. -/
def dropSigns : Nat → Octets → Octets
  | excess + 1, first :: second :: rest =>
    if redundantSign first second then dropSigns excess (second :: rest)
    else first :: second :: rest
  | _, octets => octets

/-- The big-endian number in two's complement: a set leading bit takes away the
weight of the octet before the first. -/
def signed (octets : Octets) : Int :=
  let start : Int := if octets.head?.any (128 ≤ ·.toNat) then -1 else 0
  octets.foldl (fun value octet => value * 256 + octet.toNat) start

def maxIntegerOctets : Nat := 8

def readInteger (octets : Octets) : Except Fault Int :=
  if octets.isEmpty then .error .empty
  else
    let kept := dropSigns (octets.length - maxIntegerOctets) octets
    if maxIntegerOctets < kept.length then .error (.tooWide octets.length)
    else .ok (signed kept)

def readSevenBit (octets : Octets) : Except Fault (List Char) :=
  match octets.findIdx? (128 ≤ ·.toNat) with
  | some index => .error (.notSevenBit (octets.getD index 0) index)
  | none => .ok (octets.map fun octet => Char.ofNat octet.toNat)

def readTwoOctet (octets : Octets) : Except Fault (List Char) :=
  match Utf16.units? octets with
  | none => .error .oddOctets
  | some units => (Utf16.decode units).mapError .unpairedSurrogate

def digitSymbol (nibble : Nat) : Char :=
  if nibble < 10 then Char.ofNat (48 + nibble)
  else if nibble = 10 then '*'
  else if nibble = 11 then '#'
  else if nibble = 12 then 'a'
  else if nibble = 13 then 'b'
  else 'c'

/-- The half octet that stands for no symbol. -/
def filler : Nat := 15

/-- Reads the symbols of octets that start at `index`, the low half of each octet
first. Only the high half of the last octet may be filler. -/
def readDigitsFrom (index : Nat) : Octets → Except Fault (List Char)
  | [] => .ok []
  | octet :: rest =>
    let low := octet.toNat % 16
    let high := octet.toNat / 16
    if low = filler then .error (.lowFiller index)
    else if high = filler then
      if rest.isEmpty then .ok [digitSymbol low] else .error (.earlyFiller index)
    else do
      let tail ← readDigitsFrom (index + 1) rest
      return digitSymbol low :: digitSymbol high :: tail

/-- The largest number that can take seven more bits within 64. -/
def maxExtendable : Nat := (UInt64.size - 1) / 128

/-- Reads subidentifiers; `current` holds the groups since the last one ended and
`pending` whether there are any. -/
def readArcsFrom (current : Nat) (pending : Bool) : Octets → Except Fault (List Nat)
  | [] => if pending then .error .subidentifierCut else .ok []
  | octet :: rest =>
    if maxExtendable < current then .error .subidentifierTooLarge
    else
      let current := Base128.extend current octet
      if Base128.continues octet then readArcsFrom current true rest
      else do
        let tail ← readArcsFrom 0 false rest
        return current :: tail

def splitFirst (first : Nat) : Nat × Nat :=
  if first < 40 then (0, first)
  else if first < 80 then (1, first - 40)
  else (2, first - 80)

def dotted : List Nat → String
  | [] => ""
  | first :: rest =>
    let (top, second) := splitFirst first
    ".".intercalate ((top :: second :: rest).map fun arc => toString arc)

def readOid (octets : Octets) : Except Fault String :=
  if octets.isEmpty then .error .empty
  else (readArcsFrom 0 false octets).map dotted

def readBits : Octets → Except Fault Value
  | [] => .error .noUnusedCount
  | unused :: rest =>
    if 7 < unused.toNat ∨ (rest.isEmpty ∧ unused ≠ 0) then .error (.badUnusedCount unused.toNat)
    else .ok (.bits unused.toNat rest)

def read (type : DeclaredType) (octets : Octets) : Except Fault Value :=
  match type with
  | .integer | .enumerated => (readInteger octets).map .integer
  | .boolean =>
    match octets with
    | [octet] => .ok (.boolean (octet ≠ 0))
    | _ => .error (.notOneOctet octets.length)
  | .null => if octets.isEmpty then .ok .null else .error (.notEmpty octets.length)
  | .ia5String | .printableString | .visibleString | .numericString | .utcTime
  | .generalizedTime => (readSevenBit octets).map .text
  | .utf8String | .graphicString | .generalString =>
    ((Utf8.decode octets).mapError .utf8).map .text
  | .bmpString => (readTwoOctet octets).map .text
  | .tbcdString => (readDigitsFrom 0 octets).map .digits
  | .objectIdentifier => (readOid octets).map .oid
  | .bitString => readBits octets
  | _ => .ok (.raw octets)

def faultText (type : DeclaredType) (fault : Fault) : String :=
  s!"cannot decode {type.text}: {fault.text}"

end Value

end BerRecords
