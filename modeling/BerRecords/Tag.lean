import BerRecords.Base128

/-!
# Tags

A tag names an element: a class, a number and whether the element is built of
other elements. Two tags select the same definition when class and number agree,
which is what `Tag.Key` keeps.
-/

set_option autoImplicit false

namespace BerRecords

inductive TagClass where
  | universal
  | application
  | context
  | privateUse
  deriving DecidableEq, Repr, Inhabited

namespace TagClass

def bits : TagClass → Nat
  | universal => 0
  | application => 1
  | context => 2
  | privateUse => 3

def ofBits : Nat → TagClass
  | 0 => universal
  | 1 => application
  | 2 => context
  | _ => privateUse

theorem ofBits_bits (tagClass : TagClass) : ofBits tagClass.bits = tagClass := by
  cases tagClass <;> rfl

def text : TagClass → String
  | universal => "UNIVERSAL"
  | application => "APPLICATION"
  | context => "CONTEXT"
  | privateUse => "PRIVATE"

/-- The class that a word before a tag number selects, in any ASCII case. No word
and every other word select the context class. -/
def ofKeyword : Option String → TagClass
  | none => context
  | some word =>
    let word := String.ofList (word.toList.map Char.toUpper)
    if word = "APPLICATION" then application
    else if word = "UNIVERSAL" then universal
    else if word = "PRIVATE" then privateUse
    else context

end TagClass

/-- Whether identifiers may be longer than one octet. -/
inductive TagEncoding where
  | singleOctet
  | multiOctet
  deriving DecidableEq, Repr, Inhabited

structure Tag where
  tagClass : TagClass
  constructed : Bool
  number : Nat
  deriving DecidableEq, Repr, Inhabited

/-- What look-ups compare: class and number, without the constructed bit. -/
structure Tag.Key where
  tagClass : TagClass
  number : Nat
  deriving DecidableEq, Repr

namespace Tag

def key (tag : Tag) : Key :=
  ⟨tag.tagClass, tag.number⟩

def selects (tag other : Tag) : Bool :=
  tag.key = other.key

def universal (number : Nat) : Tag :=
  ⟨.universal, false, number⟩

def application (number : Nat) : Tag :=
  ⟨.application, false, number⟩

def context (number : Nat) : Tag :=
  ⟨.context, false, number⟩

def privateUse (number : Nat) : Tag :=
  ⟨.privateUse, false, number⟩

def asConstructed (tag : Tag) : Tag :=
  { tag with constructed := true }

def boolean : Tag := universal 1
def integer : Tag := universal 2
def bitString : Tag := universal 3
def octetString : Tag := universal 4
def null : Tag := universal 5
def objectIdentifier : Tag := universal 6
def sequence : Tag := (universal 16).asConstructed
def set : Tag := (universal 17).asConstructed

def named : List Tag :=
  [boolean, integer, bitString, octetString, null, objectIdentifier, sequence, set]

def Key.text (key : Key) : String :=
  "[" ++ key.tagClass.text ++ " " ++ toString key.number ++ "]"

def text (tag : Tag) : String :=
  tag.key.text

def longMark : Nat := 31

def leadOctet (tag : Tag) (low : Nat) : UInt8 :=
  UInt8.ofNat (tag.tagClass.bits * 64 + (if tag.constructed then 32 else 0) + low)

def ofLeadOctet (octet : UInt8) (number : Nat) : Tag where
  tagClass := .ofBits (octet.toNat / 64)
  constructed := octet.toNat / 32 % 2 = 1
  number := number

/-- The tag of a one-octet identifier; none when the octet announces a longer one. -/
def ofOctet? (octet : UInt8) : Option Tag :=
  let low := octet.toNat % 32
  if low = longMark then none else some (ofLeadOctet octet low)

def octets (tag : Tag) : Octets :=
  if tag.number < longMark then [tag.leadOctet tag.number]
  else tag.leadOctet longMark :: Base128.encode tag.number

end Tag

end BerRecords
