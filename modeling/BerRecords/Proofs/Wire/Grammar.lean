import BerRecords.Element.Signal

/-!
# The grammar of elements

What octets are a series of elements, told without a reader: the spellings of
identifiers and lengths, and trees of elements with the octets and the signals
that they stand for.
-/

set_option autoImplicit false

namespace BerRecords

def Base128.value (octets : Octets) : Nat :=
  octets.foldl extend 0

inductive Identifier.Spells (encoding : TagEncoding) : Octets → Tag → Prop where
  | short {octet : UInt8} :
      octet.toNat % 32 ≠ Tag.longMark →
      Spells encoding [octet] (.ofLeadOctet octet (octet.toNat % 32))
  | long {first last : UInt8} {lead : Octets} :
      encoding = .multiOctet → first.toNat % 32 = Tag.longMark →
      lead.length + 1 ≤ maxNumberOctets → lead.head? ≠ some 128 →
      (∀ octet ∈ lead, 128 ≤ octet.toNat) → last.toNat < 128 →
      Spells encoding (first :: (lead ++ [last]))
        (.ofLeadOctet first (Base128.value (lead ++ [last])))

inductive Length.Spells : Octets → Nat → Prop where
  | short {octet : UInt8} : octet.toNat < 128 → Spells [octet] octet.toNat
  | long {first : UInt8} {number : Octets} :
      first.toNat = 128 + number.length → 1 ≤ number.length → number.length ≤ maxOctets →
      Spells (first :: number) (Octets.bigEndian number)

/-- What precedes the content of an element, wherever the element stands. -/
structure Heading (encoding : TagEncoding) where
  tag : Tag
  length : Nat
  identifier : Octets
  lengthOctets : Octets
  identifier_spells : Identifier.Spells encoding identifier tag
  length_spells : Length.Spells lengthOctets length

namespace Heading

variable {encoding : TagEncoding}

def octets (heading : Heading encoding) : Octets :=
  heading.identifier ++ heading.lengthOctets

def header (heading : Heading encoding) (offset : Nat) : Header :=
  ⟨heading.tag, heading.length, offset, heading.octets⟩

def short (lead size : UInt8) (unmarked : lead.toNat % 32 ≠ Tag.longMark)
    (small : size.toNat < 128) : Heading encoding where
  tag := .ofLeadOctet lead (lead.toNat % 32)
  length := size.toNat
  identifier := [lead]
  lengthOctets := [size]
  identifier_spells := .short unmarked
  length_spells := .short small

end Heading

/-- A tree of elements. Lengths and forms are those that the headings declare, right or
wrong; `Element.WellFormed` says when they are right. -/
inductive Element (encoding : TagEncoding) where
  | leaf (heading : Heading encoding) (value : Octets)
  | branch (heading : Heading encoding) (children : List (Element encoding))

namespace Element

variable {encoding : TagEncoding}

def heading : Element encoding → Heading encoding
  | leaf heading _ | branch heading _ => heading

mutual

def octets : Element encoding → Octets
  | leaf heading value => heading.octets ++ value
  | branch heading children => heading.octets ++ octetsAll children

def octetsAll : List (Element encoding) → Octets
  | [] => []
  | element :: rest => octets element ++ octetsAll rest

end

def content : Element encoding → Octets
  | leaf _ value => value
  | branch _ children => octetsAll children

mutual

def height : Element encoding → Nat
  | leaf .. => 1
  | branch _ children => heightAll children + 1

def heightAll : List (Element encoding) → Nat
  | [] => 0
  | element :: rest => max (height element) (heightAll rest)

end

mutual

/-- The form of every element is the one that its tag announces. -/
def Formed : Element encoding → Prop
  | leaf heading _ => heading.tag.constructed = false
  | branch heading children => heading.tag.constructed = true ∧ FormedAll children

def FormedAll : List (Element encoding) → Prop
  | [] => True
  | element :: rest => Formed element ∧ FormedAll rest

end

mutual

/-- Every element has the form that its tag announces and the length that it declares. -/
def WellFormed : Element encoding → Prop
  | leaf heading value => heading.tag.constructed = false ∧ value.length = heading.length
  | branch heading children =>
    heading.tag.constructed = true ∧ (octetsAll children).length = heading.length ∧
      WellFormedAll children

def WellFormedAll : List (Element encoding) → Prop
  | [] => True
  | element :: rest => WellFormed element ∧ WellFormedAll rest

end

mutual

theorem WellFormed.formed {element : Element encoding} (wellFormed : element.WellFormed) :
    element.Formed := by
  match element with
  | leaf heading value =>
      rw [WellFormed] at wellFormed
      rw [Formed]
      exact wellFormed.1
  | branch heading children =>
      rw [WellFormed] at wellFormed
      rw [Formed]
      exact ⟨wellFormed.1, WellFormedAll.formed wellFormed.2.2⟩

theorem WellFormedAll.formed {elements : List (Element encoding)}
    (wellFormed : WellFormedAll elements) : FormedAll elements := by
  match elements with
  | [] =>
      rw [FormedAll]
      trivial
  | element :: rest =>
      rw [WellFormedAll] at wellFormed
      rw [FormedAll]
      exact ⟨wellFormed.1.formed, wellFormed.2.formed⟩

end

mutual

/-- What a reader says of an element that starts at a stream position: its start, its
value or the elements inside from left to right, and its end. -/
def signals (offset : Nat) : Element encoding → List Signal
  | leaf heading value =>
    [.start (heading.header offset), .value value, .stop heading.tag]
  | branch heading children =>
    .start (heading.header offset) ::
      (signalsAll (offset + heading.octets.length) children ++ [.stop heading.tag])

def signalsAll (offset : Nat) : List (Element encoding) → List Signal
  | [] => []
  | element :: rest =>
    signals offset element ++ signalsAll (offset + (octets element).length) rest

end

def body (offset : Nat) : Element encoding → List Signal
  | leaf _ value => [.value value]
  | branch heading children => signalsAll (offset + heading.octets.length) children

theorem signals_eq (offset : Nat) (element : Element encoding) :
    element.signals offset = .start (element.heading.header offset) ::
      (element.body offset ++ [.stop element.heading.tag]) := by
  cases element with
  | leaf heading value => rw [signals, Element.heading, body, List.singleton_append]
  | branch heading children => rw [signals, Element.heading, body]

/-- The elements are a reading of the octets that keeps a nesting limit. -/
structure Parses (limit : Nat) (octets : Octets) (elements : List (Element encoding)) : Prop where
  wellFormed : WellFormedAll elements
  height_le : heightAll elements ≤ limit
  octets_eq : octetsAll elements = octets

end Element

end BerRecords
