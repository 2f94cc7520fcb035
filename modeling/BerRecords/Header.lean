import BerRecords.Tag
import BerRecords.Length

/-!
# Element headers

A header is what precedes the content of an element: its identifier and length
octets, together with what they say and where in the stream they stand.
-/

set_option autoImplicit false

namespace BerRecords

/-- What stands before the content of an element, from `offset` on, with its octets as they were
read. -/
structure Header where
  tag : Tag
  length : Nat
  offset : Nat
  octets : Octets
  deriving DecidableEq, Repr

namespace Header

def shortest (tag : Tag) (length offset : Nat) : Header where
  tag := tag
  length := length
  offset := offset
  octets := tag.octets ++ Length.octets length

def constructed (header : Header) : Bool :=
  header.tag.constructed

def size (header : Header) : Nat :=
  header.octets.length

def contentStart (header : Header) : Nat :=
  header.offset + header.size

def stop (header : Header) : Nat :=
  header.contentStart + header.length

end Header

end BerRecords
