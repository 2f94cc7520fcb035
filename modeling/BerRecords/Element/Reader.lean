import BerRecords.Element.Signal
import BerRecords.Source

/-!
# Reading elements

The reader turns a source into signals, one step at a time. Its memory between
steps is the stack of open elements, innermost first. Every header octet is
checked against the end of the element around it, and every element against the
end of its parent, so an element is never left at any other place than its
declared end.

Lengths are definite. The indefinite form and numbers of more than four length
octets are broken structure.
-/

set_option autoImplicit false

namespace BerRecords

/-- A source with the position reached in it, the limits to be kept, and the top-level element that
is being read or where reading failed. -/
structure Reader where
  source : Source
  offset : Nat
  encoding : TagEncoding
  maxDepth : Nat
  current : Option Header

abbrev Reading := Attempt Reader

namespace Reader

def defaultMaxDepth : Nat := 64

def ofSource (encoding : TagEncoding) (maxDepth : Nat) (source : Source) : Reader where
  source := source
  offset := 0
  encoding := encoding
  maxDepth := maxDepth
  current := none

def nextOctet? : Reading (Option UInt8) := fun reader =>
  match reader.source.next with
  | .octet octet rest =>
    (.ok (some octet), { reader with source := rest, offset := reader.offset + 1 })
  | .exhausted rest => (.ok none, { reader with source := rest })
  | .failed reason rest => (.error (.source reason), { reader with source := rest })

/-- The next octet of a header inside `parent`, wherever the parent ends. There is none
only at the end of the source before the first octet of a top-level element. -/
def unboundedOctet? (parent : Option Header) (first : Bool) : Reading (Option UInt8) := do
  match ← nextOctet? with
  | some octet => return some octet
  | none =>
    if first && parent.isNone then return none
    let reader ← get
    throw <| .corrupt reader.offset (parent.map (·.offset)) "" .unexpectedEnd

def headerOctet? (parent : Option Header) (start : Nat) (first : Bool) :
    Reading (Option UInt8) := do
  let reader ← get
  if let some parent := parent then
    if parent.stop ≤ reader.offset then
      throw <| .corrupt start parent.offset "" <|
        .headerPastParent parent.length (reader.offset - parent.contentStart)
  unboundedOctet? parent first

def headerOctet (parent : Option Header) (start : Nat) : Reading UInt8 := do
  match ← headerOctet? parent start false with
  | some octet => return octet
  | none => throw <| .corrupt start (parent.map (·.offset)) "" .headerCut

/-- Reads what is left of an identifier: the tag and the octets read. There is none only
where the source ends between top-level elements. -/
def readIdentifier (parent : Option Header) (start : Nat) (pending : Identifier.Pending) :
    Reading (Option (Tag × Octets)) := do
  let some octet ← headerOctet? parent start (pending = .fresh) | return none
  let reader ← get
  match _pushed : pending.push reader.encoding octet with
  | .error fault =>
    throw <| .corrupt start (parent.map (·.offset)) "" (.identifier fault)
  | .ok (.complete tag) => return some (tag, [octet])
  | .ok (.more next) => do
    let found ← readIdentifier parent start next
    return found.map fun (tag, octets) => (tag, octet :: octets)
termination_by pending.room
decreasing_by exact Identifier.Pending.room_push _pushed

def headerOctets (parent : Option Header) (start : Nat) : Nat → Reading Octets
  | 0 => return []
  | count + 1 => do
    let octet ← headerOctet parent start
    return octet :: (← headerOctets parent start count)

def readLength (parent : Option Header) (start : Nat) : Reading (Nat × Octets) := do
  let first ← headerOctet parent start
  if first.toNat < 128 then return (first.toNat, [first])
  let count := first.toNat % 128
  if count = 0 then
    throw <| .corrupt start (parent.map (·.offset)) "" .indefiniteLength
  if Length.maxOctets < count then
    throw <| .corrupt start (parent.map (·.offset)) "" (.longLength count)
  let number ← headerOctets parent start count
  return (Octets.bigEndian number, first :: number)

/-- Reads a header inside `parent`; none at the end of the source between top-level
elements. -/
def readHeader (parent : Option Header) : Reading (Option Header) := do
  let start := (← get).offset
  let some (tag, identifier) ← readIdentifier parent start .fresh | return none
  let (length, octets) ← readLength parent start
  return some ⟨tag, length, start, identifier ++ octets⟩

def overrun? (parent : Option Header) (header : Header) : Option DecodeError :=
  match parent with
  | none => none
  | some parent =>
    if parent.stop < header.stop then
      some <| .corrupt header.offset parent.offset "" <|
        .childrenMisfit parent.length (header.stop - parent.contentStart)
    else none

def tooDeep? (parent : Option Header) (limit depth : Nat) (header : Header) :
    Option DecodeError :=
  if limit ≤ depth then
    some <| .corrupt header.offset (parent.map (·.offset)) "" (.tooDeep limit)
  else none

/-- Reads the header of an element at `depth` and checks that the element may stand
there: it ends within its parent and the nesting limit is kept. -/
def openElement (parent : Option Header) (depth : Nat) : Reading (Option Header) := do
  let some header ← readHeader parent | return none
  if parent.isNone then modify ({ · with current := some header })
  let reader ← get
  match (overrun? parent header).or (tooDeep? parent reader.maxDepth depth header) with
  | some error => throw error
  | none => return some header

/-- Reads the value octets of a primitive element. A value that breaks off has left
the source without moving the offset, unless the source simply ended. -/
def readValue (header : Header) : Reading Octets := fun reader =>
  let taken := reader.source.take header.length
  let reader := { reader with source := taken.rest }
  match taken.halt with
  | .filled =>
    (.ok taken.octets, { reader with offset := reader.offset + taken.octets.length })
  | .exhausted =>
    let stop := reader.offset + taken.octets.length
    (.error (.corrupt stop header.offset "" <|
      .valueCut header.length header.tag taken.octets.length), { reader with offset := stop })
  | .failed reason => (.error (.source reason), reader)

structure Open where
  header : Header
  valueRead : Bool

def step (top : Open) (outer : List Open) : Reading (Signal × List Open) := do
  let header := top.header
  if header.constructed then
    let reader ← get
    if reader.offset < header.stop then
      match ← openElement header (outer.length + 1) with
      | some child => return (.start child, ⟨child, false⟩ :: top :: outer)
      | none => throw <| .corrupt reader.offset header.offset "" .headerCut
    else if reader.offset = header.stop then
      return (.stop header.tag, outer)
    else
      throw <| .corrupt reader.offset header.offset "" <|
        .childrenMisfit header.length (reader.offset - header.contentStart)
  else if top.valueRead then
    return (.stop header.tag, outer)
  else
    let octets ← readValue header
    return (.value octets, ⟨header, true⟩ :: outer)

def remaining (reader : Reader) : Nat :=
  reader.source.remaining

/-- How many signals an open element still owes, its children apart. -/
def Open.owes (element : Open) : Nat :=
  if element.valueRead then 1 else 2

def owed : List Open → Nat
  | [] => 0
  | element :: outer => element.owes + owed outer

/-- A bound on the steps to come: each one consumes octets or settles a debt. -/
def work (reader : Reader) (stack : List Open) : Nat :=
  3 * reader.remaining + owed stack

end Reader

end BerRecords
