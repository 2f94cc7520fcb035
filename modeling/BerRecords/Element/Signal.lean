import BerRecords.Attempt
import BerRecords.Header

/-!
# Signals

What a reader says about a stream: an element starts, a primitive element has
this value, an element ends. A visitor receives signals and may refuse one.
-/

set_option autoImplicit false

namespace BerRecords

inductive Signal where
  | start (header : Header)
  | value (octets : Octets)
  | stop (tag : Tag)
  deriving DecidableEq, Repr

abbrev Visitor (σ : Type) := Signal → Attempt σ Unit

/-- A signal as it is recorded, without the octets of headers. -/
inductive Event where
  | start (tag : Tag) (length : Nat) (constructed : Bool) (offset : Nat)
  | value (octets : Octets)
  | stop (tag : Tag)
  deriving DecidableEq, Repr

def Signal.event : Signal → Event
  | start header => .start header.tag header.length header.constructed header.offset
  | value octets => .value octets
  | stop tag => .stop tag

namespace Event

def recorder : Visitor (Array Event) := fun signal =>
  modify (·.push signal.event)

end Event

end BerRecords
