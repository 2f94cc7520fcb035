import BerRecords.Attempt
import BerRecords.Definition
import BerRecords.Header

/-!
# Fields

What a schema makes of an element: fields with a path of names, a declared type
and a value, and issues where a record was kept although part of it was not as the
schema wants. A sink receives them together with the nesting that they stand in.
-/

set_option autoImplicit false

namespace BerRecords

/-- A value with its place in the record and in the stream. There is none where null stands for what
could not be read. -/
structure Field where
  path : String
  value : Option Octets
  type : DeclaredType
  offset : Nat
  deriving DecidableEq, Repr

/-- A part of a record that was left out, or set to null if `nulled` says so. -/
structure Issue where
  path : String
  offset : Nat
  cause : DecodeError
  nulled : Bool
  deriving DecidableEq, Repr

def Issue.reason (issue : Issue) : String :=
  issue.cause.text

inductive FieldEvent where
  | enter (definition : Definition) (header : Header)
  | field (field : Field)
  | leave
  | missing (definition : Definition) (path : String) (offset : Nat)

def Field.ofMissing (definition : Definition) (path : String) (offset : Nat) : Field :=
  ⟨path, none, definition.type, offset⟩

/-- A receiver of field events, which may refuse one, and of issues, which it may not. -/
structure Sink (σ : Type) where
  receive : FieldEvent → Attempt σ Unit
  note : Issue → σ → σ

/-- The sink that hands fields to `take`, missing components as null fields, and drops
everything else. -/
def Sink.ofFields {σ : Type} (take : Field → Attempt σ Unit) : Sink σ where
  receive
    | .field field => take field
    | .missing definition path offset => take (.ofMissing definition path offset)
    | _ => pure ()
  note _ state := state

structure Collected where
  fields : Array Field
  issues : Array Issue
  deriving DecidableEq, Repr

namespace Collected

def empty : Collected :=
  ⟨#[], #[]⟩

def addField (field : Field) : Attempt Collected Unit :=
  modify fun collected => { collected with fields := collected.fields.push field }

def sink : Sink Collected where
  receive := (Sink.ofFields addField).receive
  note issue collected := { collected with issues := collected.issues.push issue }

end Collected

end BerRecords
