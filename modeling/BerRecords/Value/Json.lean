import BerRecords.Json
import BerRecords.Value

/-!
# JSON images of values

How the content of a primitive element is shown as JSON. Content without a
meaning under its declared type is shown as the hexadecimal text of its octets.
-/

set_option autoImplicit false

namespace BerRecords

def Json.hex (octets : Octets) : Json :=
  .string octets.hex

namespace Value

def json : Value → Json
  | .integer value => .integer value
  | .boolean value => .boolean value
  | .null => .null
  | .text characters => .text characters
  | .digits symbols => .text symbols
  | .oid dotted => .string dotted
  | .bits unused octets =>
    .object [("unused".toList, .number unused), ("hex".toList, .hex octets)]
  | .raw octets => .hex octets

def contentJson (type : DeclaredType) (octets : Octets) : Json :=
  match read type octets with
  | .ok value => value.json
  | .error _ => .hex octets

def contentJson? (type : DeclaredType) : Option Octets → Json
  | none => .null
  | some octets => contentJson type octets

end Value

end BerRecords
