import BerRecords.Module.Fault
import BerRecords.Tag

/-!
# Schema errors

Why a schema cannot be made, or why a definition cannot answer a look-up.
-/

set_option autoImplicit false

namespace BerRecords

inductive SchemaError where
  | duplicateTag (parent : String) (key : Tag.Key) (first second : String)
  | missingTag (name : String)
  | unknownType (name source : String)
  | recursiveType (name : String)
  | unknownRoot (name : String)
  | notConstructed (name : String)
  | malformed (fault : Module.Fault)
  deriving DecidableEq, Repr

def SchemaError.text : SchemaError → String
  | duplicateTag parent key first second =>
    s!"duplicate tag {key.text} in {parent}: '{first}' and '{second}'"
  | missingTag name => s!"type '{name}' has no tag and none can be derived"
  | unknownType name source => s!"unknown type '{name}' referenced from '{source}'"
  | recursiveType name => s!"recursive type definition through '{name}'"
  | unknownRoot name => s!"root type '{name}' not found in schema"
  | notConstructed name => s!"'{name}' is not constructed; child lookup is not defined for it"
  | malformed fault => "grammar syntax: " ++ fault.text

end BerRecords
