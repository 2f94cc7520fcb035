/-!
# TOML values

The values of a TOML document. Floating numbers and dates are told apart from the
rest, but their values are not kept.
-/

set_option autoImplicit false

namespace BerRecords

inductive Toml where
  | string (text : String)
  | integer (value : Int)
  | float
  | boolean (value : Bool)
  | date
  | array (items : List Toml)
  | table (entries : List (String × Toml))

namespace Toml

def lookup (key : String) (entries : List (String × Toml)) : Option Toml :=
  (entries.find? (·.1 = key)).map (·.2)

end Toml

end BerRecords
