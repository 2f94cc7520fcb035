import BerRecords.Json.Text

/-!
# JSON values

JSON with whole numbers and with objects as ordered lists of members, and the
compact form in which it is written: no blanks, members in their order.
-/

set_option autoImplicit false

namespace BerRecords

inductive Json where
  | null
  | boolean (value : Bool)
  | integer (value : Int)
  | text (characters : List Char)
  | array (items : List Json)
  | object (members : List (List Char × Json))

namespace Json

def string (text : String) : Json :=
  .text text.toList

def number (value : Nat) : Json :=
  .integer value

mutual

def write (tail : List Char) : Json → List Char
  | .null => "null".toList ++ tail
  | .boolean true => "true".toList ++ tail
  | .boolean false => "false".toList ++ tail
  | .integer value => (toString value).toList ++ tail
  | .text characters => quote characters ++ tail
  | .array items => '[' :: writeItems true (']' :: tail) items
  | .object members => '\x7b' :: writeMembers true ('\x7d' :: tail) members

/-- The written items of an array, before `tail`. A comma precedes every item but
the first. -/
def writeItems (first : Bool) (tail : List Char) : List Json → List Char
  | [] => tail
  | item :: rest =>
    let written := write (writeItems false tail rest) item
    if first then written else ',' :: written

def writeMembers (first : Bool) (tail : List Char) : List (List Char × Json) → List Char
  | [] => tail
  | (key, value) :: rest =>
    let written := quote key ++ ':' :: write (writeMembers false tail rest) value
    if first then written else ',' :: written

end

def characters (value : Json) : List Char :=
  write [] value

def render (value : Json) : String :=
  String.ofList value.characters

end Json

end BerRecords
