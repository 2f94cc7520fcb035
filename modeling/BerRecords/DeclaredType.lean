import BerRecords.Text.Blank
import BerRecords.Tag

/-!
# Declared types

The types that a schema can declare for an element, their written names and the
universal tags they go by when a schema gives no other.
-/

set_option autoImplicit false

namespace BerRecords

inductive DeclaredType where
  | integer
  | boolean
  | null
  | enumerated
  | real
  | octetString
  | bitString
  | objectIdentifier
  | utf8String
  | ia5String
  | printableString
  | visibleString
  | numericString
  | graphicString
  | generalString
  | bmpString
  | tbcdString
  | utcTime
  | generalizedTime
  | sequence
  | sequenceOf
  | set
  | setOf
  | choice
  | any
  deriving DecidableEq, Repr

namespace DeclaredType

def builtin : List DeclaredType :=
  [integer, boolean, null, enumerated, real, octetString, bitString, objectIdentifier,
    utf8String, ia5String, printableString, visibleString, numericString, graphicString,
    generalString, bmpString, tbcdString, utcTime, generalizedTime]

def all : List DeclaredType :=
  builtin ++ [sequence, sequenceOf, set, setOf, choice, any]

def text : DeclaredType → String
  | integer => "INTEGER"
  | boolean => "BOOLEAN"
  | null => "NULL"
  | enumerated => "ENUMERATED"
  | real => "REAL"
  | octetString => "OCTET STRING"
  | bitString => "BIT STRING"
  | objectIdentifier => "OBJECT IDENTIFIER"
  | utf8String => "UTF8String"
  | ia5String => "IA5String"
  | printableString => "PrintableString"
  | visibleString => "VisibleString"
  | numericString => "NumericString"
  | graphicString => "GraphicString"
  | generalString => "GeneralString"
  | bmpString => "BMPString"
  | tbcdString => "TBCD-STRING"
  | utcTime => "UTCTime"
  | generalizedTime => "GeneralizedTime"
  | sequence => "SEQUENCE"
  | sequenceOf => "SEQUENCE OF"
  | set => "SET"
  | setOf => "SET OF"
  | choice => "CHOICE"
  | any => "ANY"

/-- The built-in type that a keyword names. Blanks around it and the kind and number
of blanks between two words do not matter. -/
def ofKeyword? (word : List Char) : Option DeclaredType :=
  let name := String.ofList (Text.joinWords word)
  builtin.find? (·.text = name)

def ofText? (name : String) : Option DeclaredType :=
  all.find? (·.text = name)

/-- The universal tag of a type. A choice and a value of any type have none. -/
def universalTag? : DeclaredType → Option Tag
  | boolean => some (.universal 1)
  | integer => some (.universal 2)
  | bitString => some (.universal 3)
  | octetString | tbcdString => some (.universal 4)
  | null => some (.universal 5)
  | objectIdentifier => some (.universal 6)
  | real => some (.universal 9)
  | enumerated => some (.universal 10)
  | utf8String => some (.universal 12)
  | sequence | sequenceOf => some .sequence
  | set | setOf => some .set
  | numericString => some (.universal 18)
  | printableString => some (.universal 19)
  | ia5String => some (.universal 22)
  | utcTime => some (.universal 23)
  | generalizedTime => some (.universal 24)
  | graphicString => some (.universal 25)
  | visibleString => some (.universal 26)
  | generalString => some (.universal 27)
  | bmpString => some (.universal 30)
  | choice | any => none

end DeclaredType

end BerRecords
