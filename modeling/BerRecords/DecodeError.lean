import BerRecords.DeclaredType
import BerRecords.SchemaError
import BerRecords.Tag.Identifier

/-!
# Decode errors

What can go wrong between the octets of a stream and its records: broken
structure, elements that the schema does not allow, events out of order, a
misused schema, and a source that fails.
-/

set_option autoImplicit false

namespace BerRecords

inductive Corruption where
  | unexpectedEnd
  | headerPastParent (declared occupied : Nat)
  | childrenMisfit (declared occupied : Nat)
  | tooDeep (limit : Nat)
  | identifier (fault : IdentifierError)
  | indefiniteLength
  | longLength (octets : Nat)
  | headerCut
  | valueCut (wanted : Nat) (tag : Tag) (found : Nat)
  | reported (reason : String)
  deriving DecidableEq, Repr

def Corruption.text : Corruption → String
  | unexpectedEnd => "unexpected end of source"
  | headerPastParent declared occupied =>
    s!"declared length {declared} but children occupy more than {occupied} bytes"
  | childrenMisfit declared occupied =>
    s!"declared length {declared} but children occupy {occupied} bytes"
  | tooDeep limit => s!"nesting deeper than {limit} levels"
  | identifier fault => fault.text
  | indefiniteLength => "indefinite length not supported"
  | longLength octets => s!"length field of {octets} octets not supported"
  | headerCut => "source ended inside an element header"
  | valueCut wanted tag found =>
    s!"expected {wanted} value bytes for {tag.text}, source ended after {found}"
  | reported reason => reason

inductive Disagreement where
  | unknownRoot (tag : Tag)
  | nestedInPrimitive (type : DeclaredType) (tag : Tag)
  | secondAlternative (choice : String) (tag : Tag)
  | unknownComponent (parent : String) (tag : Tag)
  | missingComponent (parent component : String)
  | emptyChoice (choice : String) (tag : Tag)
  | wrongForm (type : DeclaredType) (tag : Tag)
  | reported (expected found reason : String)
  deriving DecidableEq, Repr

namespace Disagreement

def formText (constructed : Bool) : String :=
  if constructed then "constructed" else "primitive"

def expected : Disagreement → String
  | unknownRoot _ => "a top-level type"
  | nestedInPrimitive type _ => "primitive " ++ type.text
  | secondAlternative choice _ => "one alternative of " ++ choice
  | unknownComponent parent _ => "a component of " ++ parent
  | missingComponent _ component => "component " ++ component
  | emptyChoice choice _ => "one alternative of " ++ choice
  | wrongForm type tag => formText (!tag.constructed) ++ " " ++ type.text
  | reported expected _ _ => expected

def found : Disagreement → String
  | unknownRoot tag => tag.text
  | nestedInPrimitive _ tag => tag.text
  | secondAlternative _ tag => "a second alternative " ++ tag.text
  | unknownComponent _ tag => tag.text
  | missingComponent parent _ => "end of " ++ parent
  | emptyChoice _ tag => "empty " ++ tag.text
  | wrongForm _ tag => formText tag.constructed ++ " " ++ tag.text
  | reported _ found _ => found

def reason : Disagreement → String
  | unknownRoot _ => "unknown top-level tag"
  | nestedInPrimitive _ _ => "nested element where primitive expected"
  | secondAlternative choice _ => "more than one alternative within " ++ choice
  | unknownComponent parent _ => "unknown nested tag within " ++ parent
  | missingComponent _ _ => "missing mandatory component"
  | emptyChoice _ _ => "CHOICE holds no alternative"
  | wrongForm _ _ => "primitive/constructed mismatch"
  | reported _ _ reason => reason

end Disagreement

inductive Imbalance where
  | noDefinition
  | valueOutside
  | valueInConstructed
  | closeOutside (tag : Tag)
  | wrongClose (tag : Tag)
  | nodeInPrimitive
  | nodeCloseOutside
  | valueInConstructedNode
  | noRecord
  | reported (reason : String)
  deriving DecidableEq, Repr

def Imbalance.text : Imbalance → String
  | noDefinition => "open element has no definition"
  | valueOutside => "value with empty state"
  | valueInConstructed => "primitive value for constructed element"
  | closeOutside tag => s!"mismatched end tag {tag.text} with no open element"
  | wrongClose tag => s!"end tag {tag.text} does not match open element"
  | nodeInPrimitive => "child closed inside a primitive node"
  | nodeCloseOutside => "mismatched end tag"
  | valueInConstructedNode => "primitive value for constructed node"
  | noRecord => "element closed without producing a record"
  | reported reason => reason

structure Mismatch where
  offset : Nat
  path : String
  cause : Disagreement
  fieldLocal : Bool
  deriving DecidableEq, Repr

inductive DecodeError where
  | corrupt (offset : Nat) (element : Option Nat) (path : String) (cause : Corruption)
  | mismatch (mismatch : Mismatch)
  | unbalanced (path : String) (cause : Imbalance)
  | schema (error : SchemaError)
  | source (reason : String)
  deriving DecidableEq, Repr

namespace DecodeError

def pathText (path : String) : String :=
  if path.isEmpty then "<root>" else path

def text : DecodeError → String
  | corrupt offset element path cause =>
    let within := match element with
      | some start => s!" in element at byte {start}"
      | none => ""
    s!"corrupt structure at byte {offset}{within}: {cause.text} (path: {pathText path})"
  | mismatch m =>
    s!"grammar mismatch at byte {m.offset}: {m.cause.reason}; expected {m.cause.expected}, " ++
      s!"found {m.cause.found} (path: {pathText m.path})"
  | unbalanced path cause => s!"state consistency violated: {cause.text} (path: {pathText path})"
  | schema error => "schema error: " ++ error.text
  | source reason => "IO error: " ++ reason

def offset? : DecodeError → Option Nat
  | corrupt offset _ _ _ => some offset
  | mismatch m => some m.offset
  | _ => none

def path : DecodeError → String
  | corrupt _ _ path _ => path
  | mismatch m => m.path
  | unbalanced path _ => path
  | _ => ""

/-- The error with a path, where the layer that raised it knew none. -/
def withPath (path : String) : DecodeError → DecodeError
  | corrupt offset element own cause =>
    corrupt offset element (if own.isEmpty then path else own) cause
  | error => error

def isStructural : DecodeError → Bool
  | corrupt .. | source .. => true
  | _ => false

/-- Whether one leaf alone is affected, so that null can stand for it. -/
def isFieldLocal : DecodeError → Bool
  | mismatch m => m.fieldLocal
  | _ => false

def isFatal : DecodeError → Bool
  | unbalanced .. | schema .. => true
  | _ => false

end DecodeError

end BerRecords
