import BerRecords.Records.Outcomes
import BerRecords.Value.Json

/-!
# Lines

One line of JSON for each record: its number, its place in the stream, its content
as a list of fields or as a tree, and its issues if it has any.
-/

set_option autoImplicit false

namespace BerRecords.Line

def member (key : String) (value : Json) : List Char × Json :=
  (key.toList, value)

def issue (issue : Issue) : Json :=
  .object [member "path" (.string issue.path), member "offset" (.number issue.offset),
    member "reason" (.string issue.reason), member "nulled" (.boolean issue.nulled)]

def issueMembers (issues : List Issue) : List (List Char × Json) :=
  if issues.isEmpty then [] else [member "issues" (.array (issues.map issue))]

def field (field : Field) : Json :=
  .object [member "path" (.string field.path), member "type" (.string field.type.text),
    member "value" (Value.contentJson? field.type field.value)]

def ofContent (index offset : Nat) (content : List Char × Json) (issues : List Issue) : Json :=
  .object <|
    [member "record" (.number index), member "offset" (.number offset), content] ++
      issueMembers issues

def ofFields (index offset : Nat) (fields : List Field) (issues : List Issue) : Json :=
  ofContent index offset (member "fields" (.array (fields.map field))) issues

def key (label : Label) : List Char :=
  match label.name, label.tag with
  | some name, _ => name.toList
  | none, some tag => tag.text.toList
  | none, none => ['?']

def isList (label : Label) : Bool :=
  label.type = some .sequenceOf || label.type = some .setOf

mutual

/-- The image of a node: a value, a list, or an object with a member for each child. -/
def node : Node → Json
  | .leaf label value => Value.contentJson? (label.type.getD .octetString) value
  | .branch label children =>
    if isList label then .array (items children) else .object (members children)

def items : List Node → List Json
  | [] => []
  | child :: rest => node child :: items rest

def members : List Node → List (List Char × Json)
  | [] => []
  | child :: rest => (key child.label, node child) :: members rest

end

def ofTree (index offset : Nat) (root : Node) (issues : List Issue) : Json :=
  ofContent index offset (member "tree" (.object [(key root.label, node root)])) issues

end BerRecords.Line
