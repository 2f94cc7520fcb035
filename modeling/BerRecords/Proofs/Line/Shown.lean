import BerRecords.Line
import BerRecords.Proofs.Json.Written
import BerRecords.Proofs.Value.Meaning
import Mathlib.Data.List.Forall2

/-!
# What a line shows

A line is one JSON text, whatever names, paths, values and issues are in the record, and what it
says can be told without the way in which it is written: the place of the record, its fields or its
tree, and its issues if there are any. Values are told by what their content stands for, and by
pairs of lower-case digits where it stands for nothing.
-/

set_option autoImplicit false

namespace BerRecords

/-! ## Hexadecimal digits -/

namespace Octets

def hexDigits : List Char :=
  ['0', '1', '2', '3', '4', '5', '6', '7', '8', '9', 'a', 'b', 'c', 'd', 'e', 'f']

/-- There are two digits for each octet, that of its high half first. -/
inductive Hexadecimal : Octets → List Char → Prop where
  | nil : Hexadecimal [] []
  | cons {octet : UInt8} {octets : Octets} {high low : Nat} {first second : Char}
      {digits : List Char} : octet.toNat = 16 * high + low → hexDigits[high]? = some first →
      hexDigits[low]? = some second → Hexadecimal octets digits →
      Hexadecimal (octet :: octets) (first :: second :: digits)

theorem getElem?_hexDigits {digit : Nat} (small : digit < 16) :
    hexDigits[digit]? = some (Nat.digitChar digit) := by
  have all : ∀ digit < 16, hexDigits[digit]? = some (Nat.digitChar digit) := by decide
  exact all digit small

theorem hexadecimal_hex (octets : Octets) : Hexadecimal octets octets.hex.toList := by
  rw [hex, String.toList_ofList]
  induction octets with
  | nil => exact .nil
  | cons octet rest ih =>
      have halves : octet.toNat = 16 * (octet.toNat / 16) + octet.toNat % 16 :=
        (Nat.div_add_mod _ _).symm
      have low : octet.toNat % 16 < 16 := Nat.mod_lt _ (by decide)
      exact .cons halves (getElem?_hexDigits (Value.high_lt octet)) (getElem?_hexDigits low) ih

end Octets

namespace Line

open Octets (Hexadecimal hexadecimal_hex)

/-! ## Values -/

inductive ValueShown : Value → Json → Prop where
  | integer {value : Int} : ValueShown (.integer value) (.integer value)
  | boolean {value : Bool} : ValueShown (.boolean value) (.boolean value)
  | null : ValueShown .null .null
  | text {characters : List Char} : ValueShown (.text characters) (.text characters)
  | digits {symbols : List Char} : ValueShown (.digits symbols) (.text symbols)
  | oid {dotted : String} : ValueShown (.oid dotted) (.text dotted.toList)
  | bits {unused : Nat} {octets : Octets} {digits : List Char} : Hexadecimal octets digits →
      ValueShown (.bits unused octets)
        (.object [("unused".toList, .integer unused), ("hex".toList, .text digits)])
  | raw {octets : Octets} {digits : List Char} : Hexadecimal octets digits →
      ValueShown (.raw octets) (.text digits)

/-- The image of the content of an element: null if there is none, the image of what it stands for
under its type, or its octets in hexadecimal if it stands for nothing. -/
inductive ContentShown (type : DeclaredType) : Option Octets → Json → Prop where
  | absent : ContentShown type none .null
  | decoded {octets : Octets} {value : Value} {shown : Json} : Value.Denotes type octets value →
      ValueShown value shown → ContentShown type (some octets) shown
  | undecoded {octets : Octets} {digits : List Char} :
      (∀ value, ¬ Value.Denotes type octets value) → Hexadecimal octets digits →
      ContentShown type (some octets) (.text digits)

theorem valueShown_json (value : Value) : ValueShown value value.json := by
  cases value with
  | integer => exact .integer
  | boolean => exact .boolean
  | null => exact .null
  | text => exact .text
  | digits => exact .digits
  | oid => exact .oid
  | bits _ octets => exact .bits (hexadecimal_hex octets)
  | raw octets => exact .raw (hexadecimal_hex octets)

theorem contentShown_contentJson? (type : DeclaredType) (content : Option Octets) :
    ContentShown type content (Value.contentJson? type content) := by
  cases content with
  | none => exact .absent
  | some octets =>
      rw [Value.contentJson?, Value.contentJson]
      split
      · rename_i value read
        exact .decoded (Value.read_eq_ok_iff.1 read) (valueShown_json value)
      · rename_i fault failed
        refine .undecoded (fun value denotes => ?_) (hexadecimal_hex octets)
        rw [Value.read_eq_ok_iff.2 denotes] at failed
        cases failed

/-! ## Fields and issues -/

def typeNames : List (DeclaredType × String) :=
  [(.integer, "INTEGER"), (.boolean, "BOOLEAN"), (.null, "NULL"), (.enumerated, "ENUMERATED"),
    (.real, "REAL"), (.octetString, "OCTET STRING"), (.bitString, "BIT STRING"),
    (.objectIdentifier, "OBJECT IDENTIFIER"), (.utf8String, "UTF8String"),
    (.ia5String, "IA5String"), (.printableString, "PrintableString"),
    (.visibleString, "VisibleString"), (.numericString, "NumericString"),
    (.graphicString, "GraphicString"), (.generalString, "GeneralString"),
    (.bmpString, "BMPString"), (.tbcdString, "TBCD-STRING"), (.utcTime, "UTCTime"),
    (.generalizedTime, "GeneralizedTime"), (.sequence, "SEQUENCE"),
    (.sequenceOf, "SEQUENCE OF"), (.set, "SET"), (.setOf, "SET OF"), (.choice, "CHOICE"),
    (.any, "ANY")]

inductive FieldShown : Field → Json → Prop where
  | field {field : Field} {name : String} {shown : Json} : (field.type, name) ∈ typeNames →
      ContentShown field.type field.value shown →
      FieldShown field (.object [("path".toList, .text field.path.toList),
        ("type".toList, .text name.toList), ("value".toList, shown)])

theorem mem_typeNames (type : DeclaredType) : (type, type.text) ∈ typeNames := by
  cases type <;> decide

theorem fieldShown_field (field : Field) : FieldShown field (Line.field field) :=
  .field (mem_typeNames field.type) (contentShown_contentJson? field.type field.value)

inductive IssuesShown : List Issue → List (List Char × Json) → Prop where
  | none : IssuesShown [] []
  | some {issues : List Issue} : issues ≠ [] →
      IssuesShown issues [("issues".toList, .array (issues.map fun issue =>
        .object [("path".toList, .text issue.path.toList), ("offset".toList, .integer issue.offset),
          ("reason".toList, .text issue.reason.toList), ("nulled".toList, .boolean issue.nulled)]))]

theorem issuesShown_issueMembers (issues : List Issue) :
    IssuesShown issues (issueMembers issues) := by
  rw [issueMembers]
  cases issues with
  | nil => exact .none
  | cons issue rest => exact .some (List.cons_ne_nil issue rest)

/-! ## Trees -/

def classNames : List (TagClass × String) :=
  [(.universal, "UNIVERSAL"), (.application, "APPLICATION"), (.context, "CONTEXT"),
    (.privateUse, "PRIVATE")]

/-- The key of a node: its name, or the class and the number of its tag if it has no name. -/
inductive KeyShown : Label → List Char → Prop where
  | named {label : Label} {name : String} : label.name = some name → KeyShown label name.toList
  | tagged {label : Label} {tag : Tag} {name : String} : label.name = none →
      label.tag = some tag → (tag.tagClass, name) ∈ classNames →
      KeyShown label ('[' :: name.toList ++ ' ' :: Nat.toDigits 10 tag.number ++ [']'])
  | bare {label : Label} : label.name = none → label.tag = none → KeyShown label ['?']

mutual

/-- The image of a node: that of its content, a list of the images of its children if it is a
collection, and their images under their keys if it is anything else. -/
inductive NodeShown : Node → Json → Prop where
  | leaf {label : Label} {content : Option Octets} {shown : Json} :
      ContentShown (label.type.getD .octetString) content shown →
      NodeShown (.leaf label content) shown
  | collection {label : Label} {children : List Node} {items : List Json} :
      label.type = some .sequenceOf ∨ label.type = some .setOf → ItemsShown children items →
      NodeShown (.branch label children) (.array items)
  | other {label : Label} {children : List Node} {members : List (List Char × Json)} :
      label.type ≠ some .sequenceOf → label.type ≠ some .setOf → MembersShown children members →
      NodeShown (.branch label children) (.object members)

inductive ItemsShown : List Node → List Json → Prop where
  | nil : ItemsShown [] []
  | cons {child : Node} {rest : List Node} {shown : Json} {items : List Json} :
      NodeShown child shown → ItemsShown rest items → ItemsShown (child :: rest) (shown :: items)

inductive MembersShown : List Node → List (List Char × Json) → Prop where
  | nil : MembersShown [] []
  | cons {child : Node} {rest : List Node} {key : List Char} {shown : Json}
      {members : List (List Char × Json)} : KeyShown child.label key → NodeShown child shown →
      MembersShown rest members → MembersShown (child :: rest) ((key, shown) :: members)

end

theorem mem_classNames (tagClass : TagClass) : (tagClass, tagClass.text) ∈ classNames := by
  cases tagClass <;> decide

theorem toList_text (tag : Tag) : tag.text.toList =
    '[' :: tag.tagClass.text.toList ++ ' ' :: Nat.toDigits 10 tag.number ++ [']'] := by
  simp [Tag.text, Tag.Key.text, Tag.key, Nat.toList_repr]

theorem keyShown_key (label : Label) : KeyShown label (key label) := by
  rw [key]
  cases named : label.name with
  | some name => exact .named named
  | none =>
      cases tagged : label.tag with
      | some tag =>
          dsimp only
          rw [toList_text]
          exact .tagged named tagged (mem_classNames tag.tagClass)
      | none => exact .bare named tagged

mutual

theorem nodeShown_node : ∀ node : Node, NodeShown node (Line.node node)
  | .leaf label content => .leaf (contentShown_contentJson? _ content)
  | .branch label children => by
      rw [Line.node]
      by_cases collection : label.type = some .sequenceOf ∨ label.type = some .setOf
      · rw [if_pos (by simpa [isList] using collection)]
        exact .collection collection (itemsShown_items children)
      · rw [if_neg (by simpa [isList] using collection)]
        rw [not_or] at collection
        exact .other collection.1 collection.2 (membersShown_members children)

theorem itemsShown_items : ∀ nodes : List Node, ItemsShown nodes (items nodes)
  | [] => .nil
  | child :: rest => .cons (nodeShown_node child) (itemsShown_items rest)

theorem membersShown_members : ∀ nodes : List Node, MembersShown nodes (members nodes)
  | [] => .nil
  | child :: rest =>
      .cons (keyShown_key child.label) (nodeShown_node child) (membersShown_members rest)

end

/-! ## Lines -/

inductive FieldsShown (index offset : Nat) (fields : List Field) (issues : List Issue) :
    Json → Prop where
  | line {shown : List Json} {trailer : List (List Char × Json)} :
      List.Forall₂ FieldShown fields shown → IssuesShown issues trailer →
      FieldsShown index offset fields issues (.object ([("record".toList, .integer index),
        ("offset".toList, .integer offset), ("fields".toList, .array shown)] ++ trailer))

inductive TreeShown (index offset : Nat) (root : Node) (issues : List Issue) : Json → Prop where
  | line {key : List Char} {shown : Json} {trailer : List (List Char × Json)} :
      KeyShown root.label key → NodeShown root shown → IssuesShown issues trailer →
      TreeShown index offset root issues (.object ([("record".toList, .integer index),
        ("offset".toList, .integer offset), ("tree".toList, .object [(key, shown)])] ++ trailer))

/-- The line has no byte below a space, and it is a text of one value only, which shows what is
asked of it. -/
def Says (line : String) (shows : Json → Prop) : Prop :=
  (∀ byte ∈ line.toUTF8.toList, 0x20 ≤ byte.toNat) ∧
    ∃ value, shows value ∧ ∀ other, Json.IsText line.toList other ↔ other = value

theorem says_render {value : Json} {shows : Json → Prop} (shown : shows value) :
    Says value.render shows := by
  refine ⟨Json.shown_toUTF8 (Json.shown_characters value), value, shown, fun other => ?_⟩
  rw [Json.render, String.toList_ofList]
  exact Json.isText_characters_iff

/-- Of any fields or tree, the line of a record is one JSON text on one line, and it shows the
record's place, its fields or its tree and its issues. -/
theorem says_fields_and_tree (index offset : Nat) (fields : List Field) (root : Node)
    (issues : List Issue) :
    Says (ofFields index offset fields issues).render (FieldsShown index offset fields issues) ∧
      Says (ofTree index offset root issues).render (TreeShown index offset root issues) := by
  have each : List.Forall₂ FieldShown fields (fields.map field) := by
    induction fields with
    | nil => exact .nil
    | cons first rest ih => exact .cons (fieldShown_field first) ih
  exact ⟨says_render (.line each (issuesShown_issueMembers issues)),
    says_render (.line (keyShown_key _) (nodeShown_node root) (issuesShown_issueMembers issues))⟩

end Line

end BerRecords
