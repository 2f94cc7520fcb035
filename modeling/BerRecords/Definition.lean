import BerRecords.DeclaredType
import BerRecords.SchemaError

/-!
# Definitions

A definition says what one element may hold: a scalar, a record of components, a
collection of like elements, one of several alternatives, or anything at all.
Its tag is what selects it inside its parent. A definition without a tag is
selected by what it holds: an untagged choice by the tags of its alternatives.
-/

set_option autoImplicit false

namespace BerRecords

/-- Whether the parts of an element are a sequence or a set. Both are read alike. -/
inductive Grouping where
  | sequence
  | set
  deriving DecidableEq, Repr

namespace Grouping

def tag : Grouping → Tag
  | sequence => .sequence
  | set => .set

def recordType : Grouping → DeclaredType
  | sequence => .sequence
  | set => .set

def collectionType : Grouping → DeclaredType
  | sequence => .sequenceOf
  | set => .setOf

end Grouping

structure Head where
  name : String
  tag : Option Tag
  optional : Bool
  deriving DecidableEq, Repr

inductive Definition where
  | scalar (head : Head) (type : DeclaredType)
  | record (head : Head) (grouping : Grouping) (components : List Definition)
  | collection (head : Head) (grouping : Grouping) (element : Definition)
  | choice (head : Head) (alternatives : List Definition)
  | any (head : Head) (definedBy : String)

namespace Definition

def head : Definition → Head
  | scalar head _ | record head _ _ | collection head _ _ | choice head _ | any head _ => head

def withHead (head : Head) : Definition → Definition
  | scalar _ type => scalar head type
  | record _ grouping components => record head grouping components
  | collection _ grouping element => collection head grouping element
  | choice _ alternatives => choice head alternatives
  | any _ definedBy => any head definedBy

def name (definition : Definition) : String :=
  definition.head.name

def tag? (definition : Definition) : Option Tag :=
  definition.head.tag

def isOptional (definition : Definition) : Bool :=
  definition.head.optional

def type : Definition → DeclaredType
  | scalar _ type => type
  | record _ grouping _ => grouping.recordType
  | collection _ grouping _ => grouping.collectionType
  | choice .. => .choice
  | any .. => .any

/-- Whether the element must be built of others; none where either form will do. -/
def constructed? : Definition → Option Bool
  | scalar .. => some false
  | any .. => none
  | _ => some true

def isAny : Definition → Bool
  | any .. => true
  | _ => false

theorem constructed?_eq_none_iff {definition : Definition} :
    definition.constructed? = none ↔ definition.isAny = true := by
  cases definition with
  | any => exact ⟨fun _ => rfl, fun _ => rfl⟩
  | scalar | record | collection | choice => exact ⟨nofun, nofun⟩

/-- What may be built of others, and is not of any content, must be. -/
theorem constructed?_of_isAny_eq_false {definition : Definition}
    (fits : definition.constructed? ≠ some false) (unlike : definition.isAny = false) :
    definition.constructed? = some true := by
  cases definition with
  | scalar => exact absurd rfl fits
  | any => cases unlike
  | record | collection | choice => rfl

theorem type_of_isAny {definition : Definition} (any : definition.isAny = true) :
    definition.type = .any := by
  cases definition with
  | any => rfl
  | scalar | record | collection | choice => cases any

def isChoice : Definition → Bool
  | choice .. => true
  | _ => false

def components? : Definition → Option (List Definition)
  | record _ _ components => some components
  | _ => none

def renamed (name : String) (definition : Definition) : Definition :=
  definition.withHead { definition.head with name := name }

def asOptional (definition : Definition) : Definition :=
  definition.withHead { definition.head with optional := true }

/-- The same definition under another tag. The constructed bit follows what the
definition holds; only where any content will do is it kept. -/
def retagged (tag : Tag) (definition : Definition) : Definition :=
  let constructed := definition.constructed?.getD tag.constructed
  definition.withHead { definition.head with tag := some { tag with constructed := constructed } }

mutual

/-- The keys by which a definition is selected inside its parent, each with the
definition that it selects. A definition that has a tag is selected by it alone. -/
def claims : Definition → List (Tag.Key × Definition)
  | definition@(choice head alternatives) =>
    match head.tag with
    | some tag => [(tag.key, definition)]
    | none => claimsAll alternatives
  | definition =>
    match definition.head.tag with
    | some tag => [(tag.key, definition)]
    | none => []

def claimsAll : List Definition → List (Tag.Key × Definition)
  | [] => []
  | definition :: rest => claims definition ++ claimsAll rest

end

mutual

/-- The definition that a tag selects from this one: itself, or an alternative if it is
an untagged choice. -/
def claim? (tag : Tag) : Definition → Option Definition
  | definition@(choice head alternatives) =>
    match head.tag with
    | some own => if own.selects tag then some definition else none
    | none => claimAmong? tag alternatives
  | definition =>
    match definition.head.tag with
    | some own => if own.selects tag then some definition else none
    | none => none

def claimAmong? (tag : Tag) : List Definition → Option Definition
  | [] => none
  | definition :: rest =>
    match claim? tag definition with
    | some found => some found
    | none => claimAmong? tag rest

end

/-- The definition that a tag selects inside its parent, and for a record the place of
the component that it belongs to. -/
structure Selection where
  place : Option Nat
  definition : Definition

def claimingComponent? (tag : Tag) (place : Nat) : List Definition → Option Selection
  | [] => none
  | component :: rest =>
    match component.claim? tag with
    | some found => some ⟨some place, found⟩
    | none => claimingComponent? tag (place + 1) rest

def anyComponent? (place : Nat) : List Definition → Option Selection
  | [] => none
  | component :: rest =>
    if component.isAny then some ⟨some place, component⟩ else anyComponent? (place + 1) rest

/-- What a tag selects inside a definition. A component of any content takes what no
other component claims. -/
def select (tag : Tag) : Definition → Except SchemaError (Option Selection)
  | record _ _ components =>
    .ok <| (claimingComponent? tag 0 components).or (anyComponent? 0 components)
  | collection _ _ element =>
    .ok <| ((element.claim? tag).or (if element.isAny then some element else none)).map (⟨none, ·⟩)
  | choice _ alternatives => .ok <| (claimAmong? tag alternatives).map (⟨none, ·⟩)
  | definition@(scalar ..) | definition@(any ..) => .error (.notConstructed definition.name)

def child? (tag : Tag) (definition : Definition) : Except SchemaError (Option Definition) :=
  (definition.select tag).map (·.map (·.definition))

/-- The keys of an item of a record or choice, which every item must have unless it
holds alternatives or any content. -/
def itemClaims (item : Definition) : Except SchemaError (List (Tag.Key × Definition)) :=
  match item.tag?, item with
  | none, choice .. | none, any .. | some _, _ => .ok item.claims
  | none, _ => .error (.missingTag item.name)

def addClaims (parent : String) (seen : List (Tag.Key × Definition)) :
    List (Tag.Key × Definition) → Except SchemaError (List (Tag.Key × Definition))
  | [] => .ok seen
  | (key, definition) :: rest =>
    match seen.find? (·.1 = key) with
    | some (_, first) => .error (.duplicateTag parent key first.name definition.name)
    | none => addClaims parent ((key, definition) :: seen) rest

def checkItems (parent : String) (seen : List (Tag.Key × Definition)) :
    List Definition → Except SchemaError Unit
  | [] => .ok ()
  | item :: rest => do
    let seen ← addClaims parent seen (← item.itemClaims)
    checkItems parent seen rest

def ofScalar (name : String) (type : DeclaredType) : Definition :=
  scalar ⟨name, type.universalTag?, false⟩ type

def ofComponents (name : String) (grouping : Grouping) (components : List Definition) :
    Except SchemaError Definition := do
  checkItems name [] components
  return record ⟨name, some grouping.tag, false⟩ grouping components

def ofElement (name : String) (grouping : Grouping) (element : Definition) : Definition :=
  collection ⟨name, some grouping.tag, false⟩ grouping element

def ofAlternatives (name : String) (alternatives : List Definition) :
    Except SchemaError Definition := do
  checkItems name [] alternatives
  return choice ⟨name, none, false⟩ alternatives

def ofAny (name definedBy : String) : Definition :=
  any ⟨name, none, false⟩ definedBy

end Definition

end BerRecords
