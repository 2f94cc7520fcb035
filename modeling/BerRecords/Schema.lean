import BerRecords.Definition

/-!
# Schemas

A schema knows definitions by name, and which of them may stand at the top of a
stream. It is drafted step by step and checked once at the end.
-/

set_option autoImplicit false

namespace BerRecords

/-- Definitions by name, and those that may stand at the top of a stream. -/
structure Schema where
  types : List Definition
  roots : List Definition
  encoding : TagEncoding

structure Schema.Draft where
  types : List Definition
  roots : List Definition
  rootNames : List String
  encoding : TagEncoding

namespace Schema

def type? (schema : Schema) (name : String) : Option Definition :=
  schema.types.find? (·.name = name)

def root? (schema : Schema) (tag : Tag) : Option Definition :=
  Definition.claimAmong? tag schema.roots

namespace Draft

def empty (encoding : TagEncoding) : Draft :=
  ⟨[], [], [], encoding⟩

def define (definition : Definition) (draft : Draft) : Draft :=
  { draft with types := definition :: draft.types.filter (·.name ≠ definition.name) }

def root (definition : Definition) (draft : Draft) : Draft :=
  { draft.define definition with roots := draft.roots ++ [definition] }

def rootNamed (name : String) (draft : Draft) : Draft :=
  { draft with rootNames := draft.rootNames ++ [name] }

def allRoots (draft : Draft) : Except SchemaError (List Definition) := do
  let named ← draft.rootNames.mapM fun name =>
    match draft.types.find? (·.name = name) with
    | some definition => Except.ok definition
    | none => .error (.unknownRoot name)
  return draft.roots ++ named

def topLevel : String := "<top level>"

/-- Checks that every root can be selected and no two by one tag. -/
def checkRoots (seen : List (Tag.Key × Definition)) :
    List Definition → Except SchemaError Unit
  | [] => .ok ()
  | root :: rest => do
    let claims ← root.itemClaims
    if claims.isEmpty then throw (.missingTag root.name)
    let seen ← Definition.addClaims topLevel seen claims
    checkRoots seen rest

def build (draft : Draft) : Except SchemaError Schema := do
  let roots ← draft.allRoots
  checkRoots [] roots
  return ⟨draft.types, roots, draft.encoding⟩

end Draft

end Schema

end BerRecords
