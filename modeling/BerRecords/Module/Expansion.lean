import BerRecords.Module.Assignment
import BerRecords.Schema

/-!
# Expanding declarations

Every reference is replaced by the definition of what it names, under the name and
the tag of the place where it stands. A type that reaches itself through references
has no definition. Definitions found once are kept, so each declaration is expanded
only once.
-/

set_option autoImplicit false

namespace BerRecords.Module

/-- A computation that keeps the definitions found so far and may find an error in the
schema. -/
abbrev Expansion := StateT (List Definition) (Except SchemaError)

abbrev Naming (m : Type → Type) := String → String → m Definition

section

variable {m : Type → Type} [Monad m] [MonadExceptOf SchemaError m]

def ofChecked (checked : Except SchemaError Definition) : m Definition :=
  match checked with
  | .ok definition => return definition
  | .error error => throw error

def placed (tag : Option Tag) (optional : Bool) (definition : Definition) : Definition :=
  let definition := match tag with
    | some tag => definition.retagged tag
    | none => definition
  if optional then definition.asOptional else definition

mutual

/-- The definition of a type under a name. The element of a collection keeps the name
that it refers to, or takes the collection's name where it is written in place. -/
def expandType (naming : Naming m) (name : String) : TypeExpr → m Definition
  | .builtin type => return .ofScalar name type
  | .reference target => return (← naming target name).renamed name
  | .record grouping items => do
    ofChecked (Definition.ofComponents name grouping (← expandItems naming name items))
  | .collection grouping element => do
    let element ← match element with
      | .reference target => naming target name
      | _ => expandType naming name element
    return .ofElement name grouping element
  | .choice items => do
    ofChecked (Definition.ofAlternatives name (← expandItems naming name items))
  | .any definedBy => return .ofAny name definedBy

def expandItem (naming : Naming m) (parent : String) : Item → m (List Definition)
  | .componentsOf source => do
    match (← naming source parent).components? with
    | some components => return components
    | none => throw (.malformed (.noComponents source parent))
  | .component name tag type optional => do
    let definition ← match type with
      | .reference target => do pure <| (← naming target parent).renamed name
      | _ => expandType naming name type
    return [placed tag optional definition]

def expandItems (naming : Naming m) (parent : String) : List Item → m (List Definition)
  | [] => return []
  | item :: rest => do
    let definitions ← expandItem naming parent item
    return definitions ++ (← expandItems naming parent rest)

end

def expandDeclaration (naming : Naming m) (declaration : Declaration) : m Definition := do
  let definition ← expandType naming declaration.name declaration.type
  match declaration.tag with
  | some tag => return definition.retagged tag
  | none => return definition

end

/-- The definition of a name that no declaration gives: a built-in type, or none. -/
def undeclared (name source : String) : Except SchemaError Definition :=
  match DeclaredType.ofKeyword? name.toList with
  | some type => .ok (.ofScalar name type)
  | none => .error (.unknownType name source)

def unvisited (module : Module) (visiting : List String) : Nat :=
  module.declarations.countP fun declaration => !visiting.contains declaration.name

/-- A declared name that is not being expanded leaves fewer when it is. -/
theorem unvisited_cons_lt {module : Module} {visiting : List String} {name : String}
    {declaration : Declaration} (declared : module.find? name = some declaration)
    (fresh : ¬ visiting.contains name = true) :
    module.unvisited (name :: visiting) < module.unvisited visiting := by
  have named : declaration.name = name := by
    rw [find?] at declared
    simpa using List.find?_some declared
  obtain ⟨front, back, split⟩ := List.append_of_mem (List.mem_of_find?_eq_some declared)
  have fewer (part : List Declaration) :
      part.countP (fun declaration => !(name :: visiting).contains declaration.name) ≤
        part.countP fun declaration => !visiting.contains declaration.name := by
    refine List.countP_mono_left fun other _ => ?_
    simp only [List.contains_cons, Bool.not_or, Bool.and_eq_true]
    exact And.right
  have first := fewer front
  have last := fewer back
  simp only [unvisited, split, List.countP_append]
  rw [List.countP_cons_of_neg (by simp [named]),
    List.countP_cons_of_pos (by simpa [named] using fresh)]
  omega

/-- The definition of a name. `visiting` holds the names being expanded. -/
def expandName (module : Module) (visiting : List String) : Naming Expansion :=
  fun name source => do
    match (← get).find? (·.name = name) with
    | some definition => return definition
    | none =>
      match _declared : module.find? name with
      | none => ofChecked (undeclared name source)
      | some declaration =>
        if _visited : visiting.contains name then throw (.recursiveType name)
        else
          let definition ← expandDeclaration (expandName module (name :: visiting)) declaration
          modify (definition :: ·)
          return definition
termination_by module.unvisited visiting
decreasing_by exact unvisited_cons_lt _declared _visited

def rootSource : String := "<root>"

def expandRoots (module : Module) (draft : Schema.Draft) :
    List String → Expansion Schema.Draft
  | [] => return draft
  | root :: rest => do
    if (module.find? root).isNone then throw (.unknownRoot root)
    let definition ← expandName module [] root rootSource
    expandRoots module (draft.root definition) rest

def rootNames (module : Module) (roots : List String) : List String :=
  if roots.isEmpty then (module.declarations.head?.map (·.name)).toList else roots

def schema (module : Module) (roots : List String) (encoding : TagEncoding) :
    Except SchemaError Schema := do
  let roots := rootNames module roots
  if roots.isEmpty then throw (.malformed .noTypes)
  let (draft, found) ← (expandRoots module (.empty encoding) roots).run []
  let others := found.filter fun definition => !roots.contains definition.name
  (others.foldr Schema.Draft.define draft).build

def schemaOfText (text : String) (roots : List String) (encoding : TagEncoding) :
    Except SchemaError Schema := do
  let module ← (ofText text).mapError .malformed
  module.schema roots encoding

end BerRecords.Module
