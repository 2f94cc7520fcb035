import BerRecords.Definition

/-!
# Type expressions

What the text of a module says: names with the types assigned to them, still
referring to one another by name.
-/

set_option autoImplicit false

namespace BerRecords.Module

mutual

/-- A type as it is written. Any content has an empty name where no component tells its type. -/
inductive TypeExpr where
  | builtin (type : DeclaredType)
  | reference (name : String)
  | record (grouping : Grouping) (items : List Item)
  | collection (grouping : Grouping) (element : TypeExpr)
  | choice (items : List Item)
  | any (definedBy : String)

inductive Item where
  | component (name : String) (tag : Option Tag) (type : TypeExpr) (optional : Bool)
  | componentsOf (source : String)

end

structure Declaration where
  name : String
  tag : Option Tag
  type : TypeExpr

end BerRecords.Module

namespace BerRecords

/-- Declarations of distinct names, in the order in which the names first appear. -/
structure Module where
  declarations : List Module.Declaration

namespace Module

def insertInto (declaration : Declaration) : List Declaration → List Declaration
  | [] => [declaration]
  | first :: rest =>
    if first.name = declaration.name then declaration :: rest
    else first :: insertInto declaration rest

def insert (declaration : Declaration) (module : Module) : Module :=
  ⟨insertInto declaration module.declarations⟩

def find? (module : Module) (name : String) : Option Declaration :=
  module.declarations.find? (·.name = name)

end Module

end BerRecords
