import BerRecords.Module.Expansion
import BerRecords.Proofs.Definition.Check
import Mathlib.Logic.Relation

/-!
# What a name stands for

The definition that a declaration has if every reference in it is replaced by the definition of what
it names, told without a table of the definitions that are known and without a list of the names
that are being expanded. A name has at most one such definition, and none if it leads to a type that
reaches itself.
-/

set_option autoImplicit false

namespace BerRecords.Module

/-! ## References -/

mutual

def TypeExpr.references : TypeExpr → List String
  | .builtin _ | .any _ => []
  | .reference name => [name]
  | .record _ items | .choice items => referencesAll items
  | .collection _ element => element.references

def Item.references : Item → List String
  | .component _ _ type _ => type.references
  | .componentsOf source => [source]

def referencesAll : List Item → List String
  | [] => []
  | item :: rest => item.references ++ referencesAll rest

end

/-- The declaration of the first name refers to the second. -/
def Refers (module : Module) (name target : String) : Prop :=
  ∃ declaration, module.find? name = some declaration ∧ target ∈ declaration.type.references

def Reaches (module : Module) : String → String → Prop :=
  Relation.ReflTransGen module.Refers

def Loops (module : Module) (name : String) : Prop :=
  Relation.TransGen module.Refers name name

/-! ## Expansion -/

mutual

/-- The name stands for the definition: that of its declaration under the tag of the declaration, or
a built-in type. -/
inductive Expands (module : Module) : String → Definition → Prop where
  | declared {name : String} {declaration : Declaration} {definition : Definition} :
      module.find? name = some declaration →
      ExpandsType module name declaration.type definition →
      Expands module name (placed declaration.tag false definition)
  | builtin {name : String} {type : DeclaredType} :
      module.find? name = none → DeclaredType.ofKeyword? name.toList = some type →
      Expands module name (.ofScalar name type)

/-- The type under a name stands for the definition. What a reference names takes the name of the
place where the reference stands; only the element of a collection keeps its own. -/
inductive ExpandsType (module : Module) : String → TypeExpr → Definition → Prop where
  | builtin {name : String} {type : DeclaredType} :
      ExpandsType module name (.builtin type) (.ofScalar name type)
  | reference {name target : String} {definition : Definition} :
      Expands module target definition →
      ExpandsType module name (.reference target) (definition.renamed name)
  | record {name : String} {grouping : Grouping} {items : List Item}
      {components : List Definition} {definition : Definition} :
      ExpandsItems module items components →
      Definition.ofComponents name grouping components = .ok definition →
      ExpandsType module name (.record grouping items) definition
  | collectionOf {name target : String} {grouping : Grouping} {element : Definition} :
      Expands module target element →
      ExpandsType module name (.collection grouping (.reference target))
        (.ofElement name grouping element)
  | collection {name : String} {grouping : Grouping} {type : TypeExpr} {element : Definition} :
      (∀ target, type ≠ .reference target) → ExpandsType module name type element →
      ExpandsType module name (.collection grouping type) (.ofElement name grouping element)
  | choice {name : String} {items : List Item} {alternatives : List Definition}
      {definition : Definition} :
      ExpandsItems module items alternatives →
      Definition.ofAlternatives name alternatives = .ok definition →
      ExpandsType module name (.choice items) definition
  | any {name definedBy : String} :
      ExpandsType module name (.any definedBy) (.ofAny name definedBy)

/-- The items stand for the definitions. Tag and optionality of a component are those of the place
where it stands, on a copy of what its type stands for. -/
inductive ExpandsItems (module : Module) : List Item → List Definition → Prop where
  | nil : ExpandsItems module [] []
  | component {name : String} {tag : Option Tag} {type : TypeExpr} {optional : Bool}
      {rest : List Item} {definition : Definition} {definitions : List Definition} :
      ExpandsType module name type definition → ExpandsItems module rest definitions →
      ExpandsItems module (.component name tag type optional :: rest)
        (placed tag optional definition :: definitions)
  | componentsOf {source : String} {rest : List Item} {definition : Definition}
      {components definitions : List Definition} :
      Expands module source definition → definition.components? = some components →
      ExpandsItems module rest definitions →
      ExpandsItems module (.componentsOf source :: rest) (components ++ definitions)

end

variable {module : Module}

/-! ## Names -/

theorem name_placed (tag : Option Tag) (optional : Bool) (definition : Definition) :
    (placed tag optional definition).name = definition.name := by
  cases definition <;> cases tag <;> cases optional <;> rfl

theorem ExpandsType.name_eq {name : String} {type : TypeExpr} {definition : Definition}
    (expands : ExpandsType module name type definition) : definition.name = name := by
  cases expands with
  | builtin | collectionOf | collection | any => rfl
  | @reference _ _ definition => cases definition <;> rfl
  | record _ checked =>
      rw [Definition.eq_of_ofComponents checked]
      rfl
  | choice _ checked =>
      rw [(Definition.eq_of_ofAlternatives checked).1]
      rfl

theorem Expands.name_eq {name : String} {definition : Definition}
    (expands : Expands module name definition) : definition.name = name := by
  cases expands with
  | declared _ type => rw [name_placed, type.name_eq]
  | builtin => rfl

/-! ## At most one definition -/

mutual

theorem Expands.unique {name : String} {definition other : Definition} :
    Expands module name definition → Expands module name other → definition = other
  | .declared found type, .declared found' type' => by
      cases found.symm.trans found'
      rw [type.unique type']
  | .declared found _, .builtin missing _ => by cases found.symm.trans missing
  | .builtin missing _, .declared found _ => by cases found.symm.trans missing
  | .builtin _ named, .builtin _ named' => by
      cases named.symm.trans named'
      rfl

theorem ExpandsType.unique {name : String} {type : TypeExpr} {definition other : Definition} :
    ExpandsType module name type definition → ExpandsType module name type other →
      definition = other
  | .builtin, .builtin => rfl
  | .reference target, .reference target' => by rw [target.unique target']
  | .record items checked, .record items' checked' => by
      cases items.unique items'
      exact Except.ok.inj (checked.symm.trans checked')
  | .collectionOf target, .collectionOf target' => by rw [target.unique target']
  | .collectionOf _, .collection inPlace _ => absurd rfl (inPlace _)
  | .collection inPlace _, .collectionOf _ => absurd rfl (inPlace _)
  | .collection _ element, .collection _ element' => by rw [element.unique element']
  | .choice items checked, .choice items' checked' => by
      cases items.unique items'
      exact Except.ok.inj (checked.symm.trans checked')
  | .any, .any => rfl

theorem ExpandsItems.unique {items : List Item} {definitions others : List Definition} :
    ExpandsItems module items definitions → ExpandsItems module items others →
      definitions = others
  | .nil, .nil => rfl
  | .component type rest, .component type' rest' => by
      rw [type.unique type', rest.unique rest']
  | .componentsOf source found rest, .componentsOf source' found' rest' => by
      cases source.unique source'
      cases found.symm.trans found'
      rw [rest.unique rest']

end

/-! ## No loops -/

mutual

/-- What stands for a definition can be followed from reference to reference only so far. -/
theorem Expands.acc {name : String} {definition : Definition} :
    Expands module name definition → Acc (fun target name => module.Refers name target) name
  | .declared found type => .intro _ fun target ⟨declaration, found', member⟩ => by
      cases found.symm.trans found'
      exact type.acc target member
  | .builtin missing _ => .intro _ fun target ⟨declaration, found, _⟩ => by
      cases missing.symm.trans found

theorem ExpandsType.acc {name : String} {type : TypeExpr} {definition : Definition} :
    ExpandsType module name type definition →
      ∀ target ∈ type.references, Acc (fun target name => module.Refers name target) target
  | .builtin, target, member => by cases member
  | .reference expands, target, member => by
      rw [TypeExpr.references, List.mem_singleton] at member
      exact member ▸ expands.acc
  | .record items _, target, member => items.acc target (by rwa [TypeExpr.references] at member)
  | .collectionOf expands, target, member => by
      rw [TypeExpr.references, TypeExpr.references, List.mem_singleton] at member
      exact member ▸ expands.acc
  | .collection _ element, target, member =>
      element.acc target (by rwa [TypeExpr.references] at member)
  | .choice items _, target, member => items.acc target (by rwa [TypeExpr.references] at member)
  | .any, target, member => by cases member

theorem ExpandsItems.acc {items : List Item} {definitions : List Definition} :
    ExpandsItems module items definitions →
      ∀ target ∈ referencesAll items, Acc (fun target name => module.Refers name target) target
  | .nil, target, member => by cases member
  | .component type rest, target, member => by
      rw [referencesAll, List.mem_append, Item.references] at member
      exact member.elim (type.acc target) (rest.acc target)
  | .componentsOf expands _ rest, target, member => by
      rw [referencesAll, List.mem_append, Item.references, List.mem_singleton] at member
      exact member.elim (fun here => here ▸ expands.acc) (rest.acc target)

end

/-- A name that leads to a loop stands for nothing. -/
theorem not_expands_of_loops {name target : String} {definition : Definition}
    (reaches : module.Reaches name target) (loops : module.Loops target) :
    ¬ Expands module name definition := by
  intro expands
  have astray : ∀ origin, Acc (fun target name => module.Refers name target) origin →
      ¬ Relation.TransGen module.Refers origin origin := by
    intro origin acc
    induction acc with
    | intro origin _ ih =>
        intro around
        obtain ⟨next, first, back⟩ := Relation.TransGen.head'_iff.1 around
        exact ih next first (Relation.TransGen.tail' back first)
  have descends : ∀ reached, module.Reaches name reached →
      Acc (fun target name => module.Refers name target) reached := by
    intro reached along
    induction along with
    | refl => exact expands.acc
    | tail _ refers ih => exact ih.inv refers
  exact astray target (descends target reaches) loops

end BerRecords.Module
