import BerRecords.Definition
import Mathlib.Data.List.Defs

/-!
# The shape of a definition

What is left of a definition when its tags are taken away. It says what an element of the
definition is called, what it may hold and what must not be missing, but not how the parts of it
are told apart.
-/

set_option autoImplicit false

namespace BerRecords

def Head.untagged (head : Head) : Head :=
  { head with tag := none }

namespace Definition

mutual

/-- The definition without its tags, and without the name of the component that tells the type of
any content. -/
def shape : Definition → Definition
  | scalar head type => scalar head.untagged type
  | record head grouping components =>
    record head.untagged grouping (shapeAll components)
  | collection head grouping element =>
    collection head.untagged grouping (shape element)
  | choice head alternatives => choice head.untagged (shapeAll alternatives)
  | any head _ => any head.untagged ""

def shapeAll : List Definition → List Definition
  | [] => []
  | definition :: rest => shape definition :: shapeAll rest

end

def SameShape (definition definition' : Definition) : Prop :=
  definition.shape = definition'.shape

variable {definition definition' : Definition}

section

variable (definition : Definition)

@[simp] theorem name_shape : definition.shape.name = definition.name := by
  cases definition <;> rfl

@[simp] theorem isOptional_shape : definition.shape.isOptional = definition.isOptional := by
  cases definition <;> rfl

@[simp] theorem type_shape : definition.shape.type = definition.type := by
  cases definition <;> rfl

@[simp] theorem constructed?_shape :
    definition.shape.constructed? = definition.constructed? := by
  cases definition <;> rfl

@[simp] theorem isAny_shape : definition.shape.isAny = definition.isAny := by
  cases definition <;> rfl

@[simp] theorem isChoice_shape : definition.shape.isChoice = definition.isChoice := by
  cases definition <;> rfl

@[simp] theorem components?_shape :
    definition.shape.components?.getD [] = shapeAll (definition.components?.getD []) := by
  cases definition <;> rfl

end

namespace SameShape

theorem name_eq (same : SameShape definition definition') : definition.name = definition'.name := by
  simpa using congrArg name same

theorem isOptional_eq (same : SameShape definition definition') :
    definition.isOptional = definition'.isOptional := by
  simpa using congrArg isOptional same

theorem type_eq (same : SameShape definition definition') : definition.type = definition'.type := by
  simpa using congrArg type same

theorem constructed?_eq (same : SameShape definition definition') :
    definition.constructed? = definition'.constructed? := by
  simpa using congrArg constructed? same

theorem isAny_eq (same : SameShape definition definition') :
    definition.isAny = definition'.isAny := by
  simpa using congrArg isAny same

theorem isChoice_eq (same : SameShape definition definition') :
    definition.isChoice = definition'.isChoice := by
  simpa using congrArg isChoice same

/-- The components of definitions of one shape are of one shape, each and in order. -/
theorem components (same : SameShape definition definition') :
    List.Forall₂ SameShape (definition.components?.getD []) (definition'.components?.getD []) := by
  have parts := congrArg (fun definition => definition.components?.getD []) same
  simp only [components?_shape] at parts
  generalize definition.components?.getD [] = items at parts ⊢
  generalize definition'.components?.getD [] = items' at parts ⊢
  induction items generalizing items' with
  | nil =>
      cases items' with
      | nil => exact .nil
      | cons => cases parts
  | cons item rest ih =>
      cases items' with
      | nil => cases parts
      | cons item' rest' =>
          simp only [shapeAll, List.cons.injEq] at parts
          exact .cons parts.1 (ih rest' parts.2)

end SameShape

end Definition

end BerRecords
