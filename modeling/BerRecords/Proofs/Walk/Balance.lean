import BerRecords.Proofs.Walk.Script

/-!
# Scripts that nest

An element that is entered is left later, and what is told of it in between is told while it
is the innermost of those entered. A script of one record is one such nesting; what is told
up to some moment is the beginning of one.
-/

set_option autoImplicit false

namespace BerRecords

structure Entered where
  definition : Definition
  header : Header

namespace Entered

def enter (entry : Entered) : Telling :=
  .event (.enter entry.definition entry.header)

def path : List Entered → String
  | [] => ""
  | entry :: outer => Walk.extendPath (path outer) entry.definition.name

end Entered

namespace Telling

variable {entry : Entered} {entries outer : List Entered} {telling : Telling}
  {script inside front back : List Telling}

/-- What may be told while these elements are entered, the innermost first. A field belongs to
the innermost, and a missing component is one of its components. -/
inductive Fits : List Entered → Telling → Prop where
  | issue {entry : Entered} {outer : List Entered} (issue : Issue) : Fits (entry :: outer) (.issue issue)
  | field {entry : Entered} {outer : List Entered} (value : Option Octets) :
      Fits (entry :: outer) (.event (.field
        ⟨Entered.path (entry :: outer), value, entry.definition.type, entry.header.offset⟩))
  | missing {entry : Entered} {outer : List Entered} {components : List Definition}
      {component : Definition} : entry.definition.components? = some components →
      component ∈ components → component.isOptional = false →
      Fits (entry :: outer) (.event (.missing component
        (Walk.innerPath (Entered.path (entry :: outer)) component.name) entry.header.offset))

/-- What is told inside these elements: all that is entered there is left there. -/
inductive Body : List Entered → List Telling → Prop where
  | nil {entries : List Entered} : Body entries []
  | told {entries : List Entered} {telling : Telling} {rest : List Telling} : Fits entries telling →
      Body entries rest → Body entries (telling :: rest)
  | element {entries : List Entered} {entry : Entered} {inside rest : List Telling} :
      Body (entry :: entries) inside → Body entries rest →
      Body entries (entry.enter :: (inside ++ .event .leave :: rest))

def Nesting (script : List Telling) : Prop :=
  ∃ entry inside, Body [entry] inside ∧ script = entry.enter :: (inside ++ [.event .leave])

/-- The script can be continued to one that tells of one element. -/
def Begins (script : List Telling) : Prop :=
  ∃ whole, Nesting whole ∧ script <+: whole

theorem Nesting.begins (nesting : Nesting script) : Begins script :=
  ⟨script, nesting, List.prefix_refl script⟩

theorem Begins.earlier (begins : Begins script) (shorter : front <+: script) : Begins front := by
  obtain ⟨whole, nesting, longer⟩ := begins
  exact ⟨whole, nesting, shorter.trans longer⟩

theorem begins_nil : Begins [] := by
  let entry : Entered := ⟨.any ⟨"", none, false⟩ "", .shortest .sequence 0 0⟩
  exact ⟨_, ⟨entry, [], .nil, rfl⟩, List.nil_prefix⟩

theorem Body.append (first : Body entries front) (second : Body entries back) :
    Body entries (front ++ back) := by
  induction first with
  | nil => exact second
  | told fits _ ih => exact .told fits (ih second)
  | element inner _ _ ih =>
      rw [List.cons_append, List.append_assoc, List.cons_append]
      exact .element inner (ih second)

/-- What has been told while these elements are entered and not left. -/
inductive Spine : List Entered → List Telling → Prop where
  | nil : Spine [] []
  | enter {entry : Entered} {outer : List Entered} {script inside : List Telling} : Spine outer script →
      Body (entry :: outer) inside → Spine (entry :: outer) (script ++ entry.enter :: inside)

def Left : List Entered → List Telling → Prop
  | [], script => Nesting script
  | entries, script => Spine entries script

namespace Spine

theorem body (spine : Spine (entry :: outer) script) (body : Body (entry :: outer) inside) :
    Spine (entry :: outer) (script ++ inside) := by
  cases spine with
  | enter spine before =>
      rw [List.append_assoc, List.cons_append]
      exact .enter spine (before.append body)

theorem told (spine : Spine entries script) (fits : Fits entries telling) :
    Spine entries (script ++ [telling]) := by
  cases fits with
  | issue issue => exact spine.body (.told (.issue issue) .nil)
  | field value => exact spine.body (.told (.field value) .nil)
  | missing known member mandatory => exact spine.body (.told (.missing known member mandatory) .nil)

theorem entered (spine : Spine entries script) (entry : Entered) :
    Spine (entry :: entries) (script ++ [entry.enter]) :=
  .enter spine .nil

theorem leave (spine : Spine (entry :: outer) script) :
    Left outer (script ++ [.event .leave]) := by
  cases spine with
  | enter spine inner =>
      cases spine with
      | nil => exact ⟨entry, _, inner, rfl⟩
      | enter spine before =>
          have element : Body _ (entry.enter :: (_ ++ [.event .leave])) := .element inner .nil
          have told := Spine.enter spine (before.append element)
          simpa only [Left, List.append_assoc, List.cons_append] using told

theorem begins (spine : Spine entries script) : Begins script := by
  induction entries generalizing script with
  | nil =>
      cases spine
      exact begins_nil
  | cons entry outer ih =>
      have left := spine.leave
      have shorter : script <+: script ++ [.event .leave] := List.prefix_append _ _
      cases outer with
      | nil => exact (Nesting.begins left).earlier shorter
      | cons => exact (ih left).earlier shorter

end Spine

end Telling

end BerRecords
