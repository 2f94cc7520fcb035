import BerRecords.Proofs.Records.Nesting
import BerRecords.Proofs.Walk.Account
import BerRecords.Proofs.Walk.Balance

/-!
# Open elements as the schema has them

What signals leave open, and what a schema makes of each of these elements. It is told from
the signals and the schema alone; a walk that has accepted the signals has frames that show it.
-/

set_option autoImplicit false

namespace BerRecords

/-- An element that has started and has not ended, with the tags of those that have started in it. It
has no definition if it is unknown, of the wrong form or inside an element of any content. -/
structure Opened where
  header : Header
  definition : Option Definition
  inside : List Tag

namespace Opened

def child? (opened : Opened) (tag : Tag) : Option Definition :=
  match opened.definition with
  | none => none
  | some definition =>
    if definition.holds opened.header then
      (definition.accept (definition.acceptAll [] opened.inside) tag).map (·.definition)
    else none

/-- What the schema makes of an element that starts when these are open, the innermost
first. -/
def found? (schema : Schema) (tag : Tag) : List Opened → Option Definition
  | [] => schema.root? tag
  | parent :: _ => parent.child? tag

def counted (tag : Tag) : List Opened → List Opened
  | [] => []
  | parent :: outer => { parent with inside := parent.inside ++ [tag] } :: outer

def after (schema : Schema) (opened : List Opened) : Signal → List Opened
  | .start header => ⟨header, found? schema header.tag opened, []⟩ :: counted header.tag opened
  | .value _ => opened
  | .stop _ => opened.tail

/-- The elements that signals leave open, the innermost first. -/
def afterAll (schema : Schema) (signals : List Signal) : List Opened :=
  signals.foldl (after schema) []

def entry? (opened : Opened) : Option Entered :=
  opened.definition.map (⟨·, opened.header⟩)

def entries (opened : List Opened) : List Entered :=
  opened.filterMap entry?

variable {opened : Opened} {outer : List Opened} {definition : Definition} {tag : Tag}

theorem entries_cons (known : opened.definition = some definition) (outer : List Opened) :
    entries (opened :: outer) = ⟨definition, opened.header⟩ :: entries outer := by
  simp [entries, entry?, known]

theorem entries_bare (unknown : opened.definition = none) (outer : List Opened) :
    entries (opened :: outer) = entries outer := by
  simp [entries, entry?, unknown]

theorem entries_counted (tag : Tag) (opened : List Opened) :
    entries (counted tag opened) = entries opened := by
  cases opened with
  | nil => rfl
  | cons parent outer => rfl

theorem child?_of_unknown (unknown : opened.definition = none) : opened.child? tag = none := by
  rw [child?, unknown]

theorem child?_of_full (full : ∀ definition ∈ opened.definition,
    definition.holds opened.header = false) : opened.child? tag = none := by
  cases known : opened.definition with
  | none => exact child?_of_unknown known
  | some definition => simp [child?, known, full definition known]

theorem child?_of_holds (known : opened.definition = some definition)
    (holds : definition.holds opened.header = true) : opened.child? tag =
      (definition.accept (definition.acceptAll [] opened.inside) tag).map (·.definition) := by
  simp [child?, known, holds]

end Opened

namespace Definition

/-- A further tag is accepted or not after those before it. -/
theorem acceptAll_snoc (definition : Definition) (selected : List Selection) (tags : List Tag)
    (tag : Tag) :
    definition.acceptAll selected (tags ++ [tag]) =
      definition.acceptAll selected tags ++
        (definition.accept (definition.acceptAll selected tags) tag).toList := by
  induction tags generalizing selected with
  | nil => rfl
  | cons first rest ih => exact ih _

end Definition

namespace Walk

open Opened (entries)

/-- The frame of an open element, with `outer` around it. Where other elements can be looked
up in it, it has counted those that were. -/
structure Frame.Shows (outer : List Opened) (opened : Opened) (frame : Frame) : Prop where
  header_eq : frame.header = opened.header
  definition_eq : frame.definition = opened.definition
  outerPath_eq : frame.outerPath = Entered.path (entries outer)
  following : ∀ definition ∈ opened.definition, definition.holds opened.header = true →
    frame = .following definition opened.header (definition.acceptAll [] opened.inside)
      frame.outerPath

inductive Stands : List Opened → List Frame → Prop where
  | nil : Stands [] []
  | cons {opened : Opened} {outer : List Opened} {frame : Frame} {frames : List Frame} :
      Stands outer frames → frame.Shows outer opened → Stands (opened :: outer) (frame :: frames)

variable {opened : Opened} {outer : List Opened} {all : List Opened} {frame : Frame}
  {frames : List Frame} {definition : Definition}

/-- In a frame that is not followed, or that can hold no others, nothing is looked up. -/
theorem Frame.Shows.full (shows : frame.Shows outer opened)
    (unattended : frame.mode ≠ .followed ∨
      ∀ definition ∈ frame.definition, definition.holds frame.header = false) :
    ∀ definition ∈ opened.definition, definition.holds opened.header = false := by
  intro definition known
  rcases unattended with unfollowed | full
  · cases holds : definition.holds opened.header with
    | false => rfl
    | true =>
        rw [shows.following definition known holds] at unfollowed
        exact absurd rfl unfollowed
  · have full' := full definition (shows.definition_eq.trans known)
    rwa [shows.header_eq] at full'

/-- That a further element has started in it does not change a frame in which nothing is
looked up. -/
theorem Frame.Shows.uncounted (shows : frame.Shows outer opened)
    (full : ∀ definition ∈ opened.definition, definition.holds opened.header = false) (tag : Tag) :
    frame.Shows outer { opened with inside := opened.inside ++ [tag] } where
  header_eq := shows.header_eq
  definition_eq := shows.definition_eq
  outerPath_eq := shows.outerPath_eq
  following definition known holds := by
    have empty := full definition known
    dsimp only at holds
    rw [empty] at holds
    cases holds

/-- A further tag is counted in the frame of an element in which it was looked up. -/
theorem Frame.Shows.counted (shows : frame.Shows outer opened)
    (known : opened.definition = some definition) (tag : Tag) :
    (Frame.following definition opened.header
      (definition.acceptAll [] opened.inside ++
        (definition.accept (definition.acceptAll [] opened.inside) tag).toList)
      frame.outerPath).Shows outer { opened with inside := opened.inside ++ [tag] } where
  header_eq := rfl
  definition_eq := known.symm
  outerPath_eq := shows.outerPath_eq
  following other known' _ := by
    cases known.symm.trans known'
    rw [Definition.acceptAll_snoc]
    rfl

theorem Stands.uncounted (stands : Stands (opened :: outer) frames)
    (full : ∀ definition ∈ opened.definition, definition.holds opened.header = false) (tag : Tag) :
    Stands (Opened.counted tag (opened :: outer)) frames := by
  cases stands with
  | cons stands shows => exact .cons stands (shows.uncounted full tag)

end Walk

end BerRecords
