import BerRecords.Proofs.Walk.Led
import BerRecords.Proofs.Walk.Opened

/-!
# Where a walk stands when it writes down what it tells

As long as a reader leads a walk, its frames show the open elements, its path has their names
and what it has told enters exactly these. Where it fails, what it has told is the beginning of
a nesting, and the error is not one of the reader.
-/

set_option autoImplicit false

namespace BerRecords

namespace Walk

open Attempt (Ends)
open Telling (Fits Spine Left Begins Nesting writer)
open Opened (entries)

/-- The walk fails with an error of its own, and what it has told is a beginning. -/
def Halts (error : DecodeError) (walk : Walk (List Telling)) : Prop :=
  error.isStructural = false ∧ Begins walk.sink

/-- The walk stands where these elements are open, and has told something of them. -/
structure Standing (said : List Entered → List Telling → Prop) (opened : List Opened)
    (walk : Walk (List Telling)) : Prop where
  stands : Stands opened walk.frames
  path_eq : walk.path = Entered.path (entries opened)
  said : said (entries opened) walk.sink

variable {rules : Rules} {opened : List Opened} {frames : List Frame} {path : String}
  {capture : Option Capture} {script : List Telling} {entry : Entered} {outer : List Entered}
  {definition : Definition} {header : Header}

theorem writer_nests : writer.Nests fun _ _ _ => True where
  enter _ _ _ _ := .ok trivial
  field _ _ := .ok trivial
  missing _ _ _ _ := .ok trivial
  leave _ _ := .ok trivial
  note _ _ := trivial

def Speaks (entries : List Entered) (walk after : Walk (List Telling)) : Prop :=
  ∃ script, Spine entries script ∧ after = { walk with sink := script }

/-- No child is found, and nothing has happened. -/
theorem resolve_error {σ : Type} {sink : Sink σ} {walk after : Walk σ} {error : DecodeError}
    (failed : (resolve rules sink header).on walk = (.error error, after)) :
    error.isStructural = false ∧ after = walk := by
  have left_out (name : String) (mismatch : Mismatch)
      (failed : (leaveOut rules sink name mismatch).on walk = (.error error, after)) :
      error.isStructural = false ∧ after = walk := by
    rw [leaveOut] at failed
    split at failed
    · cases failed
    · cases failed
      exact ⟨rfl, rfl⟩
  rw [resolve, Attempt.on_bind, Attempt.on_get] at failed
  dsimp only at failed
  split at failed
  · rw [resolveChild, Attempt.on_bind, Attempt.on_get] at failed
    dsimp only at failed
    split at failed
    · split at failed
      · cases failed
        exact ⟨rfl, rfl⟩
      · split at failed
        · cases failed
          exact ⟨rfl, rfl⟩
        · exact left_out _ _ failed
        · split at failed
          · exact left_out _ _ failed
          · cases failed
    · cases failed
      exact ⟨rfl, rfl⟩
  · split at failed
    · cases failed
    · cases failed
      exact ⟨rfl, rfl⟩

theorem spine_leftOut (spine : Spine (entry :: outer) script) (path : String)
    (definition : Definition) (header : Header) :
    Spine (entry :: outer) (script ++ Account.leftOut path definition header) := by
  obtain ⟨issue, -, -, told⟩ := Account.leftOut_eq path definition header
  rw [told]
  exact spine.told (.issue issue)

/-- A child finds what the schema makes of it, and is counted. -/
theorem ends_resolve (standing : Standing Spine opened ⟨frames, path, none, script⟩)
    (trunk : Trunk frames) (header : Header) :
    Ends Halts (fun found after => found = Opened.found? rules.schema header.tag opened ∧
        Standing Spine (Opened.counted header.tag opened) after)
      ((resolve rules writer header).on ⟨frames, path, none, script⟩) := by
  obtain ⟨stands, path_eq, spine⟩ := standing
  dsimp only at stands path_eq spine
  rcases ran : (resolve rules writer header).on ⟨frames, path, none, script⟩ with ⟨error | found, after⟩
  · obtain ⟨own, rfl⟩ := resolve_error ran
    exact .error ⟨own, spine.begins⟩
  · cases stands with
    | nil =>
        rw [resolve, Attempt.on_bind, Attempt.on_get] at ran
        dsimp only at ran
        split at ran
        · rename_i definition root
          cases ran
          exact .ok ⟨root.symm, .nil, path_eq, spine⟩
        · cases ran
    | @cons parent around frame frames stands shows =>
        obtain ⟨-, definition, known, holds⟩ := trunk frame (.head _)
        have defined : parent.definition = some definition := shows.definition_eq.symm.trans known
        rw [shows.header_eq] at holds
        have formed : definition.constructed? = some true ∧ parent.header.constructed = true := by
          simpa [Definition.holds] using holds
        have following := shows.following definition defined holds
        rw [following] at ran
        obtain ⟨rfl, rfl⟩ := yields_resolve formed.1 formed.2 header _ _ ran
        have found := @Opened.child?_of_holds parent definition header.tag defined holds
        refine .ok ⟨found.symm, .cons stands (shows.counted defined header.tag), path_eq, ?_⟩
        rw [Opened.entries_counted]
        rw [Opened.entries_cons defined] at spine ⊢
        dsimp only
        split
        · exact spine_leftOut spine _ _ _
        · rwa [List.append_nil]

/-- An element of which nothing is known does not show in what was told. -/
theorem ends_pass (standing : Standing Spine opened ⟨frames, path, capture, script⟩)
    (header : Header) (mode : Mode) (capture' : Option Capture) :
    Ends Halts (fun _ => Standing Spine (⟨header, none, []⟩ :: opened))
      ((push none header mode).on ⟨frames, path, capture', script⟩) := by
  obtain ⟨stands, path_eq, spine⟩ := standing
  refine .ok ⟨.cons stands ⟨rfl, rfl, path_eq, ?_⟩, path_eq, spine⟩
  rintro _ ⟨⟩

/-- Nothing is known of an element in a frame in which nothing is looked up. -/
theorem ends_pass_unattended {frame : Frame}
    (standing : Standing Spine opened ⟨frame :: frames, path, capture, script⟩)
    (unattended : frame.mode ≠ .followed ∨
      ∀ definition ∈ frame.definition, definition.holds frame.header = false)
    (header : Header) (mode : Mode) (capture' : Option Capture) :
    Ends Halts (fun _ => Standing Spine (Opened.after rules.schema opened (.start header)))
      ((push none header mode).on ⟨frame :: frames, path, capture', script⟩) := by
  obtain ⟨stands, path_eq, spine⟩ := standing
  dsimp only at stands path_eq spine
  cases stands with
  | @cons parent around _ _ stands shows =>
      have full := shows.full unattended
      have unknown : Opened.found? rules.schema header.tag (parent :: around) = none :=
        Opened.child?_of_full full
      rw [Opened.after, unknown]
      have counted := (Stands.cons stands shows).uncounted full header.tag
      rw [← Opened.entries_counted header.tag] at path_eq spine
      have standing : Standing Spine _ ⟨frame :: frames, path, capture, script⟩ :=
        ⟨counted, path_eq, spine⟩
      exact ends_pass standing header mode capture'

theorem ends_startMisformed (standing : Standing Spine opened ⟨frames, path, capture, script⟩)
    (inside : frames ≠ [] → entries opened ≠ [])
    (contrary : definition.constructed? = some (!header.constructed)) :
    Ends Halts (fun _ => Standing Spine (⟨header, some definition, []⟩ :: opened))
      ((startMisformed rules writer definition header).on ⟨frames, path, capture, script⟩) := by
  obtain ⟨stands, path_eq, spine⟩ := standing
  dsimp only at stands path_eq spine
  have full : definition.holds header = false := by
    rw [Definition.holds, contrary]
    cases header.constructed <;> rfl
  have inner : extendPath path definition.name =
      Entered.path (⟨definition, header⟩ :: entries opened) := by
    rw [path_eq]
    rfl
  rw [startMisformed]
  refine .get ?_
  rw [Attempt.on_bind, push_ignored]
  refine .get ?_
  dsimp only
  split
  · rename_i recovers
    have below : frames ≠ [] := by
      intro idle
      simp [isIdle, idle] at recovers
    obtain ⟨entry, outer, around⟩ := List.exists_cons_of_ne_nil (inside below)
    rw [Attempt.on_bind, report_writer]
    dsimp only
    rw [Attempt.on_bind, tell_writer]
    dsimp only
    rw [tell_writer]
    refine .ok ⟨.cons stands ⟨rfl, rfl, path_eq, ?_⟩, inner, ?_⟩
    · intro other known holds
      cases known
      exact absurd holds (by simp [full])
    · rw [around] at spine inner
      rw [Opened.entries_cons rfl, around]
      dsimp only
      rw [inner]
      exact ((spine.told (.issue _)).entered ⟨definition, header⟩).told (.field none)
  · exact .error ⟨rfl, spine.begins⟩

theorem ends_startFollowed (standing : Standing Spine opened ⟨frames, path, capture, script⟩) :
    Ends Halts (fun _ => Standing Spine (⟨header, some definition, []⟩ :: opened))
      ((startFollowed writer definition header).on ⟨frames, path, capture, script⟩) := by
  obtain ⟨stands, path_eq, spine⟩ := standing
  dsimp only at stands path_eq spine
  rw [startFollowed_writer]
  refine .ok ⟨.cons stands ⟨rfl, rfl, path_eq, ?_⟩, ?_, spine.entered ⟨definition, header⟩⟩
  · rintro _ ⟨⟩ _
    rfl
  · dsimp only
    rw [path_eq]
    rfl

theorem length_entries {all : List Opened} (stands : Stands all frames) :
    (entries all).length = (held frames).length := by
  induction stands with
  | nil => rfl
  | @cons opened outer frame frames _ shows ih =>
      cases defined : opened.definition with
      | none =>
          rw [Opened.entries_bare defined, held_bare _ (shows.definition_eq.trans defined), ih]
      | some definition =>
          rw [Opened.entries_cons defined, held_cons _ (shows.definition_eq.trans defined)]
          simp [ih]

theorem entries_ne_nil (stands : Stands opened frames) (posture : Posture frames capture)
    (inside : frames ≠ []) : entries opened ≠ [] := by
  have known := posture.held_ne_nil inside
  rw [ne_eq, ← List.length_eq_zero_iff] at known ⊢
  rwa [length_entries stands]

theorem Standing.left {walk : Walk (List Telling)} (standing : Standing Spine opened walk)
    (posture : Posture walk.frames walk.capture) (inside : walk.frames ≠ []) :
    Standing Left opened walk := by
  obtain ⟨stands, path_eq, spine⟩ := standing
  obtain ⟨entry, outer, around⟩ := List.exists_cons_of_ne_nil (entries_ne_nil stands posture inside)
  refine ⟨stands, path_eq, ?_⟩
  rw [around] at spine ⊢
  exact spine

theorem Standing.spine {walk : Walk (List Telling)} (standing : Standing Left opened walk)
    (posture : Posture walk.frames walk.capture) (inside : walk.frames ≠ []) :
    Standing Spine opened walk := by
  obtain ⟨stands, path_eq, left⟩ := standing
  obtain ⟨entry, outer, around⟩ := List.exists_cons_of_ne_nil (entries_ne_nil stands posture inside)
  refine ⟨stands, path_eq, ?_⟩
  rw [around] at left ⊢
  exact left

/-- An element is looked up where the frame around it is attended to. -/
theorem ends_startAttended (standing : Standing Spine opened ⟨frames, path, none, script⟩)
    {roots : Nat} {headers : List Header}
    (poised : Poised (fun _ _ _ => True) roots headers ⟨frames, path, none, script⟩)
    (trunk : Trunk frames) (attended : frames.head?.map (·.mode) ≠ some .ignored)
    (header : Header) :
    Ends Halts (fun _ => Standing Spine (Opened.after rules.schema opened (.start header)))
      ((startElement rules writer header).on ⟨frames, path, none, script⟩) := by
  rw [startElement_on header attended]
  have safe := @safe_resolve _ _ _ _ rules _ _ writer_nests poised trunk rfl header
  refine ((ends_resolve standing trunk header).and_safe safe).bind ?_
  rintro found ⟨frames, path, capture, script⟩ ⟨⟨rfl, standing⟩, poised, trunk, attentive, -⟩
  cases known : Opened.found? rules.schema header.tag opened with
  | none =>
      rw [Opened.after, known]
      exact ends_pass standing header _ _
  | some definition =>
      rw [Opened.after, known]
      dsimp only
      rw [startDefined]
      split
      · rename_i contrary
        have inside := entries_ne_nil standing.stands poised.posture
        exact ends_startMisformed standing inside contrary
      · exact ends_startFollowed standing

theorem ends_startElement (standing : Standing Spine opened ⟨frames, path, capture, script⟩)
    {roots : Nat} {headers : List Header}
    (poised : Poised (fun _ _ _ => True) roots headers ⟨frames, path, capture, script⟩)
    (branches : ∀ frame ∈ frames.head?, frame.header.constructed = true) (header : Header) :
    Ends Halts (fun _ => Standing Spine (Opened.after rules.schema opened (.start header)))
      ((startElement rules writer header).on ⟨frames, path, capture, script⟩) := by
  have posture := poised.posture
  dsimp only at posture
  -- Three ways to start: inside a capture, below an ignored frame, and where it is looked up.
  cases capture with
  | some capture =>
      rw [startElement]
      refine .get ?_
      dsimp only
      rw [Attempt.on_bind, Attempt.on_set]
      cases posture with
      | any _ _ known any =>
          refine ends_pass_unattended standing (.inr fun definition known' => ?_) header _ _
          cases known.symm.trans known'
          exact holds_of_unstructured (by simp [Definition.constructed?_eq_none_iff.2 any])
      | captured _ captured =>
          exact ends_pass_unattended standing (.inl (by simp [captured])) header _ _
  | none =>
      by_cases ignored : frames.head?.map (·.mode) = some .ignored
      · rw [startElement]
        refine .get ?_
        dsimp only
        rw [if_pos ignored]
        cases frames with
        | nil => cases ignored
        | cons frame frames =>
            refine ends_pass_unattended standing (.inl ?_) header _ _
            rw [List.head?_cons, Option.map_some, Option.some.injEq] at ignored
            simp [ignored]
      · have trunk := posture.trunk_of_attended ignored branches
        exact ends_startAttended standing poised trunk ignored header

theorem ends_takeValue (standing : Standing Spine opened ⟨frames, path, capture, script⟩)
    (octets : Octets) :
    Ends Halts (fun _ => Standing Spine opened)
      ((takeValue writer octets).on ⟨frames, path, capture, script⟩) := by
  obtain ⟨stands, path_eq, spine⟩ := standing
  dsimp only at stands path_eq spine
  rw [takeValue]
  refine .get ?_
  cases stands with
  | nil => exact .error ⟨rfl, spine.begins⟩
  | @cons top around frame frames stands shows =>
      dsimp only
      split
      · exact .error ⟨rfl, spine.begins⟩
      · split
        · exact .ok ⟨.cons stands shows, path_eq, spine⟩
        · exact .ok ⟨.cons stands shows, path_eq, spine⟩
        · split
          · exact .error ⟨rfl, spine.begins⟩
          · rename_i definition known
            have defined := shows.definition_eq.symm.trans known
            rw [tell_writer]
            refine .ok ⟨.cons stands shows, path_eq, ?_⟩
            rw [Opened.entries_cons defined] at path_eq spine ⊢
            dsimp only
            rw [path_eq, shows.header_eq]
            exact spine.told (.field (some octets))

section

variable {frame : Frame} (spine : Spine (entry :: outer) script)

include spine

theorem ends_closeChoice :
    Ends Halts (fun _ => Speaks (entry :: outer) ⟨frames, path, capture, script⟩)
      ((closeChoice rules writer frame).on ⟨frames, path, capture, script⟩) := by
  rw [closeChoice]
  split
  · exact .ok ⟨script, spine, rfl⟩
  · split
    · exact .ok ⟨script, spine, rfl⟩
    · refine .get ?_
      dsimp only
      split
      · exact .ok ⟨_, spine.told (.issue _), rfl⟩
      · exact .error ⟨rfl, spine.begins⟩

theorem ends_closeComponents (path_eq : path = Entered.path (entry :: outer)) (parent : String)
    {all : List Definition} (known : entry.definition.components? = some all)
    (components : List (Definition × Bool)) (among : ∀ component ∈ components, component.1 ∈ all) :
    Ends Halts (fun _ => Speaks (entry :: outer) ⟨frames, path, capture, script⟩)
      ((closeComponents rules writer parent entry.header.offset components).on
        ⟨frames, path, capture, script⟩) := by
  induction components generalizing script with
  | nil => exact .ok ⟨script, spine, rfl⟩
  | cons component rest ih =>
      rw [List.forall_mem_cons] at among
      rw [closeComponents]
      split
      · exact ih spine among.2
      · rename_i absent
        have mandatory : component.1.isOptional = false := by
          cases optional : component.1.isOptional with
          | false => rfl
          | true => exact absurd (by simp [optional]) absent
        refine .get ?_
        dsimp only
        split
        · rw [Attempt.on_bind, report_writer]
          dsimp only
          rw [Attempt.on_bind, tell_writer]
          refine ih ((spine.told (.issue _)).told ?_) among.2
          rw [path_eq]
          exact .missing known among.1 mandatory
        · exact .error ⟨rfl, spine.begins⟩

theorem ends_closeRecord (path_eq : path = Entered.path (entry :: outer))
    (known : frame.definition = some entry.definition) (header_eq : frame.header = entry.header) :
    Ends Halts (fun _ => Speaks (entry :: outer) ⟨frames, path, capture, script⟩)
      ((closeRecord rules writer frame).on ⟨frames, path, capture, script⟩) := by
  rw [closeRecord, known, header_eq]
  split
  · rename_i head grouping components same
    have listed : entry.definition.components? = some components := by
      rw [Option.some.inj same]
      rfl
    refine ends_closeComponents spine path_eq _ listed _ ?_
    rintro ⟨component, seen⟩ member
    exact (List.of_mem_zip member).1
  · exact .ok ⟨script, spine, rfl⟩

/-- The content of an element of any content is told when that element ends. -/
theorem ends_closeCapture (path_eq : path = Entered.path (entry :: outer))
    (header_eq : frame.header = entry.header)
    (captured : ∀ taken ∈ capture, taken.depth = frames.length + 1 ∧ entry.definition.isAny = true) :
    Ends Halts (fun _ => Speaks (entry :: outer) ⟨frames, path, none, script⟩)
      ((closeCapture writer frame).on ⟨frames, path, capture, script⟩) := by
  rw [closeCapture]
  refine .get ?_
  cases capture with
  | none => exact .ok ⟨script, spine, rfl⟩
  | some taken =>
      obtain ⟨deep, any⟩ := captured taken rfl
      dsimp only
      rw [if_pos deep, Attempt.on_bind, Attempt.on_set]
      dsimp only
      rw [tell_writer]
      refine .ok ⟨_, ?_, rfl⟩
      rw [path_eq, header_eq, ← Definition.type_of_isAny any]
      exact spine.told (.field _)

theorem ends_stopFollowed (path_eq : path = Entered.path (entry :: outer))
    (known : frame.definition = some entry.definition) (header_eq : frame.header = entry.header)
    (captured : ∀ taken ∈ capture, taken.depth = frames.length + 1 ∧ entry.definition.isAny = true) :
    Ends Halts (fun _ after => ∃ script', Left outer script' ∧ after = ⟨frames, path, none, script'⟩)
      ((stopFollowed rules writer frame).on ⟨frames, path, capture, script⟩) := by
  have left (script : List Telling) (spine : Spine (entry :: outer) script) :
      Ends Halts
        (fun _ after => ∃ script', Left outer script' ∧ after = ⟨frames, path, none, script'⟩)
        ((tell writer .leave).on ⟨frames, path, none, script⟩) := by
    rw [tell_writer]
    exact .ok ⟨_, spine.leave, rfl⟩
  rw [stopFollowed]
  refine (ends_closeCapture spine path_eq header_eq captured).bind ?_
  rintro _ _ ⟨script, spine, rfl⟩
  refine (ends_closeChoice spine).bind ?_
  rintro _ _ ⟨script, spine, rfl⟩
  split
  · refine (ends_closeRecord spine path_eq known header_eq).bind ?_
    rintro _ _ ⟨script, spine, rfl⟩
    exact left script spine
  · exact left script spine

end

section

variable {top : Opened} {around : List Opened} {frame : Frame} (stands : Stands around frames)
  (shows : frame.Shows around top)

include stands shows

/-- The path goes back to what it was around the frame that ends. -/
theorem ends_settle (left : Left (entries around) script) :
    Ends Halts (fun _ => Standing Left around)
      ((modify fun walk => { walk with path := frame.outerPath } :
        Attempt (Walk (List Telling)) Unit).on ⟨frames, path, capture, script⟩) :=
  .ok ⟨stands, shows.outerPath_eq, left⟩

theorem ends_stopKnown (known : frame.definition = some definition)
    (path_eq : path = Entered.path (entries (top :: around)))
    (spine : Spine (entries (top :: around)) script)
    (captured : ∀ taken ∈ capture, taken.depth = frames.length + 1 ∧ definition.isAny = true) :
    Ends Halts (fun _ => Standing Left around)
      ((do stopFollowed rules writer frame
           modify fun walk : Walk (List Telling) => { walk with path := frame.outerPath }).on
        ⟨frames, path, capture, script⟩) := by
  have defined := shows.definition_eq.symm.trans known
  rw [Opened.entries_cons defined] at path_eq spine
  refine (ends_stopFollowed spine path_eq known shows.header_eq captured).bind ?_
  rintro _ _ ⟨script', left, rfl⟩
  exact ends_settle stands shows left

theorem ends_stopBare (bare : frame.definition = none) (posture : Posture frames capture)
    (inside : frames ≠ []) (spine : Spine (entries (top :: around)) script) :
    Ends Halts (fun _ => Standing Left around)
      ((modify fun walk => { walk with path := frame.outerPath } :
        Attempt (Walk (List Telling)) Unit).on ⟨frames, path, capture, script⟩) := by
  rw [Opened.entries_bare (shows.definition_eq.symm.trans bare)] at spine
  obtain ⟨entry, outer, known⟩ := List.exists_cons_of_ne_nil (entries_ne_nil stands posture inside)
  refine ends_settle stands shows ?_
  rw [known] at spine ⊢
  exact spine

end

theorem ends_stopElement {top : Opened} {around : List Opened} {frame : Frame}
    (standing : Standing Spine (top :: around) ⟨frame :: frames, path, capture, script⟩)
    (posture : Posture (frame :: frames) capture) {tag : Tag} (same : frame.header.tag = tag) :
    Ends Halts (fun _ => Standing Left around)
      ((stopElement rules writer tag).on ⟨frame :: frames, path, capture, script⟩) := by
  obtain ⟨_ | ⟨stands, shows⟩, path_eq, spine⟩ := standing
  rw [stopElement]
  refine .get ?_
  simp only [same, ne_eq, not_true_eq_false, ↓reduceIte]
  rw [Attempt.on_bind, Attempt.on_set]
  dsimp only
  -- The posture tells how the frame that ends was treated, and so whether a leave is told.
  cases posture with
  | trunk trunk =>
      obtain ⟨mode, definition, known, -⟩ := trunk frame (.head _)
      simp only [mode]
      exact ends_stopKnown stands shows known path_eq spine (by simp)
  | leaf _ mode known =>
      simp only [mode]
      exact ends_stopKnown stands shows known path_eq spine (by simp)
  | any _ mode known any _ deep =>
      simp only [mode]
      refine ends_stopKnown stands shows known path_eq spine ?_
      rintro _ ⟨⟩
      exact ⟨deep, any⟩
  | misformed _ _ mode known =>
      simp only [mode, known, Option.isSome_some, ↓reduceIte]
      dsimp only at spine
      rw [Opened.entries_cons (shows.definition_eq.symm.trans known)] at spine
      rw [Attempt.on_bind, tell_writer]
      exact ends_settle stands shows spine.leave
  | passed posture inside mode bare =>
      simp only [mode, bare, Option.isSome_none, Bool.false_eq_true, ↓reduceIte]
      exact ends_stopBare stands shows bare posture inside spine
  | captured posture mode bare =>
      have inside : frames ≠ [] := by
        rintro rfl
        cases posture
      simp only [mode]
      exact ends_stopBare stands shows bare posture inside spine

end Walk

end BerRecords
