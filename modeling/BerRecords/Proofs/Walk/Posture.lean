import BerRecords.Proofs.Records.Nesting

/-!
# The posture of a walk

What the open frames of a walk can look like while a reader leads it, whatever the
octets are: elements that are followed and hold others, and inside them at most one
that is null, left out, captured or primitive, with whatever it holds. A walk in such
a posture tells its sink of a nesting, and no signal of the reader meets a fatal error.
-/

set_option autoImplicit false

namespace BerRecords.Walk

variable {σ : Type}

def Trunk (frames : List Frame) : Prop :=
  ∀ frame ∈ frames, frame.mode = .followed ∧
    ∃ definition, frame.definition = some definition ∧ definition.holds frame.header = true

/-- The open frames and what they capture are as a reader can leave them. -/
inductive Posture : List Frame → Option Capture → Prop where
  | trunk {frames : List Frame} : Trunk frames → Posture frames none
  | leaf {frame : Frame} {outer : List Frame} {definition : Definition} :
      Trunk outer → frame.mode = .followed → frame.definition = some definition →
      frame.header.constructed = false → definition.constructed? ≠ some true →
      Posture (frame :: outer) none
  | misformed {frame : Frame} {outer : List Frame} {definition : Definition} :
      Trunk outer → outer ≠ [] → frame.mode = .ignored → frame.definition = some definition →
      Posture (frame :: outer) none
  | passed {frame : Frame} {outer : List Frame} :
      Posture outer none → outer ≠ [] → frame.mode = .ignored → frame.definition = none →
      Posture (frame :: outer) none
  | any {frame : Frame} {outer : List Frame} {definition : Definition} {capture : Capture} :
      Trunk outer → frame.mode = .followed → frame.definition = some definition →
      definition.isAny = true → frame.header.constructed = true →
      capture.depth = outer.length + 1 → Posture (frame :: outer) (some capture)
  | captured {frame : Frame} {outer : List Frame} {capture : Capture} :
      Posture outer (some capture) → frame.mode = .captured → frame.definition = none →
      Posture (frame :: outer) (some capture)

/-- The open elements that the sink knows of, and which of them can hold others. -/
def held (frames : List Frame) : List Bool :=
  frames.filterMap fun frame => frame.definition.map (·.holds frame.header)

/-- The path that is left when all frames have ended is that of an idle walk. -/
def Rooted (path : String) : List Frame → Prop
  | [] => path = ""
  | frame :: outer => Rooted frame.outerPath outer

theorem held_cons {frame : Frame} {definition : Definition} (frames : List Frame)
    (known : frame.definition = some definition) :
    held (frame :: frames) = definition.holds frame.header :: held frames := by
  simp [held, known]

theorem held_bare {frame : Frame} (frames : List Frame) (unknown : frame.definition = none) :
    held (frame :: frames) = held frames := by
  simp [held, unknown]

theorem holds_of_primitive {definition : Definition} {header : Header}
    (primitive : header.constructed = false) : definition.holds header = false := by
  simp [Definition.holds, primitive]

theorem holds_of_unstructured {definition : Definition} {header : Header}
    (unstructured : definition.constructed? ≠ some true) : definition.holds header = false := by
  simp [Definition.holds, unstructured]

namespace Trunk

variable {frame : Frame} {frames : List Frame}

theorem roomy (trunk : Trunk frames) : Roomy (held frames) := by
  cases frames with
  | nil => simp [Roomy, held]
  | cons frame outer =>
      obtain ⟨-, definition, known, holds⟩ := trunk frame (.head _)
      simp [Roomy, held_cons outer known, holds]

theorem held_ne_nil (trunk : Trunk frames) (inside : frames ≠ []) : held frames ≠ [] := by
  cases frames with
  | nil => exact absurd rfl inside
  | cons frame outer =>
      obtain ⟨-, definition, known, -⟩ := trunk frame (.head _)
      simp [held_cons outer known]

theorem tail (trunk : Trunk (frame :: frames)) : Trunk frames :=
  fun frame member => trunk frame (.tail _ member)

end Trunk

theorem Posture.held_ne_nil {frames : List Frame} {capture : Option Capture}
    (posture : Posture frames capture) (inside : frames ≠ []) : held frames ≠ [] := by
  induction posture with
  | trunk trunk => exact trunk.held_ne_nil inside
  | leaf _ _ known => simp [held_cons _ known]
  | misformed _ _ _ known => simp [held_cons _ known]
  | passed _ inside' _ unknown ih => simpa [held_bare _ unknown] using ih inside'
  | any _ _ known => simp [held_cons _ known]
  | @captured _ outer _ posture _ unknown ih =>
      rw [held_bare _ unknown]
      refine ih ?_
      rintro rfl
      cases posture

/-- What was captured does not matter. -/
theorem Posture.recapture {frames : List Frame} {capture capture' : Capture}
    (posture : Posture frames (some capture)) (deep : capture'.depth = capture.depth) :
    Posture frames (some capture') := by
  generalize whole : some capture = captured at posture
  induction posture with
  | any trunk followed known any constructed depth =>
      cases whole
      exact .any trunk followed known any constructed (deep.trans depth)
  | captured _ mode unknown ih => exact .captured (ih whole) mode unknown
  | trunk | leaf | misformed | passed => cases whole

/-- A walk that a reader leads: the frames of the open elements have a posture that the
sink knows of. -/
structure Poised (nested : List Bool → Nat → σ → Prop) (roots : Nat) (headers : List Header)
    (walk : Walk σ) : Prop where
  headers_eq : walk.frames.map (·.header) = headers
  posture : Posture walk.frames walk.capture
  rooted : Rooted walk.path walk.frames
  nested : nested (held walk.frames) roots walk.sink

variable {nested : List Bool → Nat → σ → Prop} {roots : Nat} {headers : List Header}
  {rules : Rules} {sink : Sink σ} {walk : Walk σ}

/-- Only the sink of the walk has changed, and its state is as it should be. -/
def Told (post : σ → Prop) (walk after : Walk σ) : Prop :=
  ∃ state, post state ∧ after = { walk with sink := state }

theorem safe_tell {event : FieldEvent} {post : σ → Prop}
    (safe : Attempt.Safe (fun _ => post) ((sink.receive event).on walk.sink)) :
    Attempt.Safe (fun _ => Told post walk) ((tell sink event).on walk) := by
  have told : (tell sink event).on walk = (((sink.receive event).on walk.sink).1,
      { walk with sink := ((sink.receive event).on walk.sink).2 }) := rfl
  rw [told]
  generalize (sink.receive event).on walk.sink = ran at safe ⊢
  cases safe with
  | error mild => exact .error mild
  | ok done => exact .ok ⟨_, done, rfl⟩

theorem Poised.note (nests : sink.Nests nested) (poised : Poised nested roots headers walk)
    (issue : Issue) :
    Poised nested roots headers { walk with sink := sink.note issue walk.sink } :=
  ⟨poised.headers_eq, poised.posture, poised.rooted, nests.note poised.nested issue⟩

theorem safe_leaveOut (nests : sink.Nests nested) (poised : Poised nested roots headers walk)
    (name : String) (mismatch : Mismatch) :
    Attempt.Safe (fun found after => found = none ∧ Poised nested roots headers after ∧
        after.frames = walk.frames ∧ after.capture = walk.capture)
      ((leaveOut rules sink name mismatch).on walk) := by
  rw [leaveOut]
  split
  · exact .ok ⟨rfl, poised.note nests _, rfl, rfl⟩
  · exact .error rfl

private theorem Trunk.count {parent : Frame} {outer : List Frame} (trunk : Trunk (parent :: outer))
    (selection : Definition.Selection) : Trunk (parent.count selection :: outer) := by
  intro frame member
  rcases List.mem_cons.1 member with rfl | member
  · exact trunk parent (.head _)
  · exact trunk.tail frame member

/-- Inside elements that are followed an element finds its definition or is left out, and
the top-level element finds one. -/
theorem safe_resolve (nests : sink.Nests nested) (poised : Poised nested roots headers walk)
    (trunk : Trunk walk.frames) (attentive : walk.capture = none) (header : Header) :
    Attempt.Safe (fun found after => Poised nested roots headers after ∧ Trunk after.frames ∧
        after.capture = none ∧ (found = none → after.frames ≠ []))
      ((resolve rules sink header).on walk) := by
  rw [resolve]
  refine .get ?_
  cases frames : walk.frames with
  | nil =>
      dsimp only
      split
      · exact .ok ⟨poised, trunk, attentive, fun left_out => by cases left_out⟩
      · exact .error rfl
  | cons parent outer =>
      rw [frames] at trunk
      obtain ⟨-, definition, known, holds⟩ := trunk parent (.head _)
      have structured : definition.constructed? = some true := by
        rw [Definition.holds, Bool.and_eq_true, decide_eq_true_eq] at holds
        exact holds.1
      have left_out (name : String) (mismatch : Mismatch) :
          Attempt.Safe (fun found after => Poised nested roots headers after ∧
              Trunk after.frames ∧ after.capture = none ∧ (found = none → after.frames ≠ []))
            ((leaveOut rules sink name mismatch).on walk) := by
        refine (safe_leaveOut nests poised name mismatch).mono ?_
        rintro _ after ⟨-, poised, same, capture⟩
        rw [same, frames]
        exact ⟨poised, trunk, capture.trans attentive, fun _ => by simp⟩
      dsimp only
      rw [resolveChild]
      refine .get ?_
      simp only [known]
      split
      · exact .error rfl
      · split
        · rename_i unselectable
          cases definition with
          | scalar | any => cases structured
          | record | collection | choice => cases unselectable
        · exact left_out _ _
        · rename_i selection _
          split
          · exact left_out _ _
          · have counted := trunk.count selection
            obtain ⟨headers_eq, -, rooted, nested⟩ := poised
            rw [frames] at headers_eq rooted nested
            refine .ok ⟨⟨headers_eq, ?_, rooted, nested⟩, counted, attentive, fun _ => by simp⟩
            rw [attentive]
            exact .trunk counted

theorem push_on (definition : Option Definition) (header : Header) (mode : Mode)
    (walk : Walk σ) :
    ∃ frame path, (push definition header mode).on walk =
        (.ok (), ⟨frame :: walk.frames, path, walk.capture, walk.sink⟩) ∧
      frame.definition = definition ∧ frame.header = header ∧ frame.mode = mode ∧
        frame.outerPath = walk.path :=
  ⟨_, _, rfl, rfl, rfl, rfl, rfl⟩

theorem safe_pass (poised : Poised nested roots headers walk) (attentive : walk.capture = none)
    (inside : walk.frames ≠ []) (header : Header) :
    Attempt.Safe (fun _ => Poised nested roots (header :: headers))
      ((push none header .ignored).on walk) := by
  obtain ⟨frame, path, pushed, unknown, rfl, ignored, outerPath⟩ :=
    push_on none header .ignored walk
  obtain ⟨rfl, posture, rooted, nested⟩ := poised
  rw [pushed]
  rw [attentive] at posture ⊢
  refine .ok ⟨rfl, .passed posture inside ignored unknown, ?_, ?_⟩
  · rwa [Rooted, outerPath]
  · rwa [held_bare _ unknown]

theorem safe_startMisformed (nests : sink.Nests nested) (poised : Poised nested roots headers walk)
    (trunk : Trunk walk.frames) (attentive : walk.capture = none) {definition : Definition}
    {header : Header} (contrary : definition.constructed? = some (!header.constructed)) :
    Attempt.Safe (fun _ => Poised nested roots (header :: headers))
      ((startMisformed rules sink definition header).on walk) := by
  obtain ⟨frame, path, pushed, known, rfl, ignored, outerPath⟩ :=
    push_on (some definition) header .ignored walk
  obtain ⟨rfl, -, rooted, nested⟩ := poised
  have full : definition.holds frame.header = false := by
    rw [Definition.holds, contrary]
    cases frame.header.constructed <;> rfl
  rw [startMisformed]
  refine .get ?_
  rw [Attempt.on_bind, pushed, attentive]
  refine .get ?_
  dsimp only
  split
  · rename_i recovers
    have inside : walk.frames ≠ [] := by
      intro idle
      simp [isIdle, idle] at recovers
    rw [report]
    refine .modified ?_
    refine (safe_tell (nests.enter (nests.note nested _) trunk.roomy definition _)).bind ?_
    rintro _ _ ⟨state, nested, rfl⟩
    rw [full] at nested
    refine (safe_tell (nests.field nested _)).mono ?_
    rintro _ _ ⟨state, nested, rfl⟩
    refine ⟨rfl, .misformed trunk inside ignored known, ?_, ?_⟩
    · rwa [Rooted, outerPath]
    · rwa [held_cons _ known, full]
  · exact .error rfl

theorem safe_startFollowed (nests : sink.Nests nested) (poised : Poised nested roots headers walk)
    (trunk : Trunk walk.frames) (attentive : walk.capture = none) {definition : Definition}
    {header : Header} (fits : definition.constructed? ≠ some (!header.constructed)) :
    Attempt.Safe (fun _ => Poised nested roots (header :: headers))
      ((startFollowed sink definition header).on walk) := by
  obtain ⟨frame, path, pushed, known, rfl, followed, outerPath⟩ :=
    push_on (some definition) header .followed walk
  obtain ⟨rfl, -, rooted, nested⟩ := poised
  rw [startFollowed, Attempt.on_bind, pushed, attentive]
  have entered := @safe_tell _ sink ⟨frame :: walk.frames, path, none, walk.sink⟩ _ _
    (nests.enter nested trunk.roomy definition frame.header)
  refine entered.bind ?_
  rintro _ _ ⟨state, nested, rfl⟩
  rw [← held_cons _ known] at nested
  have rooted' : Rooted path (frame :: walk.frames) := by rwa [Rooted, outerPath]
  cases constructed : frame.header.constructed with
  | false =>
      rw [constructed] at fits
      rw [Bool.and_false, if_neg Bool.false_ne_true]
      exact .ok ⟨rfl, .leaf trunk followed known constructed fits, rooted', nested⟩
  | true =>
      rw [constructed] at fits
      cases any : definition.isAny with
      | true => exact .ok ⟨rfl, .any trunk followed known any constructed rfl, rooted', nested⟩
      | false =>
          have structured := Definition.constructed?_of_isAny_eq_false fits any
          have longer : Trunk (frame :: walk.frames) := by
            intro other member
            rcases List.mem_cons.1 member with rfl | member
            · exact ⟨followed, definition, known, by simp [Definition.holds, structured, constructed]⟩
            · exact trunk other member
          exact .ok ⟨rfl, .trunk longer, rooted', nested⟩

theorem Posture.trunk_of_attended {frames : List Frame} (posture : Posture frames none)
    (attended : frames.head?.map (·.mode) ≠ some .ignored)
    (branches : ∀ frame ∈ frames.head?, frame.header.constructed = true) : Trunk frames := by
  cases posture with
  | trunk trunk => exact trunk
  | leaf _ _ _ primitive => simp [branches _ rfl] at primitive
  | misformed _ _ ignored => simp [ignored] at attended
  | passed _ _ ignored => simp [ignored] at attended

/-- An element may start at the top or inside one that is built of others. -/
theorem safe_startElement (nests : sink.Nests nested) (poised : Poised nested roots headers walk)
    (branches : ∀ header ∈ headers.head?, header.constructed = true) (header : Header) :
    Attempt.Safe (fun _ => Poised nested roots (header :: headers))
      ((startElement rules sink header).on walk) := by
  have branches' : ∀ frame ∈ walk.frames.head?, frame.header.constructed = true := by
    intro frame member
    refine branches frame.header ?_
    rw [← poised.headers_eq, List.head?_map, Option.mem_def.1 member]
    rfl
  rw [startElement]
  refine .get ?_
  cases attentive : walk.capture with
  | some capture =>
      obtain ⟨rfl, posture, rooted, nested⟩ := poised
      rw [attentive] at posture
      exact .ok ⟨rfl, .captured (posture.recapture rfl) rfl rfl, rooted, nested⟩
  | none =>
      dsimp only
      by_cases ignored : walk.frames.head?.map (·.mode) = some .ignored
      · rw [if_pos ignored]
        refine safe_pass poised attentive ?_ header
        intro idle
        simp [idle] at ignored
      · rw [if_neg ignored]
        have trunk := (attentive ▸ poised.posture).trunk_of_attended ignored branches'
        refine (safe_resolve nests poised trunk attentive header).bind ?_
        rintro found middle ⟨poised, trunk, attentive, inside⟩
        cases found with
        | none => exact safe_pass poised attentive (inside rfl) header
        | some definition =>
            dsimp only
            split
            · rename_i contrary
              exact safe_startMisformed nests poised trunk attentive contrary
            · rename_i fits
              exact safe_startFollowed nests poised trunk attentive fits

theorem safe_takeValue (nests : sink.Nests nested) {header : Header}
    (poised : Poised nested roots (header :: headers) walk)
    (primitive : header.constructed = false) (octets : Octets) :
    Attempt.Safe (fun _ => Poised nested roots (header :: headers))
      ((takeValue sink octets).on walk) := by
  rcases walk with ⟨_ | ⟨top, outer⟩, path, capture, state⟩
  · cases poised.headers_eq
  · obtain ⟨headers_eq, posture, rooted, nested⟩ := poised
    obtain ⟨rfl, rfl⟩ := List.cons.inj headers_eq
    dsimp only at posture rooted nested
    rw [takeValue]
    refine .get ?_
    simp only [primitive, Bool.false_eq_true, ↓reduceIte]
    cases posture with
    | trunk trunk =>
        obtain ⟨-, definition, -, holds⟩ := trunk top (.head _)
        rw [holds_of_primitive primitive] at holds
        cases holds
    | any _ _ _ _ constructed => simp [primitive] at constructed
    | @leaf _ _ definition trunk followed known _ unstructured =>
        have full : definition.holds top.header = false := holds_of_primitive primitive
        rw [held_cons _ known, full] at nested
        simp only [followed, known]
        refine (safe_tell (nests.field nested _)).mono ?_
        rintro _ _ ⟨state, nested, rfl⟩
        refine ⟨rfl, .leaf trunk followed known primitive unstructured, rooted, ?_⟩
        rwa [held_cons _ known, full]
    | misformed trunk inside ignored known =>
        simp only [ignored]
        exact .ok ⟨rfl, .misformed trunk inside ignored known, rooted, nested⟩
    | passed posture inside ignored unknown =>
        simp only [ignored]
        exact .ok ⟨rfl, .passed posture inside ignored unknown, rooted, nested⟩
    | captured posture mode unknown =>
        simp only [mode]
        exact .ok ⟨rfl, .captured (posture.recapture rfl) mode unknown, rooted, nested⟩

section

variable {open? : List Bool}

theorem safe_closeChoice (nests : sink.Nests nested) (known : nested open? roots walk.sink)
    (frame : Frame) :
    Attempt.Safe (fun _ => Told (nested open? roots) walk)
      ((closeChoice rules sink frame).on walk) := by
  rw [closeChoice]
  split
  · exact .ok ⟨_, known, rfl⟩
  · split
    · exact .ok ⟨_, known, rfl⟩
    · refine .get ?_
      split
      · exact .ok ⟨_, nests.note known _, rfl⟩
      · exact .error rfl

theorem safe_closeComponents (nests : sink.Nests nested) (parent : String) (offset : Nat)
    (components : List (Definition × Bool)) (known : nested (true :: open?) roots walk.sink) :
    Attempt.Safe (fun _ => Told (nested (true :: open?) roots) walk)
      ((closeComponents rules sink parent offset components).on walk) := by
  induction components generalizing walk with
  | nil => exact .ok ⟨_, known, rfl⟩
  | cons component rest ih =>
      rw [closeComponents]
      split
      · exact ih known
      · refine .get ?_
        dsimp only
        split
        · rw [report]
          refine .modified ?_
          refine (safe_tell (nests.missing (nests.note known _) _ _ _)).bind ?_
          rintro _ _ ⟨state, known, rfl⟩
          exact @ih { walk with sink := state } known
        · exact .error rfl

theorem safe_closeRecord (nests : sink.Nests nested) {frame : Frame} {definition : Definition}
    (defined : frame.definition = some definition)
    (formed : definition.constructed? = some true → definition.holds frame.header = true)
    (known : nested (definition.holds frame.header :: open?) roots walk.sink) :
    Attempt.Safe (fun _ => Told (nested (definition.holds frame.header :: open?) roots) walk)
      ((closeRecord rules sink frame).on walk) := by
  rw [closeRecord, defined]
  cases definition with
  | record head grouping components =>
      rw [formed rfl] at known ⊢
      exact safe_closeComponents nests _ _ _ known
  | scalar | collection | choice | any => exact .ok ⟨_, known, rfl⟩

/-- An element whose content is not captured, or has been told, comes to its end. -/
theorem safe_stopFollowed (nests : sink.Nests nested) {frame : Frame} {definition : Definition}
    (defined : frame.definition = some definition)
    (formed : definition.constructed? = some true → definition.holds frame.header = true)
    (roomy : Roomy open?)
    (delivered : Attempt.Safe
      (fun _ => Told (nested (definition.holds frame.header :: open?) roots)
        { walk with capture := none })
      ((closeCapture sink frame).on walk)) :
    Attempt.Safe
      (fun _ => Told (nested open? (completed roots open?)) { walk with capture := none })
      ((stopFollowed rules sink frame).on walk) := by
  rw [stopFollowed]
  refine delivered.bind ?_
  rintro _ _ ⟨state, known, rfl⟩
  refine (safe_closeChoice nests known frame).bind ?_
  rintro _ _ ⟨state, known, rfl⟩
  have left {state : σ} (known : nested (definition.holds frame.header :: open?) roots state) :=
    @safe_tell _ sink { walk with capture := none, sink := state } _ _ (nests.leave known roomy)
  split
  · refine (safe_closeRecord nests defined formed known).bind ?_
    rintro _ _ ⟨state, known, rfl⟩
    exact left known
  · exact left known

end

private theorem completed_held {outer : List Frame} {capture : Option Capture}
    (posture : Posture outer capture) (roots : Nat) :
    completed roots (held outer) =
      if outer.map (·.header) = [] then roots + 1 else roots := by
  cases outer with
  | nil => rfl
  | cons frame outer =>
      rw [completed, if_neg (posture.held_ne_nil (by simp)), if_neg (by simp)]

/-- The innermost element may end. The outermost is complete then. -/
theorem safe_stopElement (nests : sink.Nests nested) {header : Header}
    (poised : Poised nested roots (header :: headers) walk) {tag : Tag}
    (same : header.tag = tag) :
    Attempt.Safe (fun _ => Poised nested (if headers = [] then roots + 1 else roots) headers)
      ((stopElement rules sink tag).on walk) := by
  rcases walk with ⟨_ | ⟨frame, outer⟩, path, capture, state⟩
  · cases poised.headers_eq
  · obtain ⟨headers_eq, posture, rooted, known⟩ := poised
    obtain ⟨rfl, rfl⟩ := List.cons.inj headers_eq
    dsimp only at posture rooted known same
    rw [stopElement]
    refine .get ?_
    simp only [same, ne_eq, not_true_eq_false, ↓reduceIte]
    rw [Attempt.on_bind, Attempt.on_set]
    dsimp only
    have followed {definition : Definition} (trunk : Trunk outer)
        (defined : frame.definition = some definition)
        (formed : definition.constructed? = some true → definition.holds frame.header = true)
        (delivered : Attempt.Safe
          (fun _ => Told (nested (definition.holds frame.header :: held outer) roots)
            ⟨outer, path, none, state⟩)
          ((closeCapture sink frame).on ⟨outer, path, capture, state⟩)) :
        Attempt.Safe (fun _ => Poised nested
            (if outer.map (·.header) = [] then roots + 1 else roots) (outer.map (·.header)))
          ((do stopFollowed rules sink frame
               modify fun walk : Walk σ => { walk with path := frame.outerPath }).on
            ⟨outer, path, capture, state⟩) := by
      refine (safe_stopFollowed nests defined formed trunk.roomy delivered).bind ?_
      rintro _ _ ⟨state, known, rfl⟩
      rw [completed_held (.trunk trunk)] at known
      exact .ok ⟨rfl, .trunk trunk, rooted, known⟩
    cases posture with
    | trunk trunk =>
        obtain ⟨mode, definition, defined, holds⟩ := trunk frame (.head _)
        rw [held_cons _ defined] at known
        simp only [mode]
        exact followed trunk.tail defined (fun _ => holds) (.ok ⟨state, known, rfl⟩)
    | leaf trunk mode defined primitive unstructured =>
        rw [held_cons _ defined] at known
        simp only [mode]
        exact followed trunk defined (fun structured => absurd structured unstructured)
          (.ok ⟨state, known, rfl⟩)
    | @any _ _ definition capture trunk mode defined any constructed deep =>
        have unstructured : definition.constructed? ≠ some true := by
          simp [Definition.constructed?_eq_none_iff.2 any]
        have full : definition.holds frame.header = false := holds_of_unstructured unstructured
        rw [held_cons _ defined, full] at known
        simp only [mode]
        refine followed trunk defined (fun structured => absurd structured unstructured) ?_
        rw [closeCapture, full]
        refine .get ?_
        simp only [deep, ↓reduceIte]
        rw [Attempt.on_bind, Attempt.on_set]
        exact @safe_tell _ sink ⟨outer, path, none, state⟩ _ _ (nests.field known _)
    | misformed trunk inside mode defined =>
        rw [held_cons _ defined] at known
        simp only [mode, defined, Option.isSome_some, ↓reduceIte]
        refine (safe_tell (nests.leave known trunk.roomy)).bind ?_
        rintro _ _ ⟨state, known, rfl⟩
        rw [completed_held (.trunk trunk)] at known
        exact .ok ⟨rfl, .trunk trunk, rooted, known⟩
    | passed posture inside mode unknown =>
        simp only [mode, unknown, Option.isSome_none, Bool.false_eq_true, ↓reduceIte]
        rw [held_bare _ unknown] at known
        rw [if_neg (by simpa using inside)]
        exact .ok ⟨rfl, posture, rooted, known⟩
    | captured posture mode unknown =>
        have inside : outer ≠ [] := by
          rintro rfl
          cases posture
        simp only [mode]
        rw [held_bare _ unknown] at known
        rw [if_neg (by simpa using inside)]
        exact .ok ⟨rfl, posture, rooted, known⟩

end BerRecords.Walk
