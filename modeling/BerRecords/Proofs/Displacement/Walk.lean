import BerRecords.Proofs.Displacement

/-! A walk further on does the same, if its sink does. -/

set_option autoImplicit false

namespace BerRecords.Walk

variable {σ : Type} {distance : Nat} {move : σ → σ} {rules : Rules} {sink : Sink σ}

theorem displace_tell (moves : sink.Moves distance move) (event : FieldEvent) (walk : Walk σ) :
    (tell sink (event.displace distance)).on (walk.displace distance move) =
      Attempt.displace distance (Walk.displace distance move) ((tell sink event).on walk) := by
  have received := moves.receive event walk.sink
  simp only [Attempt.on, ExceptT.run, StateT.run] at received
  simp only [tell, Attempt.on, ExceptT.run, StateT.run, Walk.displace, received]
  rcases sink.receive event walk.sink with ⟨error | value, state⟩
  · rfl
  · rfl

theorem displace_report (moves : sink.Moves distance move) (issue : Issue) (walk : Walk σ) :
    (report sink (issue.displace distance)).on (walk.displace distance move) =
      Attempt.displace distance (Walk.displace distance move) ((report sink issue).on walk) := by
  simp [report, Walk.displace, moves.note, Attempt.displace]

theorem displace_push (definition : Option Definition) (header : Header) (mode : Mode)
    (walk : Walk σ) :
    (push definition (header.displace distance) mode).on (walk.displace distance move) =
      Attempt.displace distance (Walk.displace distance move)
        ((push definition header mode).on walk) := by
  simp [push, Walk.displace, Attempt.displace, Frame.displace]

theorem displace_leaveOut (moves : sink.Moves distance move) (name : String) (mismatch : Mismatch)
    (walk : Walk σ) :
    (leaveOut rules sink name (mismatch.displace distance)).on (walk.displace distance move) =
      Attempt.displace distance (Walk.displace distance move)
        ((leaveOut rules sink name mismatch).on walk) := by
  rw [leaveOut, leaveOut]
  have leaf : (mismatch.displace distance).fieldLocal = mismatch.fieldLocal := rfl
  rw [leaf]
  split
  · have reported := displace_report moves
      ⟨innerPath mismatch.path name, mismatch.offset, .mismatch mismatch, false⟩ walk
    exact Attempt.displace_bind reported fun _ _ _ => rfl
  · rfl

theorem displace_resolveChild (moves : sink.Moves distance move) (header : Header)
    (parent : Frame) (outer : List Frame) (walk : Walk σ) :
    (resolveChild rules sink (header.displace distance) (parent.displace distance)
        (outer.map (Frame.displace distance))).on (walk.displace distance move) =
      Attempt.displace distance (Walk.displace distance move)
        ((resolveChild rules sink header parent outer).on walk) := by
  rw [resolveChild, resolveChild]
  refine Attempt.displace_get ?_
  have definition : (parent.displace distance).definition = parent.definition := rfl
  have children : (parent.displace distance).children = parent.children := rfl
  have form : (parent.displace distance).header.constructed = parent.header.constructed := rfl
  have path : (walk.displace distance move).path = walk.path := rfl
  simp only [definition, children, form, path, Header.displace_tag, Header.displace_constructed,
    Header.displace_offset]
  split
  · have left_out (name : String) (cause : Disagreement) :=
      @displace_leaveOut _ _ _ rules _ moves name
        ⟨header.offset, walk.path, cause, !header.constructed⟩ walk
    split
    · rfl
    · split
      · rfl
      · exact left_out _ _
      · split
        · exact left_out _ _
        · exact Attempt.displace_bind rfl fun _ _ _ => rfl
  · rfl

theorem displace_resolve (moves : sink.Moves distance move) (header : Header) (walk : Walk σ) :
    (resolve rules sink (header.displace distance)).on (walk.displace distance move) =
      Attempt.displace distance (Walk.displace distance move)
        ((resolve rules sink header).on walk) := by
  rw [resolve, resolve]
  refine Attempt.displace_get ?_
  cases frames : walk.frames with
  | nil =>
      have frames' : (walk.displace distance move).frames = [] := by simp [Walk.displace, frames]
      simp only [frames', Header.displace_tag]
      split
      · rfl
      · rfl
  | cons parent outer =>
      have frames' : (walk.displace distance move).frames =
          parent.displace distance :: outer.map (Frame.displace distance) := by
        simp [Walk.displace, frames]
      simp only [frames']
      exact displace_resolveChild moves header parent outer walk

theorem displace_startMisformed (moves : sink.Moves distance move) (definition : Definition)
    (header : Header) (walk : Walk σ) :
    (startMisformed rules sink definition (header.displace distance)).on
        (walk.displace distance move) =
      Attempt.displace distance (Walk.displace distance move)
        ((startMisformed rules sink definition header).on walk) := by
  have idle : (walk.displace distance move).isIdle = walk.isIdle := by
    simp [isIdle, Walk.displace]
  rw [startMisformed, startMisformed]
  refine Attempt.displace_get ?_
  rw [idle]
  refine Attempt.displace_bind (displace_push _ header _ walk) fun _ walk' _ => ?_
  refine Attempt.displace_get ?_
  have path : (walk'.displace distance move).path = walk'.path := rfl
  simp only [path, Header.displace_tag, Header.displace_offset]
  split
  · have reported := displace_report moves ⟨walk'.path, header.offset,
      .mismatch ⟨header.offset, walk'.path, .wrongForm definition.type header.tag, !walk.isIdle⟩,
      true⟩ walk'
    refine Attempt.displace_bind reported fun _ walk'' _ => ?_
    refine Attempt.displace_bind (displace_tell moves (.enter definition header) _) fun _ _ _ => ?_
    exact displace_tell moves (.field ⟨walk'.path, none, definition.type, header.offset⟩) _
  · rfl

theorem displace_startFollowed (moves : sink.Moves distance move) (definition : Definition)
    (header : Header) (walk : Walk σ) :
    (startFollowed sink definition (header.displace distance)).on (walk.displace distance move) =
      Attempt.displace distance (Walk.displace distance move)
        ((startFollowed sink definition header).on walk) := by
  rw [startFollowed, startFollowed]
  refine Attempt.displace_bind (displace_push _ header _ walk) fun _ walk' _ => ?_
  refine Attempt.displace_bind (displace_tell moves (.enter definition header) _)
    fun _ walk'' _ => ?_
  rw [Header.displace_constructed]
  split
  · simp [Walk.displace, Attempt.displace]
  · rfl

theorem displace_startElement (moves : sink.Moves distance move) (header : Header)
    (walk : Walk σ) :
    (startElement rules sink (header.displace distance)).on (walk.displace distance move) =
      Attempt.displace distance (Walk.displace distance move)
        ((startElement rules sink header).on walk) := by
  have mode : (walk.displace distance move).frames.head?.map (·.mode) =
      walk.frames.head?.map (·.mode) := by
    cases frames : walk.frames <;> simp [Walk.displace, frames, Frame.displace]
  have capture : (walk.displace distance move).capture = walk.capture := rfl
  rw [startElement, startElement]
  refine Attempt.displace_get ?_
  rw [mode, capture]
  split
  · exact Attempt.displace_bind rfl fun _ walk' _ => displace_push none header .captured walk'
  · split
    · exact displace_push none header .ignored walk
    · refine Attempt.displace_bind (displace_resolve moves header walk) fun found walk' _ => ?_
      cases found with
      | none => exact displace_push none header .ignored walk'
      | some definition =>
          by_cases form : definition.constructed? = some (!header.constructed)
          · simp only [Header.displace_constructed, form, ↓reduceIte]
            exact displace_startMisformed moves definition header walk'
          · simp only [Header.displace_constructed, form, ↓reduceIte]
            exact displace_startFollowed moves definition header walk'

theorem displace_takeValue (moves : sink.Moves distance move) (octets : Octets) (walk : Walk σ) :
    (takeValue sink octets).on (walk.displace distance move) =
      Attempt.displace distance (Walk.displace distance move) ((takeValue sink octets).on walk) := by
  rw [takeValue]
  refine Attempt.displace_get ?_
  cases frames : walk.frames with
  | nil =>
      have frames' : (walk.displace distance move).frames = [] := by simp [Walk.displace, frames]
      simp only [frames']
      rfl
  | cons top outer =>
      have frames' : (walk.displace distance move).frames =
          top.displace distance :: outer.map (Frame.displace distance) := by
        simp [Walk.displace, frames]
      have form : (top.displace distance).header.constructed = top.header.constructed := rfl
      have mode : (top.displace distance).mode = top.mode := rfl
      have known : (top.displace distance).definition = top.definition := rfl
      simp only [frames', form, mode, known]
      split
      · rfl
      · split
        · rfl
        · rfl
        · split
          · rfl
          · rename_i definition _
            exact displace_tell moves
              (.field ⟨walk.path, some octets, definition.type, top.header.offset⟩) walk

theorem displace_closeCapture (moves : sink.Moves distance move) (frame : Frame) (walk : Walk σ) :
    (closeCapture sink (frame.displace distance)).on (walk.displace distance move) =
      Attempt.displace distance (Walk.displace distance move)
        ((closeCapture sink frame).on walk) := by
  have depth : (walk.displace distance move).frames.length = walk.frames.length := by
    simp [Walk.displace]
  have capture : (walk.displace distance move).capture = walk.capture := rfl
  rw [closeCapture, closeCapture]
  refine Attempt.displace_get ?_
  rw [capture, depth]
  split
  · rfl
  · rename_i captured _
    split
    · exact Attempt.displace_bind rfl fun _ _ _ => displace_tell moves
        (.field ⟨walk.path, some captured.octets, .any, frame.header.offset⟩) _
    · rfl

theorem displace_closeChoice (moves : sink.Moves distance move) (frame : Frame) (walk : Walk σ) :
    (closeChoice rules sink (frame.displace distance)).on (walk.displace distance move) =
      Attempt.displace distance (Walk.displace distance move)
        ((closeChoice rules sink frame).on walk) := by
  have known : (frame.displace distance).definition = frame.definition := rfl
  have children : (frame.displace distance).children = frame.children := rfl
  rw [closeChoice, closeChoice, known]
  split
  · rfl
  · rename_i definition _
    rw [children]
    split
    · rfl
    · refine Attempt.displace_get ?_
      split
      · exact displace_report moves ⟨walk.path, frame.header.offset, .mismatch
          ⟨frame.header.offset, walk.path, .emptyChoice definition.name frame.header.tag, true⟩,
          false⟩ walk
      · rfl

theorem displace_closeComponents (moves : sink.Moves distance move) (parent : String)
    (offset : Nat) (components : List (Definition × Bool)) (walk : Walk σ) :
    (closeComponents rules sink parent (offset + distance) components).on
        (walk.displace distance move) =
      Attempt.displace distance (Walk.displace distance move)
        ((closeComponents rules sink parent offset components).on walk) := by
  induction components generalizing walk with
  | nil => rfl
  | cons component rest ih =>
      rw [closeComponents, closeComponents]
      split
      · exact ih walk
      · refine Attempt.displace_get ?_
        have path : (walk.displace distance move).path = walk.path := rfl
        simp only [path]
        split
        · have reported := displace_report moves ⟨innerPath walk.path component.1.name, offset,
            .mismatch ⟨offset, innerPath walk.path component.1.name,
              .missingComponent parent component.1.name, true⟩, true⟩ walk
          refine Attempt.displace_bind reported fun _ walk' _ => ?_
          refine Attempt.displace_bind (displace_tell moves
            (.missing component.1 (innerPath walk.path component.1.name) offset) walk')
              fun _ walk'' _ => ?_
          exact ih walk''
        · rfl

theorem displace_closeRecord (moves : sink.Moves distance move) (frame : Frame) (walk : Walk σ) :
    (closeRecord rules sink (frame.displace distance)).on (walk.displace distance move) =
      Attempt.displace distance (Walk.displace distance move)
        ((closeRecord rules sink frame).on walk) := by
  have known : (frame.displace distance).definition = frame.definition := rfl
  rw [closeRecord, closeRecord, known]
  split
  · exact displace_closeComponents moves _ frame.header.offset _ walk
  · rfl

theorem displace_stopFollowed (moves : sink.Moves distance move) (frame : Frame) (walk : Walk σ) :
    (stopFollowed rules sink (frame.displace distance)).on (walk.displace distance move) =
      Attempt.displace distance (Walk.displace distance move)
        ((stopFollowed rules sink frame).on walk) := by
  rw [stopFollowed, stopFollowed]
  refine Attempt.displace_bind (displace_closeCapture moves frame walk) fun _ walk₁ _ => ?_
  refine Attempt.displace_bind (displace_closeChoice moves frame walk₁) fun _ walk₂ _ => ?_
  split
  · refine Attempt.displace_bind (displace_closeRecord moves frame walk₂) fun _ walk₃ _ => ?_
    exact displace_tell moves .leave walk₃
  · exact displace_tell moves .leave walk₂

theorem displace_stopElement (moves : sink.Moves distance move) (tag : Tag) (walk : Walk σ) :
    (stopElement rules sink tag).on (walk.displace distance move) =
      Attempt.displace distance (Walk.displace distance move)
        ((stopElement rules sink tag).on walk) := by
  rw [stopElement]
  refine Attempt.displace_get ?_
  cases frames : walk.frames with
  | nil =>
      have frames' : (walk.displace distance move).frames = [] := by simp [Walk.displace, frames]
      simp only [frames']
      rfl
  | cons frame outer =>
      have frames' : (walk.displace distance move).frames =
          frame.displace distance :: outer.map (Frame.displace distance) := by
        simp [Walk.displace, frames]
      have tag_eq : (frame.displace distance).header.tag = frame.header.tag := rfl
      have mode : (frame.displace distance).mode = frame.mode := rfl
      have known : (frame.displace distance).definition = frame.definition := rfl
      simp only [frames', tag_eq, mode, known]
      split
      · rfl
      · refine Attempt.displace_bind rfl fun _ walk' _ => ?_
        split
        · rfl
        · split
          · refine Attempt.displace_bind (displace_tell moves .leave walk') fun _ _ _ => ?_
            rfl
          · rfl
        · refine Attempt.displace_bind (displace_stopFollowed moves frame walk') fun _ _ _ => ?_
          rfl

theorem moves_visitor (moves : sink.Moves distance move) :
    (visitor rules sink).Moves distance (Walk.displace distance move) := by
  intro signal walk
  cases signal with
  | start header => exact displace_startElement moves header walk
  | value octets => exact displace_takeValue moves octets walk
  | stop tag => exact displace_stopElement moves tag walk

end BerRecords.Walk
