import BerRecords.Proofs.Reader.Trace
import BerRecords.Walk

/-! Elements that a walk passes over or captures leave its frames as they were. -/

set_option autoImplicit false

namespace BerRecords

namespace Walk

open Element

variable {σ : Type} {encoding : TagEncoding} {rules : Rules} {sink : Sink σ}

abbrev told (rules : Rules) (sink : Sink σ) (signals : List Signal) : Attempt (Walk σ) Unit :=
  Visitor.tell (visitor rules sink) signals

def Frame.bare (header : Header) (mode : Mode) (path : String) : Frame :=
  ⟨none, header, mode, [], 0, path⟩

section

variable {frame : Frame} {frames : List Frame} {path : String} {capture : Option Capture} {state : σ}

theorem push_bare (header : Header) (mode : Mode) :
    (push none header mode).on ⟨frames, path, capture, state⟩ =
      (.ok (), ⟨.bare header mode path :: frames, path, capture, state⟩) :=
  rfl

theorem stop_bare {header : Header} {mode : Mode} {outerPath : String} {tag : Tag}
    (same : header.tag = tag) (passed : mode ≠ .followed) :
    (stopElement rules sink tag).on
        ⟨.bare header mode outerPath :: frames, path, capture, state⟩ =
      (.ok (), ⟨frames, outerPath, capture, state⟩) := by
  subst same
  cases mode with
  | followed => exact absurd rfl passed
  | ignored => simp [stopElement, Frame.bare, Attempt.on_bind]
  | captured => simp [stopElement, Frame.bare, Attempt.on_bind]

theorem start_ignored (ignored : frame.mode = .ignored) (header : Header) :
    (startElement rules sink header).on ⟨frame :: frames, path, none, state⟩ =
      (.ok (), ⟨.bare header .ignored path :: frame :: frames, path, none, state⟩) := by
  simp [startElement, Attempt.on_bind, ignored, push_bare]

theorem value_ignored (ignored : frame.mode = .ignored) (primitive : frame.header.constructed = false)
    (octets : Octets) :
    (takeValue sink octets).on ⟨frame :: frames, path, capture, state⟩ =
      (.ok (), ⟨frame :: frames, path, capture, state⟩) := by
  simp [takeValue, Attempt.on_bind, ignored, primitive]

theorem start_captured (capture : Capture) (header : Header) :
    (startElement rules sink header).on ⟨frames, path, some capture, state⟩ =
      (.ok (), ⟨.bare header .captured path :: frames, path, some (capture.add header.octets),
        state⟩) := by
  simp [startElement, Attempt.on_bind, push_bare]

theorem value_captured (captured : frame.mode = .captured)
    (primitive : frame.header.constructed = false) (octets : Octets) :
    (takeValue sink octets).on ⟨frame :: frames, path, capture, state⟩ =
      (.ok (), ⟨frame :: frames, path, capture.map (Capture.add octets), state⟩) := by
  simp [takeValue, Attempt.on_bind, captured, primitive]

end

theorem told_value (octets : Octets) :
    told rules sink [.value octets] = takeValue sink octets := by
  simp [told, Visitor.tell, visitor]

theorem told_elements (offset : Nat) (element : Element encoding) (rest : List (Element encoding)) :
    told rules sink (signalsAll offset (element :: rest)) = (do
      startElement rules sink (element.heading.header offset)
      told rules sink (element.body offset)
      stopElement rules sink element.heading.tag
      told rules sink (signalsAll (offset + element.octets.length) rest)) := by
  simp [told, signalsAll, signals_eq, Visitor.tell, Visitor.tell_append, visitor]

section

variable {path : String} {state : σ}

mutual

/-- What stands inside an ignored element changes nothing. -/
theorem told_body_ignored (element : Element encoding) (formed : element.Formed) {frame : Frame}
    (ignored : frame.mode = .ignored) {offset : Nat}
    (same : frame.header = element.heading.header offset) (frames : List Frame) :
    (told rules sink (element.body offset)).on ⟨frame :: frames, path, none, state⟩ =
      (.ok (), ⟨frame :: frames, path, none, state⟩) := by
  match element with
  | .leaf heading value =>
      rw [Formed] at formed
      have primitive : frame.header.constructed = false := by rw [same]; exact formed
      rw [body, told_value, value_ignored ignored primitive]
  | .branch heading children =>
      rw [Formed] at formed
      rw [body]
      exact told_ignored children formed.2 ignored _ frames

/-- Elements inside an ignored one change nothing. -/
theorem told_ignored (elements : List (Element encoding)) (formed : FormedAll elements)
    {frame : Frame} (ignored : frame.mode = .ignored) (offset : Nat) (frames : List Frame) :
    (told rules sink (signalsAll offset elements)).on ⟨frame :: frames, path, none, state⟩ =
      (.ok (), ⟨frame :: frames, path, none, state⟩) := by
  match elements with
  | [] =>
      rw [signalsAll]
      rfl
  | element :: rest =>
      rw [FormedAll] at formed
      have inside := @told_body_ignored element formed.1
        (.bare (element.heading.header offset) .ignored path) rfl offset rfl (frame :: frames)
      have others := told_ignored rest formed.2 ignored (offset + element.octets.length) frames
      have stops := @stop_bare _ rules sink (frame :: frames) path none state
        (element.heading.header offset) .ignored path element.heading.tag rfl (by decide)
      rw [told_elements, Attempt.on_bind, start_ignored ignored]
      simp only [Attempt.on_bind, inside, stops, others]

end

mutual

/-- What stands inside an element of any content is captured. -/
theorem told_body_captured (element : Element encoding) (formed : element.Formed) {frame : Frame}
    (captured : frame.mode = .captured) {offset : Nat}
    (same : frame.header = element.heading.header offset) (frames : List Frame)
    (capture : Capture) :
    ∃ after : Capture, after.depth = capture.depth ∧
      after.octets = capture.octets ++ element.content ∧
        (told rules sink (element.body offset)).on ⟨frame :: frames, path, some capture, state⟩ =
          (.ok (), ⟨frame :: frames, path, some after, state⟩) := by
  match element with
  | .leaf heading value =>
      rw [Formed] at formed
      have primitive : frame.header.constructed = false := by rw [same]; exact formed
      refine ⟨capture.add value, rfl, by simp [Capture.octets, Capture.add, content], ?_⟩
      rw [body, told_value, value_captured captured primitive]
      rfl
  | .branch heading children =>
      rw [Formed] at formed
      rw [body]
      exact told_captured children formed.2 _ (frame :: frames) capture

/-- Elements inside an element of any content are captured, headings and all. -/
theorem told_captured (elements : List (Element encoding)) (formed : FormedAll elements)
    (offset : Nat) (frames : List Frame) (capture : Capture) :
    ∃ after : Capture, after.depth = capture.depth ∧
      after.octets = capture.octets ++ octetsAll elements ∧
        (told rules sink (signalsAll offset elements)).on ⟨frames, path, some capture, state⟩ =
          (.ok (), ⟨frames, path, some after, state⟩) := by
  match elements with
  | [] =>
      refine ⟨capture, rfl, by simp [octetsAll], ?_⟩
      rw [signalsAll]
      rfl
  | element :: rest =>
      rw [FormedAll] at formed
      obtain ⟨middle, deep, inside, told_inside⟩ :=
        @told_body_captured element formed.1
          (.bare (element.heading.header offset) .captured path) rfl offset rfl frames
          (capture.add element.heading.octets)
      obtain ⟨after, deep', others, told_others⟩ :=
        told_captured rest formed.2 (offset + element.octets.length) frames middle
      refine ⟨after, deep'.trans deep, ?_, ?_⟩
      · rw [others, inside, octetsAll, octets_eq]
        simp [Capture.octets, Capture.add]
      · have stops := @stop_bare _ rules sink frames path (some middle) state
          (element.heading.header offset) .captured path element.heading.tag rfl (by decide)
        rw [told_elements, Attempt.on_bind, start_captured]
        simp only [Attempt.on_bind, Heading.header] at told_inside stops ⊢
        simp only [told_inside, stops, told_others]

end

end

end Walk

end BerRecords
