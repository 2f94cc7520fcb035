import BerRecords.Proofs.Reader.Progress
import BerRecords.Proofs.Walk.Standing

/-!
# The course of a walk that is led

Signal by signal a walk that a reader leads stands where the reader has elements open, until
it fails or has told of one nesting.
-/

set_option autoImplicit false

namespace BerRecords.Walk

open Attempt (Ends)
open Reader (Open Step Steps Tells)
open Telling (Spine Left Begins Nesting writer)

variable {rules : Rules} {opened : List Opened} {reader after start : Reader}
  {stack rest : List Open} {signal : Signal} {signals : List Signal} {walk : Walk (List Telling)}

structure Follows (stack : List Open) (opened : List Opened) (walk : Walk (List Telling)) : Prop where
  led : Leads (fun _ _ _ => True) stack walk
  standing : Standing Left opened walk

theorem frames_ne_nil {top : Open} (led : Leads (fun _ _ _ => True) (top :: rest) walk) :
    walk.frames ≠ [] := by
  intro idle
  have headers := led.headers_eq
  rw [idle] at headers
  cases headers

theorem ends_of_spine {ran : Except DecodeError Unit × Walk (List Telling)} {top : Open}
    (ends : Ends Halts (fun _ => Standing Spine opened) ran)
    (safe : Attempt.Safe (fun _ => Leads (fun _ _ _ => True) (top :: rest)) ran) :
    Ends Halts (fun _ => Follows (top :: rest) opened) ran := by
  refine (ends.and_safe safe).mono ?_
  rintro _ walk ⟨standing, led⟩
  exact ⟨led, standing.left led.posture (frames_ne_nil led)⟩

/-- What a step of the reader says brings the walk to where the reader then is. -/
theorem ends_visitor (step : Step reader stack signal after rest) (follows : Follows stack opened walk) :
    Ends Halts (fun _ => Follows rest (Opened.after rules.schema opened signal))
      ((visitor rules writer signal).on walk) := by
  obtain ⟨led, standing⟩ := follows
  have safe := @safe_visitor _ _ rules _ writer_nests _ _ _ _ _ step _ led
  rcases walk with ⟨_ | ⟨frame, frames⟩, path, capture, script⟩
  · cases step with
    | start | value | stopBranch | stopLeaf => cases led.headers_eq
  · have standing := standing.spine led.posture (by simp)
    have header_eq : (stack.map (·.header)).head? = some frame.header :=
      congrArg List.head? led.headers_eq.symm
    have branches (top : Open) (outer : List Open) (same : stack = top :: outer)
        (constructed : top.header.constructed = true) :
        ∀ other ∈ (frame :: frames).head?, other.header.constructed = true := by
      subst same
      rintro _ ⟨⟩
      rw [← Option.some.inj header_eq]
      exact constructed
    cases step with
    | start constructed =>
        exact ends_of_spine (ends_startElement standing led (branches _ _ rfl constructed) _) safe
    | value => exact ends_of_spine (ends_takeValue standing _) safe
    | stopBranch | stopLeaf =>
        rcases opened with _ | ⟨top, around⟩
        · cases standing.stands
        · have same := (congrArg Header.tag (Option.some.inj header_eq)).symm
          refine Ends.mono (Ends.and_safe (ends_stopElement standing led.posture same) safe) ?_
          rintro _ walk ⟨standing, led⟩
          exact ⟨led, standing⟩

theorem ends_steps (steps : Steps reader stack signals after rest)
    (follows : Follows stack opened walk) :
    Ends Halts (fun _ => Follows rest (signals.foldl (Opened.after rules.schema) opened))
      (((visitor rules writer).tell signals).on walk) := by
  induction steps generalizing opened walk with
  | refl => exact .ok follows
  | head step _ ih =>
      rw [Visitor.tell]
      refine (ends_visitor step follows).bind ?_
      intro _ walk follows
      exact ih follows

/-- A walk between elements stands inside the element ahead after the signals of it. -/
theorem ends_tells (tells : Tells start signals reader stack) :
    Ends Halts (fun _ => Follows stack (Opened.afterAll rules.schema signals))
      (((visitor rules writer).tell signals).on (.start [])) := by
  cases tells with
  | @opened header first _ signals _ _ steps =>
      have idle : Poised (fun _ _ _ => True) 0 [] (Walk.start ([] : List Telling)) := poised_start trivial
      have standing : Standing Spine [] (Walk.start ([] : List Telling)) := ⟨.nil, rfl, .nil⟩
      have safe : Attempt.Safe (fun _ => Leads (fun _ _ _ => True) [⟨header, false⟩])
          ((visitor rules writer (.start header)).on (Walk.start [])) :=
        safe_startElement writer_nests idle (by simp) header
      have ends : Ends Halts (fun _ => Standing Spine (Opened.after rules.schema [] (.start header)))
          ((visitor rules writer (.start header)).on (Walk.start [])) :=
        ends_startElement standing idle (by simp) header
      rw [Visitor.tell]
      refine (ends_of_spine ends safe).bind ?_
      intro _ walk follows
      exact ends_steps steps follows

/-- When no element is open any more, one nesting has been told. -/
theorem Follows.nesting (follows : Follows [] opened walk) :
    ∃ script, Nesting script ∧ walk = .start script := by
  obtain ⟨led, standing⟩ := follows
  obtain ⟨script, -, rfl⟩ := eq_start_of_leads led
  refine ⟨script, ?_, rfl⟩
  have stands := standing.stands
  have left := standing.said
  cases stands
  exact left

theorem Follows.begins (follows : Follows stack opened walk) : Begins walk.sink := by
  cases stack with
  | nil =>
      obtain ⟨script, nesting, rfl⟩ := follows.nesting
      exact nesting.begins
  | cons top outer =>
      obtain ⟨led, standing⟩ := follows
      exact (standing.spine led.posture (frames_ne_nil led)).said.begins

end BerRecords.Walk
