import BerRecords.Proofs.Reader.Acceptance
import BerRecords.Proofs.Reader.Structural
import BerRecords.Proofs.Walk.Posture

/-! A walk that a reader leads through one top-level element, whatever the octets are. -/

set_option autoImplicit false

namespace BerRecords.Walk

open Reader (Open Step)

variable {σ : Type} {nested : List Bool → Nat → σ → Prop} {rules : Rules} {sink : Sink σ}

/-- The walk stands where the open elements of the reader are, and counts the top-level
element once it has ended. -/
def Leads (nested : List Bool → Nat → σ → Prop) (stack : List Open) (walk : Walk σ) : Prop :=
  Poised nested (if stack.map (·.header) = [] then 1 else 0) (stack.map (·.header)) walk

/-- What a step of the reader says brings the walk to where the reader then is. -/
theorem safe_visitor (nests : sink.Nests nested) {reader after : Reader} {stack rest : List Open}
    {signal : Signal} (step : Step reader stack signal after rest) {walk : Walk σ}
    (led : Leads nested stack walk) :
    Attempt.Safe (fun _ => Leads nested rest) ((visitor rules sink signal).on walk) := by
  cases step with
  | start constructed =>
      refine safe_startElement nests led ?_ _
      simpa using constructed
  | value primitive => exact safe_takeValue nests led primitive _
  | stopBranch => exact safe_stopElement nests led rfl
  | stopLeaf => exact safe_stopElement nests led rfl

/-- The elements that are open are read to their end, or fail in a way that may be
tolerated. -/
theorem safe_drive (nests : sink.Nests nested) (reader : Reader) {walk : Walk σ}
    {stack : List Open} (led : Leads nested stack walk) :
    Attempt.Safe (fun _ after => Leads nested [] after.2)
      (Reader.drive (visitor rules sink) reader walk stack) := by
  fun_induction Reader.drive (visitor rules sink) reader walk stack with
  | case1 => exact .ok led
  | case2 reader walk top outer error after stuck =>
      have breaks := Reader.structural_step top outer reader error (by rw [stuck])
      exact .error breaks.isFatal_eq
  | case3 reader walk top outer signal stack after stepped error walk' refused =>
      have safe := @safe_visitor _ _ rules _ nests _ _ _ _ _ (Reader.step_ok_iff.1 stepped) _ led
      rw [refused] at safe
      cases safe with
      | error mild => exact .error mild
  | case4 reader walk top outer signal stack after stepped walk' accepted ih =>
      have safe := @safe_visitor _ _ rules _ nests _ _ _ _ _ (Reader.step_ok_iff.1 stepped) _ led
      rw [accepted] at safe
      cases safe with
      | ok led => exact ih led

theorem eq_start_of_leads {walk : Walk σ} (led : Leads nested [] walk) :
    ∃ state, nested [] 1 state ∧ walk = start state := by
  rcases walk with ⟨_ | ⟨frame, outer⟩, path, capture, state⟩
  · obtain ⟨-, posture, rooted, known⟩ := led
    cases posture
    cases rooted
    exact ⟨state, known, rfl⟩
  · cases led.headers_eq

theorem poised_start {state : σ} (known : nested [] 0 state) :
    Poised nested 0 [] (start state) :=
  ⟨rfl, .trunk (by simp [Trunk, start]), rfl, known⟩

/-- A walk between elements is between elements again when one has been read. -/
theorem safe_nextElement (nests : sink.Nests nested) (reader : Reader) {state : σ}
    (known : nested [] 0 state) :
    Attempt.Safe (fun header? after => header? = none ∨
        ∃ state, nested [] 1 state ∧ after.2 = start state)
      ((Reader.nextElement (visitor rules sink)).on (reader, start state)) := by
  have opens := Reader.structural_openElement none 0 reader.between
  have idle := poised_start known
  rw [Reader.nextElement_on]
  rcases opened : (Reader.openElement none 0).on reader.between with ⟨error | none | header, after⟩
  · exact .error (opens error (by rw [opened])).isFatal_eq
  · exact .ok (.inl rfl)
  · have started := @safe_startElement _ _ _ _ rules _ _ nests idle (by simp) header
    have told : (visitor rules sink (.start header)).on (start state) =
        (startElement rules sink header).on (start state) := rfl
    dsimp only
    rw [told]
    generalize (startElement rules sink header).on (start state) = ran at started ⊢
    cases started with
    | error mild => exact .error mild
    | ok led =>
        have safe := @safe_drive _ _ rules _ nests after _ [⟨header, false⟩] led
        dsimp only
        generalize Reader.drive _ after _ _ = ran at safe ⊢
        cases safe with
        | error mild => exact .error mild
        | ok led => exact .ok (.inr (eq_start_of_leads led))

end BerRecords.Walk
