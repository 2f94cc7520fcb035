import BerRecords.Attempt

/-! How attempts end, and which never end a run that tolerates errors. -/

set_option autoImplicit false

namespace BerRecords.Attempt

variable {σ α β : Type}

/-- The run fails with an error that is not fatal, or gives what it should. -/
inductive Safe (post : α → σ → Prop) : Except DecodeError α × σ → Prop where
  | error {error : DecodeError} {state : σ} : error.isFatal = false → Safe post (.error error, state)
  | ok {value : α} {state : σ} : post value state → Safe post (.ok value, state)

namespace Safe

variable {post : α → σ → Prop}

theorem bind {first : Attempt σ α} {rest : α → Attempt σ β} {state : σ} {last : β → σ → Prop}
    (safe : Safe post (first.on state))
    (later : ∀ value state, post value state → Safe last ((rest value).on state)) :
    Safe last ((first >>= rest).on state) := by
  rw [on_bind]
  generalize first.on state = ran at safe ⊢
  cases safe with
  | error mild => exact .error mild
  | ok done => exact later _ _ done

theorem get {rest : σ → Attempt σ α} {state : σ} (safe : Safe post ((rest state).on state)) :
    Safe post ((MonadState.get >>= rest).on state) := by
  rw [on_bind]
  exact safe

theorem modified {change : σ → σ} {rest : Unit → Attempt σ α} {state : σ}
    (safe : Safe post ((rest ()).on (change state))) :
    Safe post ((modify change >>= rest).on state) := by
  rw [on_bind]
  exact safe

theorem mono {ran : Except DecodeError α × σ} {last : α → σ → Prop} (safe : Safe post ran)
    (weaker : ∀ value state, post value state → last value state) : Safe last ran := by
  cases safe with
  | error mild => exact .error mild
  | ok done => exact .ok (weaker _ _ done)

end Safe

inductive Ends (failed : DecodeError → σ → Prop) (post : α → σ → Prop) :
    Except DecodeError α × σ → Prop where
  | error {error : DecodeError} {state : σ} : failed error state → Ends failed post (.error error, state)
  | ok {value : α} {state : σ} : post value state → Ends failed post (.ok value, state)

namespace Ends

variable {failed : DecodeError → σ → Prop} {post : α → σ → Prop}

theorem bind {first : Attempt σ α} {rest : α → Attempt σ β} {state : σ} {last : β → σ → Prop}
    (ends : Ends failed post (first.on state))
    (later : ∀ value state, post value state → Ends failed last ((rest value).on state)) :
    Ends failed last ((first >>= rest).on state) := by
  rw [on_bind]
  generalize first.on state = ran at ends ⊢
  cases ends with
  | error halted => exact .error halted
  | ok done => exact later _ _ done

theorem get {rest : σ → Attempt σ α} {state : σ} (ends : Ends failed post ((rest state).on state)) :
    Ends failed post ((MonadState.get >>= rest).on state) := by
  rw [on_bind]
  exact ends

theorem mono {ran : Except DecodeError α × σ} {last : α → σ → Prop} (ends : Ends failed post ran)
    (weaker : ∀ value state, post value state → last value state) : Ends failed last ran := by
  cases ends with
  | error halted => exact .error halted
  | ok done => exact .ok (weaker _ _ done)

/-- What is known of a run that gives a value may be added. -/
theorem and_safe {ran : Except DecodeError α × σ} {also : α → σ → Prop} (ends : Ends failed post ran)
    (safe : Safe also ran) :
    Ends failed (fun value state => post value state ∧ also value state) ran := by
  cases ends with
  | error halted => exact .error halted
  | ok done =>
      cases safe with
      | ok known => exact .ok ⟨done, known⟩

end Ends

end BerRecords.Attempt
