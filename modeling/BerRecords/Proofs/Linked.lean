import BerRecords.Attempt

/-! Two attempts on states of different kinds, run side by side. -/

set_option autoImplicit false

namespace BerRecords.Attempt

variable {σ τ α β γ δ : Type}

/-- Both runs fail, related by `failed`, or both give a value, related by `done`. -/
inductive Linked (failed : DecodeError → σ → DecodeError → τ → Prop)
    (done : α → σ → β → τ → Prop) : Except DecodeError α × σ → Except DecodeError β × τ → Prop where
  | error {error : DecodeError} {state : σ} {error' : DecodeError} {state' : τ} :
      failed error state error' state' →
      Linked failed done (.error error, state) (.error error', state')
  | ok {value : α} {state : σ} {value' : β} {state' : τ} :
      done value state value' state' → Linked failed done (.ok value, state) (.ok value', state')

namespace Linked

variable {failed : DecodeError → σ → DecodeError → τ → Prop} {done : α → σ → β → τ → Prop}

theorem bind {first : Attempt σ α} {first' : Attempt τ β} {rest : α → Attempt σ γ}
    {rest' : β → Attempt τ δ} {state : σ} {state' : τ} {after : γ → σ → δ → τ → Prop}
    (linked : Linked failed done (first.on state) (first'.on state'))
    (later : ∀ value state value' state', done value state value' state' →
      Linked failed after ((rest value).on state) ((rest' value').on state')) :
    Linked failed after ((first >>= rest).on state) ((first' >>= rest').on state') := by
  rw [on_bind, on_bind]
  generalize first.on state = ran at linked ⊢
  generalize first'.on state' = ran' at linked ⊢
  cases linked with
  | error related => exact .error related
  | ok related => exact later _ _ _ _ related

theorem mono {ran : Except DecodeError α × σ} {ran' : Except DecodeError β × τ}
    {after : α → σ → β → τ → Prop} (linked : Linked failed done ran ran')
    (weaker : ∀ value state value' state', done value state value' state' →
      after value state value' state') : Linked failed after ran ran' := by
  cases linked with
  | error related => exact .error related
  | ok related => exact .ok (weaker _ _ _ _ related)

end Linked

end BerRecords.Attempt
