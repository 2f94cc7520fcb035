import BerRecords.DecodeError

/-!
# Attempts

A computation on a state that may fail. The state stays as the computation left
it, whether it failed or not.
-/

set_option autoImplicit false

namespace BerRecords

/-- A computation on a state `σ` that gives an `α` or a decode error. -/
abbrev Attempt (σ α : Type) := ExceptT DecodeError (StateM σ) α

abbrev Attempt.on {σ α : Type} (attempt : Attempt σ α) (state : σ) : Except DecodeError α × σ :=
  attempt.run.run state

namespace Attempt

variable {σ α β : Type}

@[simp] theorem on_pure (value : α) (state : σ) :
    (pure value : Attempt σ α).on state = (.ok value, state) := rfl

@[simp] theorem on_throw (error : DecodeError) (state : σ) :
    (throw error : Attempt σ α).on state = (.error error, state) := rfl

@[simp] theorem on_get (state : σ) : (get : Attempt σ σ).on state = (.ok state, state) := rfl

@[simp] theorem on_set (state after : σ) :
    (set after : Attempt σ PUnit).on state = (.ok ⟨⟩, after) := rfl

@[simp] theorem on_modify (change : σ → σ) (state : σ) :
    (modify change : Attempt σ PUnit).on state = (.ok ⟨⟩, change state) := rfl

/-- An attempt runs its first part and, if that succeeds, the rest on what it left. -/
theorem on_bind (first : Attempt σ α) (rest : α → Attempt σ β) (state : σ) :
    (first >>= rest).on state =
      match first.on state with
      | (.ok value, after) => (rest value).on after
      | (.error error, after) => (.error error, after) := by
  show (ExceptT.bind first rest).run.run state = _
  simp only [ExceptT.bind, ExceptT.run, ExceptT.mk, StateT.run, bind, StateT.bind, Attempt.on]
  rcases first state with ⟨_ | _, _⟩ <;> rfl

theorem on_map (change : α → β) (first : Attempt σ α) (state : σ) :
    (change <$> first).on state =
      match first.on state with
      | (.ok value, after) => (.ok (change value), after)
      | (.error error, after) => (.error error, after) := by
  rw [map_eq_pure_bind, on_bind]
  rfl

end Attempt

end BerRecords
