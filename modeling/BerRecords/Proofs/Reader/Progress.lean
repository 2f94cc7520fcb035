import BerRecords.Proofs.Reader.Acceptance

/-!
# How far a reader gets

The signals that a reader gives of the element ahead, whoever receives them, and the errors
that it raises itself. Reading an element with a visitor ends where the reader or the visitor
ends it.
-/

set_option autoImplicit false

namespace BerRecords.Reader

variable {σ : Type}

/-- From `start` on a reader gives these signals of the element ahead, and then is at
`reader` with these elements open. -/
inductive Tells (start : Reader) : List Signal → Reader → List Open → Prop where
  | opened {header : Header} {first reader : Reader} {signals : List Signal} {stack : List Open} :
      (openElement none 0).on start.between = (.ok (some header), first) →
      Steps first [⟨header, false⟩] signals reader stack →
      Tells start (.start header :: signals) reader stack

inductive Raises (start : Reader) : List Signal → DecodeError → Prop where
  | heading {error : DecodeError} {after : Reader} :
      (openElement none 0).on start.between = (.error error, after) → Raises start [] error
  | inside {signals : List Signal} {reader after : Reader} {top : Open} {outer : List Open}
      {error : DecodeError} : Tells start signals reader (top :: outer) →
      (step top outer).on reader = (.error error, after) → Raises start signals error

/-- How reading an element can end: there is none, it was read, the reader has failed, or the
visitor has refused the last signal. -/
inductive Attends (visitor : Visitor σ) (start : Reader) (state : σ) :
    Except DecodeError (Option Header) × Reader × σ → Prop where
  | absent {after : Reader} : (openElement none 0).on start.between = (.ok none, after) →
      Attends visitor start state (.ok none, after, state)
  | complete {signals : List Signal} {header : Header} {reader : Reader} {after : σ} :
      Tells start signals reader [] → (visitor.tell signals).on state = (.ok (), after) →
      Attends visitor start state (.ok (some header), reader.between, after)
  | raised {signals : List Signal} {error : DecodeError} {reader : Reader} {after : σ} :
      Raises start signals error → (visitor.tell signals).on state = (.ok (), after) →
      Attends visitor start state (.error error, reader, after)
  | refused {signals : List Signal} {signal : Signal} {reader : Reader} {stack : List Open}
      {error : DecodeError} {before after : σ} : Tells start (signals ++ [signal]) reader stack →
      (visitor.tell signals).on state = (.ok (), before) →
      (visitor signal).on before = (.error error, after) →
      Attends visitor start state (.error error, reader, after)

theorem attends (visitor : Visitor σ) (start : Reader) (state : σ) :
    Attends visitor start state ((nextElement visitor).on (start, state)) := by
  rw [nextElement_on]
  rcases opened : (openElement none 0).on start.between with ⟨error | none | header, first⟩
  · exact .raised (.heading opened) rfl
  · exact .absent opened
  · dsimp only
    rcases started : (visitor (.start header)).on state with ⟨error | ⟨⟩, entered⟩
    · have alone : Tells start ([] ++ [.start header]) first [⟨header, false⟩] :=
        .opened opened .refl
      exact .refused alone rfl started
    · have told {signals : List Signal} {after : σ}
          (accepted : (visitor.tell signals).on entered = (.ok (), after)) :
          (visitor.tell (.start header :: signals)).on state = (.ok (), after) := by
        rw [Visitor.tell_cons, started]
        exact accepted
      have driven := driven visitor first entered [⟨header, false⟩]
      dsimp only
      generalize drive visitor first entered [⟨header, false⟩] = ran at driven
      cases driven with
      | finished steps accepted => exact .complete (.opened opened steps) (told accepted)
      | broken steps accepted stuck => exact .raised (.inside (.opened opened steps) stuck) (told accepted)
      | @refused signals signal _ _ _ _ _ steps accepted refused =>
          have longer : Tells start ((.start header :: signals) ++ [signal]) _ _ :=
            .opened opened steps
          exact .refused longer (told accepted) refused

/-- If a visitor takes all signals before it, an error of the reader ends the reading. -/
theorem nextElement_of_raises {visitor : Visitor σ} {start : Reader} {state after : σ}
    {signals : List Signal} {error : DecodeError} (raises : Raises start signals error)
    (told : (visitor.tell signals).on state = (.ok (), after)) :
    ∃ reader, (nextElement visitor).on (start, state) = (.error error, reader, after) := by
  rw [nextElement_on]
  cases raises with
  | heading opened =>
      cases told
      rw [opened]
      exact ⟨_, rfl⟩
  | inside tells stuck =>
      cases tells with
      | @opened header first _ signals _ opened steps =>
          rw [Visitor.tell_cons] at told
          rcases started : (visitor (.start header)).on state with ⟨error | ⟨⟩, entered⟩
          · rw [started] at told
            cases told
          · rw [started] at told
            rw [opened]
            dsimp only
            rw [started]
            dsimp only
            rw [drive_of_steps steps told, drive_cons, stuck]
            exact ⟨_, rfl⟩

end BerRecords.Reader
