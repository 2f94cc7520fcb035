import BerRecords.Proofs.Reader.Acceptance

/-!
# Visitors in lockstep

What a reader may say next depends on the open elements alone. Two visitors that take all of it
therefore never part: reading ends for both at the same place and in the same way.
-/

set_option autoImplicit false

namespace BerRecords

namespace Reader

inductive Gives : List Open → Signal → List Open → Prop where
  | start {stack : List Open} (header : Header) :
      (∀ top ∈ stack.head?, top.header.constructed = true) →
      Gives stack (.start header) (⟨header, false⟩ :: stack)
  | value {header : Header} {outer : List Open} (octets : Octets) :
      header.constructed = false →
      Gives (⟨header, false⟩ :: outer) (.value octets) (⟨header, true⟩ :: outer)
  | stop {top : Open} {outer : List Open} :
      top.header.constructed = true ∨ top.valueRead = true →
      Gives (top :: outer) (.stop top.header.tag) outer

theorem Step.gives {reader after : Reader} {stack rest : List Open} {signal : Signal}
    (step : Step reader stack signal after rest) : Gives stack signal rest := by
  cases step with
  | start constructed =>
      refine .start _ ?_
      rintro _ ⟨⟩
      exact constructed
  | @value top _ octets _ primitive unread =>
      obtain ⟨header, valueRead⟩ := top
      subst unread
      exact .value octets primitive
  | stopBranch constructed => exact .stop (.inl constructed)
  | stopLeaf _ valueRead => exact .stop (.inr valueRead)

section

variable {σ τ : Type} {visitor : Visitor σ} {other : Visitor τ}
  {related : List Open → σ → τ → Prop}

/-- Both visitors take whatever a reader may say, and their states stay related. -/
def Lockstep (visitor : Visitor σ) (other : Visitor τ) (related : List Open → σ → τ → Prop) : Prop :=
  ∀ {stack : List Open} {signal : Signal} {rest : List Open} {state : σ} {state' : τ},
    Gives stack signal rest → related stack state state' →
    ∃ after after', (visitor signal).on state = (.ok (), after) ∧
      (other signal).on state' = (.ok (), after') ∧ related rest after after'

inductive Alike {α : Type} (related : σ → τ → Prop) :
    Except DecodeError α × Reader × σ → Except DecodeError α × Reader × τ → Prop where
  | ok {value : α} {reader : Reader} {state : σ} {state' : τ} : related state state' →
      Alike related (.ok value, reader, state) (.ok value, reader, state')
  | error {error : DecodeError} {reader : Reader} {state : σ} {state' : τ} :
      Alike related (.error error, reader, state) (.error error, reader, state')

theorem Alike.of_ok {α : Type} {related : σ → τ → Prop} {value : α} {reader : Reader} {state : σ}
    {ran : Except DecodeError α × Reader × τ} (alike : Alike related (.ok value, reader, state) ran) :
    ∃ state', ran = (.ok value, reader, state') ∧ related state state' := by
  cases alike with
  | ok relates => exact ⟨_, rfl, relates⟩

theorem Alike.of_error {α : Type} {related : σ → τ → Prop} {error : DecodeError} {reader : Reader}
    {state : σ} {ran : Except DecodeError α × Reader × τ}
    (alike : Alike related (.error error, reader, state) ran) :
    ∃ state', ran = (.error error, reader, state') := by
  cases alike with
  | error => exact ⟨_, rfl⟩

theorem alike_drive (lockstep : Lockstep visitor other related) (reader : Reader) {state : σ}
    {state' : τ} {stack : List Open} (relates : related stack state state') :
    Alike (related []) (drive visitor reader state stack) (drive other reader state' stack) := by
  fun_induction drive visitor reader state stack generalizing state' with
  | case1 reader state =>
      rw [drive]
      exact .ok relates
  | case2 reader state top outer error after stuck =>
      rw [drive_cons, stuck]
      exact .error
  | case3 reader state top outer signal stack after stepped error state refused =>
      obtain ⟨_, _, taken, -⟩ := lockstep (step_ok_iff.1 stepped).gives relates
      rw [taken] at refused
      cases refused
  | case4 reader state top outer signal stack after stepped state accepted ih =>
      obtain ⟨_, before, taken, taken', later⟩ := lockstep (step_ok_iff.1 stepped).gives relates
      rw [taken] at accepted
      cases accepted
      simp only [drive_cons, stepped, taken']
      exact ih later

theorem alike_nextElement (lockstep : Lockstep visitor other related) (reader : Reader) {state : σ}
    {state' : τ} (relates : related [] state state') :
    Alike (related []) ((nextElement visitor).on (reader, state))
      ((nextElement other).on (reader, state')) := by
  rw [nextElement_on, nextElement_on]
  rcases (openElement none 0).on reader.between with ⟨error | none | header, opened⟩
  · exact .error
  · exact .ok relates
  · obtain ⟨before, before', taken, taken', started⟩ :=
      lockstep (.start header (by simp)) relates
    have driven := alike_drive lockstep opened started
    dsimp only
    rw [taken, taken']
    dsimp only
    generalize drive visitor opened before [⟨header, false⟩] = ran at driven ⊢
    generalize drive other opened before' [⟨header, false⟩] = ran' at driven ⊢
    cases driven with
    | ok done => exact .ok done
    | error => exact .error

/-- Whatever the source holds, reading it to its end comes to the same for both visitors. -/
theorem alike_process (lockstep : Lockstep visitor other related) (reader : Reader) {state : σ}
    {state' : τ} (relates : related [] state state') :
    Alike (related []) (process visitor reader state) (process other reader state') := by
  have next := alike_nextElement lockstep reader relates
  rw [process_on other]
  fun_induction process visitor reader state generalizing state' with
  | case1 reader state error after state read =>
      obtain ⟨last, read'⟩ := (read ▸ next).of_error
      rw [read']
      exact .error
  | case2 reader state after state read =>
      obtain ⟨last, read', done⟩ := (read ▸ next).of_ok
      rw [read']
      exact .ok done
  | case3 reader state header after state read ih =>
      obtain ⟨middle, read', later⟩ := (read ▸ next).of_ok
      rw [read']
      have goes := ih later (alike_nextElement lockstep after later)
      rwa [← process_on other] at goes

end

end Reader

end BerRecords
