import BerRecords.Element.Drive
import BerRecords.Proofs.Reader.Heading

/-!
# Traces of a reader

A reader alone takes labelled steps: each step gives a signal. Driving a visitor is
following these steps as far as the visitor accepts the signals, so what a visitor
is told can be studied apart from what it does with it.
-/

set_option autoImplicit false

namespace BerRecords

variable {σ : Type}

def Visitor.tell (visitor : Visitor σ) : List Signal → Attempt σ Unit
  | [] => return ()
  | signal :: rest => do
    visitor signal
    Visitor.tell visitor rest

namespace Visitor

variable (visitor : Visitor σ) (state : σ)

theorem tell_cons (signal : Signal) (rest : List Signal) :
    (tell visitor (signal :: rest)).on state =
      match (visitor signal).on state with
      | (.ok _, after) => (tell visitor rest).on after
      | (.error error, after) => (.error error, after) := by
  rw [tell, Attempt.on_bind]
  rcases (visitor signal).on state with ⟨error | value, after⟩ <;> rfl

theorem tell_append (front back : List Signal) :
    tell visitor (front ++ back) = (do tell visitor front; tell visitor back) := by
  induction front with
  | nil => rfl
  | cons signal front ih => simp [tell, ih]

end Visitor

namespace Reader

inductive Step : Reader → List Open → Signal → Reader → List Open → Prop where
  | start {reader : Reader} {top : Open} {outer : List Open} {heading : Heading reader.encoding}
      {source : Source} :
      top.header.constructed = true →
      (heading.header reader.offset).stop ≤ top.header.stop →
      outer.length + 1 < reader.maxDepth →
      reader.source.Passes heading.octets source →
      Step reader (top :: outer) (.start (heading.header reader.offset))
        (reader.advance heading.octets.length source)
        (⟨heading.header reader.offset, false⟩ :: top :: outer)
  | value {reader : Reader} {top : Open} {outer : List Open} {octets : Octets}
      {source : Source} :
      top.header.constructed = false → top.valueRead = false →
      octets.length = top.header.length →
      reader.source.Passes octets source →
      Step reader (top :: outer) (.value octets) (reader.advance octets.length source)
        (⟨top.header, true⟩ :: outer)
  | stopBranch {reader : Reader} {top : Open} {outer : List Open} :
      top.header.constructed = true → reader.offset = top.header.stop →
      Step reader (top :: outer) (.stop top.header.tag) reader outer
  | stopLeaf {reader : Reader} {top : Open} {outer : List Open} :
      top.header.constructed = false → top.valueRead = true →
      Step reader (top :: outer) (.stop top.header.tag) reader outer

theorem readValue_ok_iff {header : Header} {reader after : Reader} {octets : Octets} :
    (readValue header).on reader = (.ok octets, after) ↔
      octets.length = header.length ∧
        ∃ source, reader.source.Passes octets source ∧
          after = reader.advance octets.length source := by
  simp only [Attempt.on, ExceptT.run, StateT.run, readValue]
  constructor
  · intro read
    split at read
    · rename_i filled
      cases read
      obtain ⟨passes, counted⟩ := Source.passes_take filled
      exact ⟨counted, _, passes, rfl⟩
    · cases read
    · cases read
  · rintro ⟨counted, source, passes, rfl⟩
    rw [← counted, passes.take]
    rfl

private theorem start_le {encoding : TagEncoding} (heading : Heading encoding) (offset : Nat) :
    offset < (heading.header offset).stop := by
  have some_octets := List.length_pos_iff.2 heading.octets_ne_nil
  simp only [Header.stop, Header.contentStart, Header.size, Heading.header]
  omega

/-- The executable step succeeds exactly as the relation says. -/
theorem step_ok_iff {top : Open} {outer stack : List Open} {reader after : Reader}
    {signal : Signal} :
    (step top outer).on reader = (.ok (signal, stack), after) ↔
      Step reader (top :: outer) signal after stack := by
  constructor
  · intro stepped
    rw [step] at stepped
    cases constructed : top.header.constructed with
    | true =>
        simp only [constructed, ↓reduceIte, Attempt.on_bind, Attempt.on_get] at stepped
        split at stepped
        · rw [Attempt.on_bind] at stepped
          rcases opened : (openElement (some top.header) (outer.length + 1)).on reader with
            ⟨error | none | child, middle⟩
          · simp [opened] at stepped
          · simp [opened] at stepped
          · simp only [opened, Attempt.on_pure, Prod.mk.injEq, Except.ok.injEq] at stepped
            obtain ⟨⟨rfl, rfl⟩, rfl⟩ := stepped
            obtain ⟨heading, rfl, within, shallow, source, passes, rfl⟩ :=
              openElement_some_iff.1 opened
            exact .start constructed (within_some.1 within) shallow passes
        · split at stepped
          · rename_i ended
            cases stepped
            exact .stopBranch constructed ended
          · cases stepped
    | false =>
        simp only [constructed, Bool.false_eq_true, ↓reduceIte] at stepped
        cases valueRead : top.valueRead with
        | true =>
            simp only [valueRead, ↓reduceIte, Attempt.on_pure, Prod.mk.injEq,
              Except.ok.injEq] at stepped
            obtain ⟨⟨rfl, rfl⟩, rfl⟩ := stepped
            exact .stopLeaf constructed valueRead
        | false =>
            simp only [valueRead, Bool.false_eq_true, ↓reduceIte, Attempt.on_bind] at stepped
            rcases read : (readValue top.header).on reader with ⟨error | octets, middle⟩
            · simp [read] at stepped
            · simp only [read, Attempt.on_pure, Prod.mk.injEq, Except.ok.injEq] at stepped
              obtain ⟨⟨rfl, rfl⟩, rfl⟩ := stepped
              obtain ⟨counted, source, passes, rfl⟩ := readValue_ok_iff.1 read
              exact .value constructed valueRead counted passes
  · intro stepped
    rw [step]
    cases stepped with
    | start constructed within shallow passes =>
        have inside := Nat.lt_of_lt_of_le (start_le _ _) within
        have opened := openElement_some_iff.2
          ⟨_, rfl, within_some.2 within, shallow, _, passes, rfl⟩
        simp [constructed, Attempt.on_bind, inside, opened, atHand]
    | value constructed valueRead counted passes =>
        have read := readValue_ok_iff.2 ⟨counted, _, passes, rfl⟩
        simp [constructed, valueRead, Attempt.on_map, read]
    | stopBranch constructed ended => simp [constructed, Attempt.on_bind, ended]
    | stopLeaf constructed valueRead => simp [constructed, valueRead]

inductive Steps : Reader → List Open → List Signal → Reader → List Open → Prop where
  | refl {reader : Reader} {stack : List Open} : Steps reader stack [] reader stack
  | head {reader middle after : Reader} {stack between rest : List Open} {signal : Signal}
      {signals : List Signal} :
      Step reader stack signal middle between → Steps middle between signals after rest →
      Steps reader stack (signal :: signals) after rest

theorem Steps.trans {reader middle after : Reader} {stack between rest : List Open}
    {front back : List Signal} (first : Steps reader stack front middle between)
    (second : Steps middle between back after rest) :
    Steps reader stack (front ++ back) after rest := by
  induction first with
  | refl => exact second
  | head step _ ih => exact .head step (ih second)

theorem Steps.single {reader after : Reader} {stack rest : List Open} {signal : Signal}
    (step : Step reader stack signal after rest) : Steps reader stack [signal] after rest :=
  .head step .refl

/-- How driving a visitor may end: all elements closed, or the reader stuck, or the
visitor refusing the last of the signals. -/
inductive Driven (visitor : Visitor σ) (reader : Reader) (state : σ) (stack : List Open) :
    Except DecodeError Unit × Reader × σ → Prop where
  | finished {signals : List Signal} {after : Reader} {state' : σ} :
      Steps reader stack signals after [] →
      (visitor.tell signals).on state = (.ok (), state') →
      Driven visitor reader state stack (.ok (), after, state')
  | broken {signals : List Signal} {middle after : Reader} {top : Open} {outer : List Open}
      {error : DecodeError} {state' : σ} :
      Steps reader stack signals middle (top :: outer) →
      (visitor.tell signals).on state = (.ok (), state') →
      (step top outer).on middle = (.error error, after) →
      Driven visitor reader state stack (.error error, after, state')
  | refused {signals : List Signal} {signal : Signal} {after : Reader} {rest : List Open}
      {error : DecodeError} {before state' : σ} :
      Steps reader stack (signals ++ [signal]) after rest →
      (visitor.tell signals).on state = (.ok (), before) →
      (visitor signal).on before = (.error error, state') →
      Driven visitor reader state stack (.error error, after, state')

private theorem Driven.cons {visitor : Visitor σ} {reader middle : Reader} {state before : σ}
    {stack between : List Open} {signal : Signal} {ran : Except DecodeError Unit × Reader × σ}
    (step : Step reader stack signal middle between)
    (accepted : (visitor signal).on state = (.ok (), before))
    (driven : Driven visitor middle before between ran) : Driven visitor reader state stack ran := by
  cases driven with
  | finished steps told =>
      exact .finished (.head step steps) (by simp [Visitor.tell_cons, accepted, told])
  | broken steps told stuck =>
      exact .broken (.head step steps) (by simp [Visitor.tell_cons, accepted, told]) stuck
  | @refused signals last _ _ _ _ _ steps told refused =>
      have longer : Steps reader stack ((signal :: signals) ++ [last]) _ _ := .head step steps
      exact .refused longer (by simp [Visitor.tell_cons, accepted, told]) refused

theorem driven (visitor : Visitor σ) (reader : Reader) (state : σ) (stack : List Open) :
    Driven visitor reader state stack (drive visitor reader state stack) := by
  fun_induction drive visitor reader state stack with
  | case1 => exact .finished .refl rfl
  | case2 reader state top outer error after stuck => exact .broken .refl rfl stuck
  | case3 reader state top outer signal stack after stepped error state' refused =>
      have steps : Steps reader (top :: outer) ([] ++ [signal]) after stack :=
        .single (step_ok_iff.1 stepped)
      exact .refused steps rfl refused
  | case4 reader state top outer signal stack after stepped state' accepted ih =>
      exact .cons (step_ok_iff.1 stepped) accepted ih

theorem drive_cons (visitor : Visitor σ) (reader : Reader) (state : σ) (top : Open)
    (outer : List Open) :
    drive visitor reader state (top :: outer) =
      match (step top outer).on reader with
      | (.error error, reader) => (.error error, reader, state)
      | (.ok (signal, stack), reader) =>
        match (visitor signal).on state with
        | (.error error, state) => (.error error, reader, state)
        | (.ok (), state) => drive visitor reader state stack := by
  rw [drive]
  split
  · rename_i stuck
    exact stuck ▸ rfl
  · rename_i stepped
    exact stepped ▸ rfl

private theorem drive_step {visitor : Visitor σ} {reader after : Reader} {state : σ}
    {stack rest : List Open} {signal : Signal} (stepped : Step reader stack signal after rest) :
    drive visitor reader state stack =
      match (visitor signal).on state with
      | (.error error, state) => (.error error, after, state)
      | (.ok (), state) => drive visitor after state rest := by
  cases stack with
  | nil => cases stepped
  | cons top outer => rw [drive_cons, step_ok_iff.2 stepped]

/-- Steps whose signals a visitor accepts are followed. -/
theorem drive_of_steps {visitor : Visitor σ} {reader after : Reader} {state state' : σ}
    {stack rest : List Open} {signals : List Signal}
    (steps : Steps reader stack signals after rest)
    (told : (visitor.tell signals).on state = (.ok (), state')) :
    drive visitor reader state stack = drive visitor after state' rest := by
  induction steps generalizing state with
  | refl =>
      cases told
      rfl
  | @head _ _ _ _ _ _ signal _ step _ ih =>
      rw [Visitor.tell_cons] at told
      rcases accepted : (visitor signal).on state with ⟨error | ⟨⟩, before⟩
      · simp [accepted] at told
      · simp only [accepted] at told
        rw [drive_step step, accepted]
        exact ih told

/-- Steps are followed up to the first signal that a visitor refuses. -/
theorem drive_of_steps_refused {visitor : Visitor σ} {reader after : Reader} {state state' : σ}
    {stack rest : List Open} {signals : List Signal} {error : DecodeError}
    (steps : Steps reader stack signals after rest)
    (told : (visitor.tell signals).on state = (.error error, state')) :
    ∃ left, drive visitor reader state stack = (.error error, left, state') := by
  induction steps generalizing state with
  | refl => cases told
  | @head _ middle _ _ _ _ signal _ step _ ih =>
      rw [Visitor.tell_cons] at told
      rw [drive_step step]
      rcases accepted : (visitor signal).on state with ⟨error | ⟨⟩, before⟩
      · simp only [accepted, Prod.mk.injEq, Except.error.injEq] at told
        obtain ⟨rfl, rfl⟩ := told
        exact ⟨middle, rfl⟩
      · simp only [accepted] at told
        exact ih told

end Reader

end BerRecords
