import BerRecords.Element.Reader.Work

/-!
# Driving a visitor

Elements are read one top-level element at a time, and each signal goes to a
visitor as soon as it is known. Reading stops where the visitor refuses. After a
failure the reader still knows the top-level element at hand, so what is left of
it can be skipped.
-/

set_option autoImplicit false

namespace BerRecords.Reader

variable {σ : Type}

def drive (visitor : Visitor σ) (reader : Reader) (state : σ) :
    List Open → Except DecodeError Unit × Reader × σ
  | [] => (.ok (), reader, state)
  | top :: outer =>
    match _stepped : (step top outer).on reader with
    | (.error error, reader) => (.error error, reader, state)
    | (.ok (signal, stack), reader) =>
      match (visitor signal).on state with
      | (.error error, state) => (.error error, reader, state)
      | (.ok (), state) => drive visitor reader state stack
termination_by stack => work reader stack
decreasing_by exact work_step _stepped

/-- Reads one top-level element; none when the source ends between two of them. -/
def nextElement (visitor : Visitor σ) : Attempt (Reader × σ) (Option Header) :=
  fun (reader, state) =>
    match (openElement none 0).on { reader with current := none } with
    | (.error error, reader) => (.error error, reader, state)
    | (.ok none, reader) => (.ok none, reader, state)
    | (.ok (some header), reader) =>
      match (visitor (.start header)).on state with
      | (.error error, state) => (.error error, reader, state)
      | (.ok (), state) =>
        match drive visitor reader state [⟨header, false⟩] with
        | (.error error, reader, state) => (.error error, reader, state)
        | (.ok (), reader, state) => (.ok (some header), { reader with current := none }, state)

/-- Discards what is left of the element at which reading failed. The answer is
whether the source now stands at that element's end. -/
def skipCurrent : Reading Bool := fun reader =>
  match reader.current with
  | none => (.ok false, reader)
  | some header =>
    let reader := { reader with current := none }
    if header.stop < reader.offset then (.ok false, reader)
    else
      let taken := reader.source.take (header.stop - reader.offset)
      let reader := { reader with
        source := taken.rest, offset := reader.offset + taken.octets.length }
      match taken.halt with
      | .filled => (.ok true, reader)
      | .exhausted => (.ok false, reader)
      | .failed reason => (.error (.source reason), reader)

theorem drive_later (visitor : Visitor σ) (reader : Reader) (state : σ) (stack : List Open) :
    Later reader (drive visitor reader state stack).2.1 := by
  fun_induction drive visitor reader state stack with
  | case1 => exact .refl _
  | case2 reader state top outer error after stepped =>
    have later := step_shrinks top outer reader
    rwa [stepped] at later
  | case3 reader state top outer signal stack after stepped error state' refused =>
    have later := step_shrinks top outer reader
    rwa [stepped] at later
  | case4 reader state top outer signal stack after stepped state' accepted ih =>
    have later := step_shrinks top outer reader
    rw [stepped] at later
    exact later.trans ih

/-- Reading an element takes octets from the source, and so does every failure that
leaves an element at hand. -/
theorem nextElement_opened (visitor : Visitor σ) (reader : Reader) (state : σ) :
    Opened reader
      (match ((nextElement visitor).on (reader, state)).1 with
        | .ok (some _) => true
        | _ => false)
      ((nextElement visitor).on (reader, state)).2.1 := by
  have opened := @openElement_opened 0 { reader with current := none } rfl
  simp only [Attempt.on, ExceptT.run, StateT.run, nextElement] at opened ⊢
  rcases read : openElement none 0 { reader with current := none } with ⟨result, after⟩
  rw [read] at opened
  cases result with
  | error error => exact ⟨opened.1, opened.2, opened.3⟩
  | ok header? =>
    cases header? with
    | none => exact ⟨opened.1, opened.2, opened.3⟩
    | some header =>
      have fewer : after.remaining < reader.remaining := opened.2 rfl
      dsimp only
      rcases visitor (.start header) state with ⟨accepted, state⟩
      cases accepted with
      | error error => exact ⟨Nat.le_of_lt fewer, fun _ => fewer, fun _ => fewer⟩
      | ok _ =>
        have later := drive_later visitor after state [⟨header, false⟩]
        dsimp only
        rcases driven : drive visitor after state [⟨header, false⟩] with ⟨result, last, state⟩
        rw [driven] at later
        have bound := Nat.lt_of_le_of_lt later.remaining_le fewer
        cases result with
        | error error => exact ⟨Nat.le_of_lt bound, fun _ => bound, fun _ => bound⟩
        | ok _ => exact ⟨Nat.le_of_lt bound, fun _ => bound, fun _ => bound⟩

theorem nextElement_some {visitor : Visitor σ} {reader after : Reader} {state state' : σ}
    {header : Header}
    (read : (nextElement visitor).on (reader, state) = (.ok (some header), after, state')) :
    after.remaining < reader.remaining := by
  have opened := nextElement_opened visitor reader state
  rw [read] at opened
  exact opened.remaining_lt rfl

theorem nextElement_current {visitor : Visitor σ} {reader after : Reader} {state state' : σ}
    {result : Except DecodeError (Option Header)}
    (read : (nextElement visitor).on (reader, state) = (result, after, state'))
    (hand : after.current ≠ none) : after.remaining < reader.remaining := by
  have opened := nextElement_opened visitor reader state
  rw [read] at opened
  exact opened.remaining_lt_of_current hand

/-- Skipping adds no octets, and succeeds only with an element at hand. -/
theorem skipCurrent_later {reader after : Reader} {result : Except DecodeError Bool}
    (skipped : skipCurrent.on reader = (result, after)) :
    after.remaining ≤ reader.remaining ∧ (result = .ok true → reader.current ≠ none) := by
  simp only [Attempt.on, ExceptT.run, StateT.run, skipCurrent] at skipped
  split at skipped
  · cases skipped
    exact ⟨Nat.le_refl _, by simp⟩
  · rename_i header hand
    have bound := Source.remaining_take_le (header.stop - reader.offset) reader.source
    refine ⟨?_, fun _ => by simp [hand]⟩
    split at skipped
    · cases skipped
      exact Nat.le_refl _
    · split at skipped <;> cases skipped <;> exact bound

def process (visitor : Visitor σ) (reader : Reader) (state : σ) :
    Except DecodeError Unit × Reader × σ :=
  match _read : (nextElement visitor).on (reader, state) with
  | (.error error, reader, state) => (.error error, reader, state)
  | (.ok none, reader, state) => (.ok (), reader, state)
  | (.ok (some _), reader, state) => process visitor reader state
termination_by reader.remaining
decreasing_by exact nextElement_some _read

end BerRecords.Reader

namespace BerRecords.Event

def ofSource (encoding : TagEncoding) (source : Source) : Except DecodeError (List Event) :=
  let reader := Reader.ofSource encoding Reader.defaultMaxDepth source
  match reader.process recorder #[] with
  | (.ok (), _, events) => .ok events.toList
  | (.error error, _, _) => .error error

end BerRecords.Event
