import BerRecords.Proofs.Reader.Blame
import BerRecords.Proofs.Walk.Led
import BerRecords.Proofs.Walk.Script

/-!
# Reading with a sink and reading with a script

A reader leads a walk on any sink through an element as it leads one that only writes
down what it tells. What is told lies inside the part of the stream that was read.
-/

set_option autoImplicit false

namespace BerRecords

variable {σ : Type}

/-- Whatever the sink refuses it refuses with a fatal error. -/
def Sink.Strict (sink : Sink σ) : Prop :=
  ∀ error, sink.Refuses error → error.isFatal = true

namespace Walk

open Reader (Open Step)

/-- A reading with a sink beside the same one with a script. Both come to the same end, and
the sink has heard what was told meanwhile, all of it from between `start` and that end. -/
inductive Replays (sink : Sink σ) (start : Nat) (script : List Telling) (state : σ) {α : Type} :
    Except DecodeError α × Reader × Walk (List Telling) →
      Except DecodeError α × Reader × Walk σ → Prop where
  | replayed {result : Except DecodeError α} {reader : Reader} {frames : List Frame}
      {path : String} {capture : Option Capture} {told : List Telling} {after : σ} :
      (∀ error, result = .error error →
        ∀ offset ∈ error.offset?, start ≤ offset ∧ offset ≤ reader.offset) →
      (∀ telling ∈ told, ∀ offset ∈ telling.place?, start ≤ offset ∧ offset ≤ reader.offset) →
      (sink.hear told).on state = (.ok (), after) →
      Replays sink start script state (result, reader, ⟨frames, path, capture, script ++ told⟩)
        (result, reader, ⟨frames, path, capture, after⟩)

variable {rules : Rules} {sink : Sink σ} {nested : List Bool → Nat → σ → Prop} {start : Nat}
  {script : List Telling}

theorem Replays.silent {α : Type} {state : σ} {result : Except DecodeError α} {reader : Reader}
    {frames : List Frame} {path : String} {capture : Option Capture}
    (blamed : ∀ error, result = .error error →
      ∀ offset ∈ error.offset?, start ≤ offset ∧ offset ≤ reader.offset) :
    Replays sink start script state (result, reader, ⟨frames, path, capture, script⟩)
      (result, reader, ⟨frames, path, capture, state⟩) := by
  have replayed := @Replays.replayed _ sink start script state α result reader frames path
    capture [] state blamed (by simp) rfl
  rwa [List.append_nil] at replayed

/-- What was told before a reading comes before what is told in it. -/
theorem Replays.after {α : Type} {state middle : σ} {told : List Telling} {reached : Nat}
    {ran : Except DecodeError α × Reader × Walk (List Telling)}
    {ran' : Except DecodeError α × Reader × Walk σ}
    (later : Replays sink start (script ++ told) middle ran ran')
    (inside : ∀ telling ∈ told, ∀ offset ∈ telling.place?, start ≤ offset ∧ offset ≤ reached)
    (heard : (sink.hear told).on state = (.ok (), middle)) (onward : reached ≤ ran.2.1.offset) :
    Replays sink start script state ran ran' := by
  cases later with
  | replayed blamed inside' heard' =>
      rw [List.append_assoc]
      refine .replayed blamed ?_ (Sink.heard_append heard heard')
      intro telling member offset placed
      rcases List.mem_append.1 member with member | member
      · obtain ⟨lower, upper⟩ := inside telling member offset placed
        exact ⟨lower, Nat.le_trans upper onward⟩
      · exact inside' telling member offset placed

/-- The element that a step of a reader is about lies in what has been read. -/
private theorem echoes_step {reader after : Reader} {stack rest : List Open} {signal : Signal}
    (step : Step reader stack signal after rest) {frames : List Frame} {path : String}
    {capture : Option Capture} {state : σ} (led : Leads nested stack ⟨frames, path, capture, state⟩)
    (begun : start ≤ reader.offset)
    (opened : ∀ element ∈ stack,
      start ≤ element.header.offset ∧ element.header.offset ≤ reader.offset) :
    Echoes sink (fun offset => start ≤ offset ∧ offset ≤ after.offset) script state
        ((visitor rules Telling.writer signal).on ⟨frames, path, capture, script⟩)
        ((visitor rules sink signal).on ⟨frames, path, capture, state⟩) ∧
      reader.offset ≤ after.offset ∧ ∀ element ∈ rest,
        start ≤ element.header.offset ∧ element.header.offset ≤ after.offset := by
  have known := opened
  have headers : frames.map (·.header) = stack.map (·.header) := led.headers_eq
  have onward : reader.offset ≤ after.offset := by
    cases step with
    | start => exact Nat.le_add_right _ _
    | value => exact Nat.le_add_right _ _
    | stopBranch => exact Nat.le_refl _
    | stopLeaf => exact Nat.le_refl _
  have later : ∀ element ∈ stack,
      start ≤ element.header.offset ∧ element.header.offset ≤ after.offset :=
    fun element member => ⟨(opened element member).1, Nat.le_trans (opened element member).2 onward⟩
  refine ⟨echoes_visitor signal ?_ ?_, onward, ?_⟩
  · rintro header rfl
    cases step with
    | start => exact ⟨begun, onward⟩
  · intro frame member
    have among : frame.header ∈ stack.map (·.header) := by
      rw [← headers]
      exact List.mem_map_of_mem (List.mem_of_mem_head? member)
    obtain ⟨element, member, same⟩ := List.mem_map.1 among
    rw [← same]
    exact later element member
  · intro element member
    cases step with
    | start =>
        rcases List.mem_cons.1 member with rfl | member
        · exact ⟨begun, onward⟩
        · exact later element member
    | @value top =>
        rcases List.mem_cons.1 member with rfl | member
        · exact later top (.head _)
        · exact later element (.tail _ member)
    | stopBranch => exact later element (.tail _ member)
    | stopLeaf => exact later element (.tail _ member)

theorem replays_drive (nests : sink.Nests nested) (strict : sink.Strict) (reader : Reader)
    {walk : Walk σ} {stack : List Open} (led : Leads nested stack walk)
    (begun : start ≤ reader.offset)
    (opened : ∀ element ∈ stack,
      start ≤ element.header.offset ∧ element.header.offset ≤ reader.offset) :
    Replays sink start script walk.sink
      (Reader.drive (visitor rules Telling.writer) reader
        ⟨walk.frames, walk.path, walk.capture, script⟩ stack)
      (Reader.drive (visitor rules sink) reader walk stack) := by
  -- The drive with the sink leads. The other one follows it, with ever more in its script.
  fun_induction Reader.drive (visitor rules sink) reader walk stack generalizing script with
  | case1 reader walk =>
      rw [Reader.drive]
      refine .silent ?_
      rintro _ ⟨⟩
  | case2 reader walk top outer error after stuck =>
      have blamed := Reader.blamed_step top outer reader
      rw [stuck] at blamed
      rw [Reader.drive_cons, stuck]
      refine .silent ?_
      rintro _ ⟨⟩ offset member
      exact ⟨Nat.le_trans begun (blamed error rfl offset member).1,
        (blamed error rfl offset member).2⟩
  | case3 reader walk top outer signal stack after stepped error walk' refused =>
      have step := Reader.step_ok_iff.1 stepped
      have safe := @safe_visitor _ _ rules _ nests _ _ _ _ _ step _ led
      obtain ⟨echoes, -, -⟩ := @echoes_step _ rules sink _ _ script _ _ _ _ _ step _ _ _ _ led
        begun opened
      rw [Reader.drive_cons, stepped]
      dsimp only
      rw [refused] at safe echoes
      generalize (visitor rules Telling.writer signal).on _ = ran at echoes ⊢
      cases echoes with
      | heard blamed told heard => exact .replayed blamed told heard
      | refused _ _ received =>
          -- The sink would refuse with a fatal error, and a walk that is led gives none.
          cases safe with
          | error mild => exact absurd (strict error ⟨_, _, _, received⟩) (by simp [mild])
  | case4 reader walk top outer signal stack after stepped walk' accepted ih =>
      have step := Reader.step_ok_iff.1 stepped
      have safe := @safe_visitor _ _ rules _ nests _ _ _ _ _ step _ led
      obtain ⟨echoes, onward, opened⟩ := @echoes_step _ rules sink _ _ script _ _ _ _ _ step _ _ _ _
        led begun opened
      rw [Reader.drive_cons, stepped]
      dsimp only
      rw [accepted] at safe echoes
      generalize (visitor rules Telling.writer signal).on _ = ran at echoes ⊢
      cases safe with
      | ok led =>
          cases echoes with
          | @heard _ frames path capture told state' _ inside heard =>
              have further := (Reader.takes_drive (visitor rules Telling.writer) after
                ⟨frames, path, capture, script ++ told⟩ stack).offset_le
              exact (ih led (Nat.le_trans begun onward) opened).after inside heard further

/-- Reading an element with a sink is reading it with a script that the sink then hears. -/
theorem replays_nextElement (nests : sink.Nests nested) (strict : sink.Strict) (reader : Reader)
    {state : σ} (known : nested [] 0 state) :
    Replays sink reader.offset [] state
      ((Reader.nextElement (visitor rules Telling.writer)).on (reader, Walk.start []))
      ((Reader.nextElement (visitor rules sink)).on (reader, Walk.start state)) := by
  have blamed := Reader.blamed_openElement none 0 reader.between
  have onward := (@Reader.stays_openElement none 0 reader.between).takes.offset_le
  have led := poised_start known
  rw [Reader.nextElement_on, Reader.nextElement_on]
  rcases opened : (Reader.openElement none 0).on reader.between with ⟨error | none | header, after⟩
  · rw [opened] at blamed
    refine .silent ?_
    rintro _ ⟨⟩
    exact blamed error rfl
  · refine .silent ?_
    rintro _ ⟨⟩
  · rw [opened] at onward
    obtain ⟨heading, rfl, -⟩ := Reader.openElement_some_iff.1 opened
    let header := heading.header reader.between.offset
    have begun : reader.offset ≤ header.offset ∧ header.offset ≤ after.offset :=
      ⟨Nat.le_refl _, onward⟩
    have started : Attempt.Safe (fun _ => Poised nested 0 [header])
        ((visitor rules sink (.start header)).on (Walk.start state)) :=
      safe_startElement nests led (by simp) header
    have echoes : Echoes sink (fun offset => reader.offset ≤ offset ∧ offset ≤ after.offset) [] state
        ((visitor rules Telling.writer (.start header)).on (Walk.start []))
        ((visitor rules sink (.start header)).on (Walk.start state)) :=
      echoing_startElement begun _ _ _ _ _
    dsimp only
    generalize (visitor rules Telling.writer (.start header)).on _ = ran at echoes ⊢
    generalize (visitor rules sink (.start header)).on _ = ran' at started echoes ⊢
    cases echoes with
    | refused _ _ received =>
        cases started with
        | error mild => exact absurd (strict _ ⟨_, _, _, received⟩) (by simp [mild])
    | @heard result frames path capture told state' blamed inside heard =>
        cases started with
        | error mild =>
            refine .replayed ?_ inside heard
            rintro _ ⟨⟩
            exact blamed _ rfl
        | @ok value _ led =>
            cases value
            have driven := @replays_drive _ rules sink nested reader.offset ([] ++ told) nests strict
              after ⟨frames, path, capture, state'⟩ [⟨header, false⟩] led onward (by simpa using begun)
            have further := (Reader.takes_drive (visitor rules Telling.writer) after
              ⟨frames, path, capture, [] ++ told⟩ [⟨header, false⟩]).offset_le
            have whole := driven.after inside heard further
            dsimp only at whole ⊢
            generalize Reader.drive (visitor rules Telling.writer) _ _ _ = ran at whole ⊢
            generalize Reader.drive (visitor rules sink) _ _ _ = ran' at whole ⊢
            cases whole with
            | @replayed result _ _ _ _ _ _ blamed inside heard =>
                cases result with
                | ok =>
                    refine .replayed ?_ inside heard
                    rintro _ ⟨⟩
                | error error =>
                    refine .replayed ?_ inside heard
                    rintro _ ⟨⟩
                    exact blamed error rfl

end Walk

end BerRecords
