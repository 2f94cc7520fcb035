import BerRecords.Proofs.Walk.Course

/-!
# What a sink is told

Whatever a sink refuses, it is told what a walk writes down that has nobody to tell, up to what
it refuses. So what it is told of an element nests, or is the beginning of what nests.
-/

set_option autoImplicit false

namespace BerRecords

variable {σ : Type}

namespace Sink

variable {sink : Sink σ} {state after : σ} {script : List Telling}

/-- A sink that has been told something, whether it took or refused it. -/
def taught (sink : Sink σ) (state : σ) : Telling → σ
  | .event event => ((sink.receive event).on state).2
  | .issue issue => sink.note issue state

theorem foldl_taught_of_hear (heard : (sink.hear script).on state = (.ok (), after)) :
    script.foldl sink.taught state = after := by
  induction script generalizing state with
  | nil =>
      cases heard
      rfl
  | cons telling script ih =>
      cases telling with
      | issue issue => exact ih heard
      | event event =>
          rw [hear, Attempt.on_bind] at heard
          rw [List.foldl_cons, taught]
          rcases received : (sink.receive event).on state with ⟨error | ⟨⟩, middle⟩
          · rw [received] at heard
            cases heard
          · rw [received] at heard
            exact ih heard

end Sink

namespace Walk

open Attempt (Ends)
open Reader (Open Tells)
open Telling (Begins Nesting writer)

variable {rules : Rules} {sink : Sink σ} {start reader : Reader} {stack : List Open}
  {signals : List Signal} {signal : Signal} {state : σ} {walk before : Walk σ}
  {error : DecodeError}

theorem echoing_signals (signals : List Signal) :
    Echoing sink (fun _ => True) ((visitor rules writer).tell signals)
      ((visitor rules sink).tell signals) := by
  induction signals with
  | nil => exact .pure ()
  | cons signal signals ih =>
      rw [Visitor.tell, Visitor.tell]
      refine Echoing.bind (fun _ _ _ _ _ => ?_) fun _ => ih
      exact echoes_visitor signal (fun _ _ => trivial) (fun _ _ => trivial)

/-- A walk whose sink takes all that it is told is where the walk is that writes down what
the sink has heard. -/
theorem follows_of_told (tells : Tells start signals reader stack)
    (told : ((visitor rules sink).tell signals).on (.start state) = (.ok (), walk)) :
    ∃ script, (sink.hear script).on state = (.ok (), walk.sink) ∧
      Follows stack (Opened.afterAll rules.schema signals)
        ⟨walk.frames, walk.path, walk.capture, script⟩ := by
  have echoes : Echoes sink (fun _ => True) [] state
      (((visitor rules writer).tell signals).on (.start []))
      (((visitor rules sink).tell signals).on (.start state)) := echoing_signals signals _ _ _ _ _
  have ends := @ends_tells rules _ _ _ _ tells
  rw [told] at echoes
  generalize ((visitor rules writer).tell signals).on (.start []) = ran at echoes ends
  cases echoes with
  | heard _ _ heard =>
      cases ends with
      | ok follows => exact ⟨_, heard, follows⟩

/-- Where the sink refuses something, or the walk fails with all that it has told accepted, the
sink has been told the beginning of a nesting. -/
theorem begins_of_refused (tells : Tells start (signals ++ [signal]) reader stack)
    (told : ((visitor rules sink).tell signals).on (.start state) = (.ok (), before))
    (refused : (visitor rules sink signal).on before = (.error error, walk)) :
    (error.isStructural = false ∨ sink.Refuses error) ∧
      ∃ script, Begins script ∧ walk.sink = script.foldl sink.taught state := by
  have echoes : Echoes sink (fun _ => True) [] state
      (((visitor rules writer).tell (signals ++ [signal])).on (.start []))
      (((visitor rules sink).tell (signals ++ [signal])).on (.start state)) :=
    echoing_signals _ _ _ _ _ _
  have ends := @ends_tells rules _ _ _ _ tells
  have failed : ((visitor rules sink).tell (signals ++ [signal])).on (.start state) =
      (.error error, walk) := by
    rw [Visitor.tell_append, Attempt.on_bind, told]
    dsimp only
    rw [Visitor.tell_cons, refused]
  rw [failed] at echoes
  -- The walk that writes down goes on past a refusal, so that its script has a nesting begun
  -- of which the sink has been told the first part.
  generalize ((visitor rules writer).tell (signals ++ [signal])).on (.start []) = ran
    at echoes ends
  cases echoes with
  | heard _ _ heard =>
      cases ends with
      | error halted =>
          exact ⟨.inl halted.1, _, halted.2, (Sink.foldl_taught_of_hear heard).symm⟩
  | @refused _ _ _ script more event _ written heard received =>
      have whole : Begins ran.2.sink := by
        cases ends with
        | error halted => exact halted.2
        | ok follows => exact follows.begins
      refine ⟨.inr ⟨_, _, _, received⟩, script ++ [.event event], whole.earlier ⟨more, ?_⟩, ?_⟩
      · rw [written, List.nil_append, List.append_assoc]
        rfl
      · rw [List.foldl_append, Sink.foldl_taught_of_hear heard, List.foldl_cons, List.foldl_nil,
          Sink.taught, received]

/-- A sink is told of no element, of one in a nesting, or the beginning of one. -/
theorem taught_nextElement (rules : Rules) (sink : Sink σ) (reader : Reader) (state : σ) :
    Ends (fun _ after => ∃ script, Begins script ∧ after.2.sink = script.foldl sink.taught state)
      (fun header? after => match header? with
        | none => after.2 = .start state
        | some _ => ∃ script, Nesting script ∧ after.2 = .start (script.foldl sink.taught state))
      ((Reader.nextElement (visitor rules sink)).on (reader, .start state)) := by
  have attends := Reader.attends (visitor rules sink) reader (.start state)
  generalize (Reader.nextElement (visitor rules sink)).on (reader, .start state) = ran at attends
  cases attends with
  | absent => exact .ok rfl
  | @complete _ _ _ walk tells told =>
      obtain ⟨script, heard, follows⟩ := follows_of_told tells told
      obtain ⟨script', nesting, same⟩ := follows.nesting
      rcases walk with ⟨frames, path, capture, after⟩
      cases same
      refine .ok ⟨script, nesting, ?_⟩
      rw [Sink.foldl_taught_of_hear heard]
      rfl
  | raised raises told =>
      cases raises with
      | heading =>
          cases told
          exact .error ⟨[], Telling.begins_nil, rfl⟩
      | inside tells =>
          obtain ⟨script, heard, follows⟩ := follows_of_told tells told
          exact .error ⟨script, follows.begins, (Sink.foldl_taught_of_hear heard).symm⟩
  | refused tells told refused => exact .error (begins_of_refused tells told refused).2

end Walk

end BerRecords
