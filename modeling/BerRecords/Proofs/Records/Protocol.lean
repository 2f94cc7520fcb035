import BerRecords.Proofs.Records.Clean
import BerRecords.Proofs.Walk.Coverage
import BerRecords.Proofs.Walk.Dialogue

/-!
# How an assembler is called

An assembler is asked to finish when what it was told nests, and to discard when it is the
beginning of what nests, once for each element that is lost. It may refuse whatever it is told.
-/

set_option autoImplicit false

namespace BerRecords

variable {σ β : Type}

namespace Assembler

inductive Call where
  | told (telling : Telling)
  | finish
  | discard

/-- The state in which a call leaves an assembler, also one that it refuses. -/
def called (assembler : Assembler σ β) (state : σ) : Call → σ
  | .told telling => assembler.sink.taught state telling
  | .finish => (assembler.finish state).2
  | .discard => assembler.discard state

structure Logged (σ : Type) where
  state : σ
  calls : List Call

def logged (assembler : Assembler σ β) : Assembler (Logged σ) β where
  sink :=
    { receive := fun event logged =>
        let (result, state) := (assembler.sink.receive event).on logged.state
        (result, ⟨state, logged.calls ++ [.told (.event event)]⟩)
      note := fun issue logged =>
        ⟨assembler.sink.note issue logged.state, logged.calls ++ [.told (.issue issue)]⟩ }
  finish logged :=
    let (content?, state) := assembler.finish logged.state
    (content?, ⟨state, logged.calls ++ [.finish]⟩)
  discard logged := ⟨assembler.discard logged.state, logged.calls ++ [.discard]⟩

theorem called_logged (assembler : Assembler σ β) (logged : Logged σ) (call : Call) :
    assembler.logged.called logged call =
      ⟨assembler.called logged.state call, logged.calls ++ [call]⟩ := by
  rcases call with ⟨event | issue⟩ | _ | _
  · rfl
  · rfl
  · rfl
  · rfl

theorem foldl_called_logged (assembler : Assembler σ β) (calls : List Call) (logged : Logged σ) :
    calls.foldl assembler.logged.called logged =
      ⟨calls.foldl assembler.called logged.state, logged.calls ++ calls⟩ := by
  induction calls generalizing logged with
  | nil => rw [List.foldl_nil, List.foldl_nil, List.append_nil]
  | cons call calls ih =>
      rw [List.foldl_cons, List.foldl_cons, ih, called_logged, List.append_assoc]
      rfl

/-- Being told a script is being called so, and issues are also kept beside. -/
theorem foldl_taught_recording (assembler : Assembler σ β) (script : List Telling)
    (recording : Recording σ) :
    script.foldl (Recording.sink assembler.sink).taught recording =
      ⟨(script.map Call.told).foldl assembler.called recording.inner,
        recording.issues ++ (Account.issues script).toArray⟩ := by
  induction script generalizing recording with
  | nil => simp [Account.issues]
  | cons telling script ih =>
      rw [List.foldl_cons, ih, Account.issues_cons]
      cases telling with
      | event event => rfl
      | issue issue => simp [Sink.taught, called, Recording.sink, Telling.issue?]

end Assembler

namespace Records

open Assembler (Call)
open Telling (Begins Nesting)

variable {schema : Schema} {assembler : Assembler σ β} {options : DecodeOptions}

/-- The calls for one outcome. Without an outcome there are none. A record is finished, with
the issues that were told; an element that is lost is discarded, sometimes after the assembler
had no record for it. -/
inductive Settles : Option (Outcome β) → List Call → Prop where
  | nothing : Settles none []
  | decoded {index offset : Nat} {content : β} {script : List Telling} : Nesting script →
      Settles (some (.decoded index offset content (Account.issues script)))
        (script.map .told ++ [.finish])
  | broken {outcome : Outcome β} {error : DecodeError} {script : List Telling} :
      outcome.error? = some error → Begins script →
      Settles (some outcome) (script.map .told ++ [.discard])
  | unfinished {outcome : Outcome β} {error : DecodeError} {script : List Telling} :
      outcome.error? = some error → Nesting script →
      Settles (some outcome) (script.map .told ++ [.finish, .discard])

/-- Giving up on an element reports the error and is one call. -/
theorem called_of_givesUp {records : Records σ} {index offset : Nat} {error : DecodeError}
    {given : Outcome β × Records σ}
    (gives : GivesUp assembler options index offset error records given) :
    given.1.error? = some (error.withPath records.walk.path) ∧
      given.2.walk = .start ⟨assembler.called records.walk.sink.inner .discard, #[]⟩ := by
  cases gives with
  | failed => exact ⟨rfl, rfl⟩
  | resumed => exact ⟨rfl, rfl⟩
  | stranded => exact ⟨rfl, rfl⟩

/-- What a request does to an assembler are the calls that settle its outcome. -/
theorem settles_next {records : Records σ} {state : σ} (idle : records.walk = .start ⟨state, #[]⟩) :
    let given := next schema assembler options records
    ∃ calls, Settles given.1 calls ∧
      given.2.walk = .start ⟨calls.foldl assembler.called state, #[]⟩ := by
  intro given
  have taught := Walk.taught_nextElement (rules schema options) (Recording.sink assembler.sink)
    records.reader ⟨state, #[]⟩
  have asked := request schema assembler options records
  change Request schema assembler options records given at asked
  rw [← idle] at taught
  generalize given = given at asked
  cases asked with
  | stopped => exact ⟨[], .nothing, idle⟩
  | ended _ read =>
      rw [read] at taught
      cases taught with
      | ok same => exact ⟨[], .nothing, same.trans idle⟩
  | decoded _ read finished =>
      rw [read] at taught
      cases taught with
      | ok told =>
          obtain ⟨script, nesting, rfl⟩ := told
          rw [Assembler.foldl_taught_recording] at finished ⊢
          refine ⟨script.map .told ++ [.finish], ?_, ?_⟩
          · simpa [Walk.start] using Settles.decoded nesting
          · simp only [Walk.start] at finished
            simp [Walk.start, Assembler.called, finished]
  | broken _ read gives =>
      rw [read] at taught
      cases taught with
      | error told =>
          obtain ⟨script, begins, heard⟩ := told
          obtain ⟨lost, reached⟩ := called_of_givesUp gives
          refine ⟨script.map .told ++ [.discard], .broken lost begins, reached.trans ?_⟩
          rw [Assembler.foldl_taught_recording] at heard
          dsimp only at heard ⊢
          rw [heard, List.foldl_append]
          rfl
  | unfinished _ read finished gives =>
      rw [read] at taught
      cases taught with
      | ok told =>
          obtain ⟨script, nesting, rfl⟩ := told
          obtain ⟨lost, reached⟩ := called_of_givesUp gives
          refine ⟨script.map .told ++ [.finish, .discard], .unfinished lost nesting,
            reached.trans ?_⟩
          rw [Assembler.foldl_taught_recording] at finished
          simp only [Walk.start] at finished
          simp [Assembler.called, finished]

/-- Between two requests nothing is left in the walk, whatever the assembler is. -/
theorem afterNexts_idle (schema : Schema) (assembler : Assembler σ β) (options : DecodeOptions)
    (fresh : σ) (source : Source) (count : Nat) :
    ∃ state, (afterNexts schema assembler options (ofSource schema options fresh source) count).walk =
      .start ⟨state, #[]⟩ := by
  induction count with
  | zero => exact ⟨fresh, rfl⟩
  | succ count ih =>
      obtain ⟨state, idle⟩ := ih
      obtain ⟨calls, -, reached⟩ := settles_next idle
      exact ⟨_, reached⟩

/-- The calls of all requests. Those so far have brought the assembler to its state, and those
of each request settle its outcome. -/
structure SettledBy (schema : Schema) (assembler : Assembler σ β) (options : DecodeOptions)
    (fresh : σ) (source : Source) (calls : Nat → List Call) : Prop where
  state_eq : ∀ count,
    (afterNexts schema assembler options (ofSource schema options fresh source) count).walk.sink.inner =
      ((List.range count).flatMap calls).foldl assembler.called fresh
  settles : ∀ count,
    Settles (next schema assembler options
      (afterNexts schema assembler options (ofSource schema options fresh source) count)).1 (calls count)

theorem exists_settledBy (schema : Schema) (assembler : Assembler σ β) (options : DecodeOptions)
    (fresh : σ) (source : Source) :
    ∃ calls, SettledBy schema assembler options fresh source calls := by
  let start := ofSource schema options fresh source
  have settled (count : Nat) : ∃ calls,
      let records := afterNexts schema assembler options start count
      let given := next schema assembler options records
      Settles given.1 calls ∧
        given.2.walk.sink.inner = calls.foldl assembler.called records.walk.sink.inner := by
    obtain ⟨state, idle⟩ := afterNexts_idle schema assembler options fresh source count
    obtain ⟨calls, settles, reached⟩ := @settles_next _ _ schema assembler options _ _ idle
    refine ⟨calls, settles, ?_⟩
    rw [reached, idle]
    rfl
  -- One list of calls for each request, chosen for all requests at once.
  obtain ⟨calls, settled⟩ := Classical.skolem.1 settled
  refine ⟨calls, fun count => ?_, fun count => (settled count).1⟩
  induction count with
  | zero => rfl
  | succ count ih =>
      refine (settled count).2.trans ?_
      rw [ih, List.range_succ, List.flatMap_append, List.foldl_append]
      simp

/-- Whatever an assembler refuses and with which error, its calls settle the outcomes, one after
another. If it writes its calls down, these are the ones. -/
theorem calls_settle_outcomes (schema : Schema) (assembler : Assembler σ β)
    (options : DecodeOptions) (fresh : σ) (source : Source) :
    (∃ calls, SettledBy schema assembler options fresh source calls) ∧
      ∃ calls, SettledBy schema assembler.logged options ⟨fresh, []⟩ source calls ∧
        ∀ count,
          let records := afterNexts schema assembler.logged options
            (ofSource schema options ⟨fresh, []⟩ source) count
          records.walk.sink.inner.calls = (List.range count).flatMap calls := by
  refine ⟨exists_settledBy schema assembler options fresh source, ?_⟩
  obtain ⟨calls, settled⟩ := exists_settledBy schema assembler.logged options ⟨fresh, []⟩ source
  refine ⟨calls, settled, ?_⟩
  intro count records
  have reached := settled.state_eq count
  rw [Assembler.foldl_called_logged, List.nil_append] at reached
  exact congrArg Assembler.Logged.calls reached

/-- Where a number is refused, the message and the number were entered, and all is discarded. -/
example :
    let message : Definition := .record ⟨"msg", some .sequence, false⟩ .sequence
      [.scalar ⟨"id", some .integer, false⟩ .integer]
    let schema : Schema := ⟨[message], [message], .singleOctet⟩
    let options : DecodeOptions := ⟨.skipRecord, true, 8⟩
    let refusing : Assembler Unit Unit :=
      { sink :=
          { receive := fun event => match event with
              | .field _ => throw (.source "full")
              | _ => return ()
            note := fun _ state => state }
        finish := fun state => (some (), state)
        discard := fun state => state }
    let source := Source.ofOctets [0x30, 0x03, 0x02, 0x01, 0x05]
    let records := afterNexts schema refusing.logged options
      (ofSource schema options ⟨(), []⟩ source) 1
    records.walk.sink.inner.calls.map (fun call => match call with
      | .told (.event (.enter definition _)) => definition.name
      | .told (.event (.field field)) => field.path
      | .told _ => "told"
      | .finish => "finish"
      | .discard => "discard") = ["msg", "id", "msg.id", "discard"] := by
  decide +kernel

end Records

end BerRecords
