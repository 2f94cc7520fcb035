import BerRecords.Proofs.Reader.AtHand
import BerRecords.Proofs.Records.Request
import BerRecords.Proofs.Walk.Led

/-!
# Nothing is left behind

Between two requests a decoding is as fresh as at its start, whatever became of the
elements before. No signal of its reader meets a fatal error.
-/

set_option autoImplicit false

namespace BerRecords

namespace Walk

open Reader (Open Step)

variable {σ : Type} {nested : List Bool → Nat → σ → Prop} {rules : Rules} {sink : Sink σ}
  {start reader after : Reader} {stack rest : List Open} {walk : Walk σ}

/-- The definition in which an element is looked up that starts now. -/
def asked? (walk : Walk σ) : Option Definition :=
  match walk.capture, walk.frames with
  | none, parent :: _ => if parent.mode = .ignored then none else parent.definition
  | _, _ => none

/-- Where a reader and the walk that it leads can be inside the top-level element ahead. -/
inductive Reaches (rules : Rules) (sink : Sink σ) (start : Reader) (idle : Walk σ) :
    Reader → List Open → Walk σ → Prop where
  | opened {header : Header} {reader : Reader} {walk : Walk σ} :
      (Reader.openElement none 0).on start.between = (.ok (some header), reader) →
      (visitor rules sink (.start header)).on idle = (.ok (), walk) →
      Reaches rules sink start idle reader [⟨header, false⟩] walk
  | step {reader after : Reader} {stack rest : List Open} {signal : Signal} {walk walk' : Walk σ} :
      Reaches rules sink start idle reader stack walk → Step reader stack signal after rest →
      (visitor rules sink signal).on walk = (.ok (), walk') →
      Reaches rules sink start idle after rest walk'

theorem Reaches.leads (nests : sink.Nests nested) {state : σ} (known : nested [] 0 state)
    (reaches : Reaches rules sink start (.start state) reader stack walk) :
    Leads nested stack walk := by
  induction reaches with
  | @opened header _ _ _ accepted =>
      have started := @safe_startElement _ _ _ _ rules _ _ nests (poised_start known) (by simp) header
      change (startElement rules sink header).on _ = _ at accepted
      rw [accepted] at started
      cases started with
      | ok led => exact led
  | step _ step accepted ih =>
      have safe := @safe_visitor _ _ rules _ nests _ _ _ _ _ step _ ih
      rw [accepted] at safe
      cases safe with
      | ok led => exact led

/-- Elements are looked up in definitions that have components only. -/
theorem Leads.asked (led : Leads nested stack walk) {header : Header}
    (step : Step reader stack (.start header) after rest) :
    ∀ definition ∈ walk.asked?, definition.constructed? = some true := by
  intro definition member
  cases step with
  | @start top outer _ _ constructed =>
      obtain ⟨headers_eq, posture, -, -⟩ := led
      rcases walk with ⟨_ | ⟨parent, frames⟩, path, _ | capture, state⟩
      · cases member
      · cases member
      · simp only [asked?] at member
        split at member
        · cases member
        · rename_i attended
          have trunk := posture.trunk_of_attended (by simpa using attended) (by
            simp only [List.map_cons, List.cons.injEq] at headers_eq
            simpa [headers_eq.1] using constructed)
          obtain ⟨-, known, defined, holds⟩ := trunk parent (.head _)
          rw [defined] at member
          cases member
          rw [Definition.holds, Bool.and_eq_true, decide_eq_true_eq] at holds
          exact holds.1
      · cases member

end Walk

def Outcome.error? {β : Type} : Outcome β → Option DecodeError
  | .decoded .. => none
  | .dropped _ _ error | .failed error => some error

namespace Records

open Reader (Open)

variable {σ β : Type} (schema : Schema) (assembler : Assembler σ β) (options : DecodeOptions)

/-- Nothing was left in the decoding, and the next request meets no fatal error. If an
element is read then, the sink holds one record, and nothing besides. -/
structure Clean (fresh : σ) (single : σ → Prop) (records : Records σ) : Prop where
  walk_eq : records.walk = .start ⟨fresh, #[]⟩
  accepts : ∀ {reader after : Reader} {stack rest : List Open} {walk walk' : Walk (Recording σ)}
    {signal : Signal} {error : DecodeError},
    Walk.Reaches (rules schema options) (Recording.sink assembler.sink) records.reader records.walk
      reader stack walk → Reader.Step reader stack signal after rest →
    (visitor schema assembler options signal).on walk = (.error error, walk') →
    error.isFatal = false
  asks : ∀ {reader after : Reader} {stack rest : List Open} {walk : Walk (Recording σ)}
    {header : Header},
    Walk.Reaches (rules schema options) (Recording.sink assembler.sink) records.reader records.walk
      reader stack walk → Reader.Step reader stack (.start header) after rest →
    ∀ definition ∈ walk.asked?, definition.constructed? = some true
  completes : ∀ {header : Header} {reader : Reader} {walk : Walk (Recording σ)},
    (Reader.nextElement (visitor schema assembler options)).on (records.reader, records.walk) =
      (.ok (some header), reader, walk) →
    ∃ state issues content, walk = .start ⟨state, issues⟩ ∧ single state ∧
      assembler.finish state = (some content, fresh)
  mild : ∀ outcome ∈ (next schema assembler options records).1, ∀ error ∈ outcome.error?,
    error.isFatal = false

variable {schema assembler options} {fresh : σ} {nested : List Bool → Nat → σ → Prop}
  {records : Records σ}

theorem safe_read (nests : assembler.Nests fresh nested)
    (idle : records.walk = .start ⟨fresh, #[]⟩) :
    Attempt.Safe (fun header? after => header? = none ∨
        ∃ recording, nested [] 1 recording.inner ∧ after.2 = Walk.start recording)
      ((Reader.nextElement (visitor schema assembler options)).on (records.reader, records.walk)) := by
  rw [idle]
  exact Walk.safe_nextElement (Recording.nests nests.sink) records.reader nests.start

theorem completes_of_fresh (nests : assembler.Nests fresh nested)
    (idle : records.walk = .start ⟨fresh, #[]⟩) {header : Header} {reader : Reader}
    {walk : Walk (Recording σ)}
    (read : (Reader.nextElement (visitor schema assembler options)).on
      (records.reader, records.walk) = (.ok (some header), reader, walk)) :
    ∃ state issues content, walk = .start ⟨state, issues⟩ ∧ nested [] 1 state ∧
      assembler.finish state = (some content, fresh) := by
  have safe := @safe_read _ _ schema _ options _ _ _ nests idle
  rw [read] at safe
  cases safe with
  | ok done =>
      rcases done with absent | ⟨⟨state, issues⟩, known, reached⟩
      · cases absent
      · obtain ⟨content, finished⟩ := nests.finish known
        exact ⟨state, issues, content, reached, known, finished⟩

inductive Settled (options : DecodeOptions) (index offset : Nat) : Outcome β → Prop where
  | decoded {content : β} {issues : List Issue} :
      Settled options index offset (.decoded index offset content issues)
  | dropped {error : DecodeError} : error.isFatal = false → options.errorMode ≠ .failFast →
      Settled options index offset (.dropped index offset error)
  | failed {error : DecodeError} : error.isFatal = false → options.errorMode = .failFast →
      Settled options index offset (.failed error)

private theorem settled_of_givesUp (nests : assembler.Nests fresh nested) {index offset : Nat}
    {error : DecodeError} (mild : error.isFatal = false) {given : Outcome β × Records σ}
    (gives : GivesUp assembler options index offset error records given) :
    given.2.walk = .start ⟨fresh, #[]⟩ ∧ Settled options index offset given.1 := by
  have mild' (path : String) : (error.withPath path).isFatal = false := by
    rwa [DecodeError.isFatal_withPath]
  cases gives with
  | failed ends =>
      refine ⟨by simp [discarded, nests.discard], .failed (mild' _) (ends.resolve_left ?_)⟩
      simp [mild]
  | resumed _ tolerant => exact ⟨by simp [discarded, nests.discard], .dropped (mild' _) tolerant⟩
  | stranded _ tolerant => exact ⟨by simp [discarded, nests.discard], .dropped (mild' _) tolerant⟩

/-- A request leaves the decoding as fresh as it was, whatever came of it. -/
theorem next_fresh (nests : assembler.Nests fresh nested)
    (idle : records.walk = .start ⟨fresh, #[]⟩) :
    let given := next schema assembler options records
    given.2.walk = .start ⟨fresh, #[]⟩ ∧
      ∀ outcome ∈ given.1, Settled options records.index records.reader.offset outcome := by
  intro given
  have safe := @safe_read _ _ schema _ options _ _ _ nests idle
  have asked := request schema assembler options records
  change Request schema assembler options records given at asked
  generalize given = given at asked
  cases asked with
  | stopped => exact ⟨idle, by simp⟩
  | ended _ read =>
      obtain ⟨same, -⟩ := Reader.exhausted_of_nextElement read
      exact ⟨same.trans idle, by simp⟩
  | decoded _ read finished =>
      obtain ⟨state, issues, content, rfl, -, finished'⟩ := completes_of_fresh nests idle read
      have place := Reader.offset_of_nextElement read
      cases finished'.symm.trans finished
      refine ⟨rfl, ?_⟩
      rintro outcome ⟨⟩
      exact place ▸ .decoded
  | broken _ read gives =>
      rw [read] at safe
      cases safe with
      | error mild =>
          have settled := settled_of_givesUp nests mild gives
          exact ⟨settled.1, by simpa using settled.2⟩
  | unfinished _ read finished =>
      obtain ⟨state, issues, content, rfl, -, finished'⟩ := completes_of_fresh nests idle read
      cases finished'.symm.trans finished

theorem clean_of_fresh (nests : assembler.Nests fresh nested)
    (idle : records.walk = .start ⟨fresh, #[]⟩) :
    Clean schema assembler options fresh (nested [] 1) records where
  walk_eq := idle
  accepts reaches step refused := by
    rw [idle] at reaches
    have led := reaches.leads (Recording.nests nests.sink) nests.start
    have safe := @Walk.safe_visitor _ _ (rules schema options) _ (Recording.nests nests.sink)
      _ _ _ _ _ step _ led
    rw [refused] at safe
    cases safe with
    | error mild => exact mild
  asks reaches step := by
    rw [idle] at reaches
    exact (reaches.leads (Recording.nests nests.sink) nests.start).asked step
  completes read := completes_of_fresh nests idle read
  mild outcome given error reported := by
    cases (next_fresh nests idle).2 outcome given with
    | decoded => cases reported
    | dropped mild =>
        cases reported
        exact mild
    | failed mild =>
        cases reported
        exact mild

theorem afterNexts_fresh (nests : assembler.Nests fresh nested) (source : Source) (count : Nat) :
    (afterNexts schema assembler options (ofSource schema options fresh source) count).walk =
      .start ⟨fresh, #[]⟩ := by
  induction count with
  | zero => rfl
  | succ count ih => exact (next_fresh nests ih).1

/-- Whatever the source, the schema and the options are: after any number of requests a
decoding into fields or trees is clean. -/
theorem clean_afterNexts (schema : Schema) (options : DecodeOptions) (source : Source)
    (count : Nat) :
    Clean schema .fields options .empty (fun _ => True)
        (afterNexts schema .fields options (ofSource schema options .empty source) count) ∧
      Clean schema .trees options .empty
        (fun builder => builder.stack = [] ∧ builder.roots.size = 1)
        (afterNexts schema .trees options (ofSource schema options .empty source) count) := by
  constructor
  · exact clean_of_fresh Assembler.fields_nests (afterNexts_fresh Assembler.fields_nests source count)
  · have fresh := @afterNexts_fresh _ _ schema _ options _ _ Assembler.trees_nests source count
    have clean := @clean_of_fresh _ _ schema _ options _ _ _ Assembler.trees_nests fresh
    refine { clean with completes := fun read => ?_ }
    obtain ⟨builder, issues, content, reached, ⟨closed, counted⟩, finished⟩ := clean.completes read
    exact ⟨builder, issues, content, reached, ⟨List.map_eq_nil_iff.1 closed, counted⟩, finished⟩

end Records

end BerRecords
