import Mathlib.Data.List.Defs
import BerRecords.Proofs.Records.Boundary
import BerRecords.Proofs.Walk.Recovery

/-!
# The error modes agree

A run that ends at its first error has the outcomes of one that goes on, up to there.
Recovery changes neither where elements begin and end nor what was decoded without it.
-/

set_option autoImplicit false

namespace BerRecords

/-- The outcomes up to the first that is no record, as a run has them that ends there. -/
def Outcome.untilFailure {β : Type} : List (Outcome β) → List (Outcome β)
  | [] => []
  | .decoded index offset content issues :: rest =>
    .decoded index offset content issues :: untilFailure rest
  | .dropped _ _ error :: _ | .failed error :: _ => [.failed error]

namespace Records

variable {σ β : Type} {schema : Schema} {assembler : Assembler σ β} {options : DecodeOptions}
  {mandatory : Bool} {maxDepth : Nat} {fresh : σ} {nested : List Bool → Nat → σ → Prop}
  {records first second : Records σ} {octets : Octets} {offset index : Nat}

theorem finish_of_done (done : records.done = true) :
    (finish schema assembler options records).1 = [] := by
  rw [finish_eq, next, if_pos done]

/-- What a run gives that ends at errors, beside one that drops elements. -/
inductive Hastened : Option (Outcome β) × Records σ → Option (Outcome β) × Records σ → Prop where
  | ended {after : Records σ} : Hastened (none, after) (none, after)
  | decoded {index offset : Nat} {content : β} {issues : List Issue} {after : Records σ} :
      Hastened (some (.decoded index offset content issues), after)
        (some (.decoded index offset content issues), after)
  | dropped {index offset : Nat} {error : DecodeError} {after after' : Records σ} :
      after.done = true → Hastened (some (.failed error), after)
        (some (.dropped index offset error), after')
  | failed {error : DecodeError} {after after' : Records σ} :
      after.done = true → Hastened (some (.failed error), after) (some (.failed error), after')

theorem hastened_giveUp (index offset : Nat) (error : DecodeError) (records : Records σ) :
    let strict := giveUp assembler ⟨.failFast, mandatory, maxDepth⟩ index offset error records
    let tolerant := giveUp assembler ⟨.skipRecord, mandatory, maxDepth⟩ index offset error records
    Hastened (some strict.1, strict.2) (some tolerant.1, tolerant.2) := by
  simp only [giveUp, decide_true, Bool.or_true, ↓reduceIte, reduceCtorEq, decide_false,
    Bool.or_false]
  split
  · exact .failed rfl
  · split
    · exact .dropped rfl
    · exact .dropped rfl

theorem hastened_next (records : Records σ) :
    Hastened (next schema assembler ⟨.failFast, mandatory, maxDepth⟩ records)
      (next schema assembler ⟨.skipRecord, mandatory, maxDepth⟩ records) := by
  have same : rules schema ⟨.failFast, mandatory, maxDepth⟩ =
      rules schema ⟨.skipRecord, mandatory, maxDepth⟩ := rfl
  rw [next, next, same]
  split
  · exact .ended
  · dsimp only
    split
    · exact .ended
    · exact hastened_giveUp _ _ _ _
    · split
      · exact .decoded
      · exact hastened_giveUp _ _ _ _

theorem finish_failFast (records : Records σ) :
    (finish schema assembler ⟨.failFast, mandatory, maxDepth⟩ records).1.map (·.outcome) =
      Outcome.untilFailure
        ((finish schema assembler ⟨.skipRecord, mandatory, maxDepth⟩ records).1.map (·.outcome)) := by
  induction bound : records.ahead using Nat.strongRecOn generalizing records with
  | ind _ ih =>
      have hastened := @hastened_next _ _ schema assembler mandatory maxDepth records
      rw [finish_eq, finish_eq]
      rcases given : next schema assembler ⟨.failFast, mandatory, maxDepth⟩ records with
        ⟨outcome?, after⟩
      rw [given] at hastened
      generalize next schema assembler ⟨.skipRecord, mandatory, maxDepth⟩ records = tolerant
        at hastened ⊢
      cases hastened with
      | ended => rfl
      | decoded =>
          simp only [List.map_cons, Outcome.untilFailure, ih _ (bound ▸ ahead_next given) after rfl]
      | dropped done => simp [finish_of_done done, Outcome.untilFailure]
      | failed done => simp [finish_of_done done, Outcome.untilFailure]

private theorem rules_skipRecord :
    rules schema ⟨.skipRecord, mandatory, maxDepth⟩ = ⟨schema, false, mandatory⟩ := rfl

/-- An element that is decoded without recovery is decoded with it, and nothing is made
up for. -/
theorem next_skipField {content : β} {issues : List Issue} {after : Records σ}
    (idle : records.walk = .start ⟨fresh, #[]⟩)
    (given : next schema assembler ⟨.skipRecord, mandatory, maxDepth⟩ records =
      (some (.decoded index offset content issues), after)) :
    issues = [] ∧ next schema assembler ⟨.skipField, mandatory, maxDepth⟩ records =
      (some (.decoded index offset content []), after) := by
  have unheard : Walk.Unheard (Recording.sink assembler.sink) (·.issues) := fun _ _ => rfl
  have asked := request schema assembler ⟨.skipRecord, mandatory, maxDepth⟩ records
  rw [given] at asked
  cases asked with
  | broken _ _ gives => cases gives
  | unfinished _ _ _ gives => cases gives
  | @decoded header reader walk _ inner going read finished =>
      rw [visitor, rules_skipRecord] at read
      obtain ⟨same, kept⟩ := Reader.extends_nextElement
        (fun signal walk => Walk.extends_visitor unheard schema mandatory walk signal)
        records.reader records.walk read
      have none_noted : walk.sink.issues = #[] := by rw [kept, idle]; rfl
      have read' := @next_of_read _ _ schema assembler ⟨.skipField, mandatory, maxDepth⟩ _ _ _ _
        _ _ going same finished
      rw [none_noted] at read' ⊢
      exact ⟨rfl, read'⟩

/-- What a run without recovery made of an element, beside one with recovery. -/
inductive Recovers : Step β → Step β → Prop where
  | decoded {index offset consumed : Nat} {content : β} :
      Recovers ⟨.decoded index offset content [], consumed⟩
        ⟨.decoded index offset content [], consumed⟩
  | recovered {index offset consumed : Nat} {error : DecodeError} {content : β}
      {issues : List Issue} : Recovers ⟨.dropped index offset error, consumed⟩
        ⟨.decoded index offset content issues, consumed⟩
  | dropped {index offset consumed : Nat} {error error' : DecodeError} :
      Recovers ⟨.dropped index offset error, consumed⟩ ⟨.dropped index offset error', consumed⟩

theorem recovers_next (nests : assembler.Nests fresh nested)
    (idle : records.walk = .start ⟨fresh, #[]⟩) {strict lenient : Outcome β}
    {after after' : Records σ}
    (given : next schema assembler ⟨.skipRecord, mandatory, maxDepth⟩ records = (some strict, after))
    (given' : next schema assembler ⟨.skipField, mandatory, maxDepth⟩ records =
      (some lenient, after'))
    {consumed : Nat} : Recovers ⟨strict, consumed⟩ ⟨lenient, consumed⟩ := by
  have settled := (next_fresh nests idle).2 strict (by rw [given]; rfl)
  have settled' := (next_fresh nests idle).2 lenient (by rw [given']; rfl)
  cases settled with
  | failed _ ends => cases ends
  | decoded =>
      obtain ⟨rfl, same⟩ := next_skipField idle given
      rw [same] at given'
      cases given'
      exact .decoded
  | dropped =>
      cases settled' with
      | failed _ ends => cases ends
      | decoded => exact .recovered
      | dropped => exact .dropped

/-- Where no heading stands ahead, both runs end in the same way. -/
theorem next_of_headless
    (headless : ∀ (heading : Heading records.reader.encoding) source,
      ¬records.reader.source.Passes heading.octets source) :
    next schema assembler ⟨.skipRecord, mandatory, maxDepth⟩ records =
        next schema assembler ⟨.skipField, mandatory, maxDepth⟩ records ∧
      (next schema assembler ⟨.skipRecord, mandatory, maxDepth⟩ records).2.done = true := by
  cases going : records.done with
  | true =>
      rw [next, next, if_pos going, if_pos going]
      exact ⟨rfl, going⟩
  | false =>
      rcases Reader.nextElement_headless headless with ⟨reader, read⟩ | ⟨error, reader, idle, read⟩
      · simp [next, going, read]
      · have gives := givesUp assembler ⟨.skipRecord, mandatory, maxDepth⟩ records.index
          records.reader.offset error ⟨reader, records.walk, records.index + 1, false⟩
        simp only [next, going, read]
        refine ⟨rfl, ?_⟩
        simp only [Bool.false_eq_true, ↓reduceIte]
        generalize giveUp assembler _ _ _ error _ = given at gives ⊢
        cases gives with
        | failed => rfl
        | stranded => rfl
        | resumed _ _ skipped =>
            rw [Reader.skipCurrent_idle idle] at skipped
            cases skipped

/-- An element inside which the source ends is given up, and the run ends there. -/
theorem next_of_cut (nests : assembler.Nests fresh nested)
    (tolerant : options.errorMode ≠ .failFast)
    (ready : Ready schema options fresh octets offset index records)
    {heading : Heading schema.encoding} {source : Source}
    (passes : records.reader.source.Passes heading.octets source)
    (cut : octets.length < heading.octets.length + heading.length) :
    ∃ outcome after, next schema assembler options records = (some outcome, after) ∧
      after.done = true ∧ after.reader.offset = offset + octets.length := by
  have same : records.reader.encoding = schema.encoding := congrArg Prod.fst ready.settings_eq
  obtain ⟨error, reader, walk, last, failed, left, stands⟩ := Reader.nextElement_of_cut
    (visitor schema assembler options) records.walk ready.delivers same passes cut
  have safe := @safe_read _ _ schema _ options _ _ _ nests ready.walk_eq
  rw [failed] at safe
  rw [ready.offset_eq] at stands
  have asked := request schema assembler options records
  rcases given : next schema assembler options records with ⟨outcome?, after⟩
  rw [given] at asked
  cases asked with
  | stopped done => exact absurd (ready.done_eq.symm.trans done) nofun
  | ended _ read => cases failed.symm.trans read
  | decoded _ read => cases failed.symm.trans read
  | unfinished _ read => cases failed.symm.trans read
  | broken _ read gives =>
      cases failed.symm.trans read
      cases safe with
      | error mild =>
          cases gives with
          | failed ends => simp [mild, tolerant] at ends
          | resumed _ _ skipped => cases left.symm.trans skipped
          | stranded _ _ skipped =>
              cases left.symm.trans skipped
              exact ⟨_, _, rfl, rfl, stands⟩

/-- Between elements what lies ahead decides the outcomes. -/
theorem finish_of_ready (nests : assembler.Nests fresh nested) {move : Nat → σ → σ}
    {shift : Nat → β → β}
    (moves : ∀ distance, assembler.Moves distance (move distance) (shift distance))
    (ready : Ready schema options fresh octets offset index first)
    (ready' : Ready schema options fresh octets offset index second) :
    (finish schema assembler options first).1 = (finish schema assembler options second).1 := by
  have start := ready_ofSource schema options fresh (Source.delivers_ofOctets octets)
  rw [← List.append_nil octets] at ready ready'
  rw [finish_displace (moves offset) (start.alike nests (moves offset) ready),
    finish_displace (moves offset) (start.alike nests (moves offset) ready')]

theorem Ready.remode {mode mode' : ErrorMode}
    (ready : Ready schema ⟨mode, mandatory, maxDepth⟩ fresh octets offset index records) :
    Ready schema ⟨mode', mandatory, maxDepth⟩ fresh octets offset index records :=
  ⟨ready.delivers, ready.offset_eq, ready.settings_eq, ready.current_eq, ready.walk_eq,
    ready.index_eq, ready.done_eq⟩

def Alongside (schema : Schema) (assembler : Assembler σ β) (mandatory : Bool) (maxDepth : Nat)
    (records : Records σ) : Prop :=
  List.Forall₂ Recovers
    (finish schema assembler ⟨.skipRecord, mandatory, maxDepth⟩ records).1
    (finish schema assembler ⟨.skipField, mandatory, maxDepth⟩ records).1

private theorem alongside_of_headless (nests : assembler.Nests fresh nested)
    (idle : records.walk = .start ⟨fresh, #[]⟩)
    (headless : ∀ (heading : Heading records.reader.encoding) source,
      ¬records.reader.source.Passes heading.octets source) :
    Alongside schema assembler mandatory maxDepth records := by
  obtain ⟨same, done⟩ := @next_of_headless _ _ schema assembler mandatory maxDepth _ headless
  rw [Alongside, finish_eq, finish_eq, ← same]
  rcases given : next schema assembler ⟨.skipRecord, mandatory, maxDepth⟩ records with
    ⟨_ | outcome, after⟩
  · exact .nil
  · rw [given] at done
    simp only [finish_of_done done]
    exact .cons (recovers_next nests idle given (same.symm.trans given)) .nil

private theorem alongside_of_cut (nests : assembler.Nests fresh nested)
    (ready : Ready schema ⟨.skipRecord, mandatory, maxDepth⟩ fresh octets offset index records)
    {heading : Heading schema.encoding} {source : Source}
    (passes : records.reader.source.Passes heading.octets source)
    (cut : octets.length < heading.octets.length + heading.length) :
    Alongside schema assembler mandatory maxDepth records := by
  have ready' : Ready schema ⟨.skipField, mandatory, maxDepth⟩ fresh octets offset index records :=
    ready.remode
  obtain ⟨strict, after, given, done, stands⟩ := next_of_cut nests (by simp) ready passes cut
  obtain ⟨lenient, after', given', done', stands'⟩ := next_of_cut nests (by simp) ready' passes cut
  rw [Alongside, finish_eq, finish_eq, given, given']
  simp only [finish_of_done done, finish_of_done done', stands, stands']
  exact .cons (recovers_next nests ready.walk_eq given given') .nil

variable {move : Nat → σ → σ} {shift : Nat → β → β}

private theorem alongside_of_shell (nests : assembler.Nests fresh nested)
    (moves : ∀ distance, assembler.Moves distance (move distance) (shift distance))
    {shell : Shell schema.encoding} {rest : Octets}
    (ready : Ready schema ⟨.skipRecord, mandatory, maxDepth⟩ fresh (shell.octets ++ rest) offset
      index records)
    (later : ∀ {after : Records σ}, Ready schema ⟨.skipRecord, mandatory, maxDepth⟩ fresh rest
        (offset + shell.octets.length) (index + 1) after →
      Alongside schema assembler mandatory maxDepth after) :
    Alongside schema assembler mandatory maxDepth records := by
  obtain ⟨strict, settled⟩ := @next_of_shell _ _ offset index _ _ schema _
    ⟨.skipRecord, mandatory, maxDepth⟩ _ _ nests (moves offset) (by simp) shell
  obtain ⟨lenient, settled'⟩ := @next_of_shell _ _ offset index _ _ schema _
    ⟨.skipField, mandatory, maxDepth⟩ _ _ nests (moves offset) (by simp) shell
  obtain ⟨after, given, middle⟩ := settled rest records ready
  obtain ⟨after', given', middle'⟩ := settled' rest records ready.remode
  rw [Alongside, finish_eq, finish_eq, given, given']
  simp only [middle.offset_eq, middle'.offset_eq]
  refine .cons (recovers_next nests ready.walk_eq given given') ?_
  -- Both runs stand in front of the same octets now, whatever they did on the way there.
  rw [finish_of_ready nests moves middle' middle.remode]
  exact later middle

theorem alongside (nests : assembler.Nests fresh nested)
    (moves : ∀ distance, assembler.Moves distance (move distance) (shift distance))
    (ready : Ready schema ⟨.skipRecord, mandatory, maxDepth⟩ fresh octets offset index records) :
    Alongside schema assembler mandatory maxDepth records := by
  induction bound : octets.length using Nat.strongRecOn
    generalizing octets offset index records with
  | ind _ ih =>
      by_cases headed : ∃ (heading : Heading records.reader.encoding) (source : Source),
        records.reader.source.Passes heading.octets source
      · rw [show records.reader.encoding = schema.encoding from
          congrArg Prod.fst ready.settings_eq] at headed
        obtain ⟨heading, source, passes⟩ := headed
        obtain ⟨back, rfl, -⟩ := ready.delivers.rest passes
        rcases Nat.lt_or_ge back.length heading.length with cut | whole
        · refine alongside_of_cut nests ready passes ?_
          rwa [List.length_append, Nat.add_lt_add_iff_left]
        · obtain ⟨shell, rest, -, parts⟩ := Shell.of_heading heading whole
          rw [parts] at ready bound
          have some_octets := List.length_pos_iff.2 shell.octets_ne_nil
          rw [List.length_append] at bound
          refine alongside_of_shell nests moves ready fun middle => ?_
          exact ih rest.length (by omega) middle rfl
      · exact alongside_of_headless nests ready.walk_eq (by simpa using headed)

theorem finish_modes (nests : assembler.Nests fresh nested)
    (moves : ∀ distance, assembler.Moves distance (move distance) (shift distance))
    {source : Source} (delivers : source.Delivers octets) :
    let steps (mode : ErrorMode) :=
      (finish schema assembler ⟨mode, mandatory, maxDepth⟩
        (ofSource schema ⟨mode, mandatory, maxDepth⟩ fresh source)).1
    (steps .failFast).map (·.outcome) = Outcome.untilFailure ((steps .skipRecord).map (·.outcome)) ∧
      List.Forall₂ Recovers (steps .skipRecord) (steps .skipField) := by
  intro steps
  have ready := ready_ofSource schema ⟨.skipRecord, mandatory, maxDepth⟩ fresh delivers
  exact ⟨finish_failFast _, alongside nests moves ready⟩

/-- In all three error modes the elements of a stream without failures have the same
places. Without recovery a run differs from one that ends at its first error in going on
after it, and with recovery in decoding some elements more. -/
theorem modes_agree {source : Source} {octets : Octets} (delivers : source.Delivers octets)
    (schema : Schema) (mandatory : Bool) (maxDepth : Nat) :
    let fields (mode : ErrorMode) : List (Step (List Field)) :=
      (finish schema .fields ⟨mode, mandatory, maxDepth⟩
        (ofSource schema ⟨mode, mandatory, maxDepth⟩ .empty source)).1
    let trees (mode : ErrorMode) : List (Step Node) :=
      (finish schema .trees ⟨mode, mandatory, maxDepth⟩
        (ofSource schema ⟨mode, mandatory, maxDepth⟩ .empty source)).1
    ((fields .failFast).map (·.outcome) =
        Outcome.untilFailure ((fields .skipRecord).map (·.outcome)) ∧
      List.Forall₂ Recovers (fields .skipRecord) (fields .skipField)) ∧
      (trees .failFast).map (·.outcome) =
          Outcome.untilFailure ((trees .skipRecord).map (·.outcome)) ∧
        List.Forall₂ Recovers (trees .skipRecord) (trees .skipField) :=
  ⟨finish_modes Assembler.fields_nests (fun _ => Assembler.moves_fields) delivers,
    finish_modes Assembler.trees_nests (fun _ => Assembler.moves_trees) delivers⟩

/-- Two messages, of which the second has another component than the one that it should. -/
theorem modes_agree_on_two_messages :
    let message : Definition := .record ⟨"msg", some .sequence, false⟩ .sequence
      [.scalar ⟨"id", some .integer, false⟩ .integer]
    let schema : Schema := ⟨[message], [message], .singleOctet⟩
    let octets : Octets := [0x30, 0x03, 0x02, 0x01, 0x05, 0x30, 0x03, 0x04, 0x01, 0x41]
    let fields (mode : ErrorMode) : List (Step (List Field)) :=
      (finish schema .fields ⟨mode, true, 8⟩
        (ofSource schema ⟨mode, true, 8⟩ .empty (.ofOctets octets))).1
    (fields .skipRecord).length = 2 ∧ (fields .skipField).length = 2 ∧
      (fields .failFast).map (·.outcome) =
        Outcome.untilFailure ((fields .skipRecord).map (·.outcome)) ∧
      List.Forall₂ Recovers (fields .skipRecord) (fields .skipField) := by
  intro message schema octets fields
  let shells : List (Shell schema.encoding) :=
    [⟨.short 0x30 0x03 (by decide) (by decide), [0x02, 0x01, 0x05], rfl⟩,
      ⟨.short 0x30 0x03 (by decide) (by decide), [0x04, 0x01, 0x41], rfl⟩]
  have delivers : (Source.ofOctets octets).Delivers (Shell.octetsAll shells) :=
    Source.delivers_ofOctets octets
  have counted (mode : ErrorMode) (tolerant : mode ≠ .failFast) : (fields mode).length = 2 :=
    (@finish_append _ _ _ _ ⟨mode, true, 8⟩ _ _ Assembler.fields_nests _ _
      (fun _ => Assembler.moves_fields) tolerant shells [] _ _ _ delivers
      (Source.delivers_ofOctets []) (by rwa [List.append_nil])).1
  have agreed := modes_agree delivers schema true 8
  exact ⟨counted .skipRecord nofun, counted .skipField nofun, agreed.1⟩

end Records

end BerRecords
