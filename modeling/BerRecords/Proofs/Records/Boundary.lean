import BerRecords.Proofs.Reader.Resynchronisation
import BerRecords.Proofs.Records.Clean
import BerRecords.Proofs.Records.Isolation

/-!
# Where records begin

A decoding takes whole top-level elements from its source, one after another, and its
position is where they end, unless the source failed inside a value: what had been taken
of the value then is not counted.
-/

set_option autoImplicit false

namespace BerRecords

namespace Reader

variable {σ : Type} {visitor : Visitor σ} {state state' : σ} {reader after last : Reader}

theorem Takes.lost_eq {lost : Nat} (takes : Takes lost reader after) {octets : Octets}
    (held : reader.source.held = octets ++ after.source.held) :
    reader.offset + octets.length = after.offset + lost := by
  obtain ⟨octets', held', counted⟩ := takes.taken
  rw [held', List.append_left_inj] at held
  rwa [← held]

/-- An element that is read was a whole one, and all of it is counted. -/
theorem shell_of_nextElement {header : Header}
    (read : (nextElement visitor).on (reader, state) = (.ok (some header), after, state')) :
    header.offset = reader.offset ∧ uncountedElement visitor reader state = 0 ∧
      ∃ shell : Shell reader.encoding, reader.source.held = shell.octets ++ after.source.held ∧
        after.offset = reader.offset + shell.octets.length := by
  obtain ⟨element, source, wellFormed, -, passes, rfl⟩ := element_of_nextElement read
  have takes := takes_nextElement visitor reader state
  rw [read] at takes
  have counted := takes.lost_eq passes.held
  refine ⟨offset_of_nextElement read, Nat.left_eq_add.1 counted, ⟨element.heading,
    element.content, wellFormed.length_content⟩, ?_, ?_⟩
  · rw [Shell.octets, ← Element.octets_eq]
    exact passes.held
  · rw [Shell.octets, ← Element.octets_eq]
    rfl

theorem skipCurrent_true (skipped : skipCurrent.on reader = (.ok true, after)) :
    ∃ header, reader.current = some header ∧ after.offset = header.stop := by
  cases hand : reader.current with
  | none =>
      rw [skipCurrent_idle hand] at skipped
      cases skipped
  | some header =>
      refine ⟨header, rfl, ?_⟩
      rcases Nat.lt_or_ge header.stop reader.offset with past | behind
      · rw [skipCurrent_past hand past] at skipped
        cases skipped
      · rw [skipCurrent_inside hand behind] at skipped
        cases halt : (reader.source.take (header.stop - reader.offset)).halt with
        | filled =>
            obtain ⟨-, counted⟩ := Source.passes_take halt
            obtain ⟨-, rfl⟩ := Prod.mk.inj skipped
            exact (congrArg (reader.offset + ·) counted).trans (Nat.add_sub_cancel' behind)
        | exhausted => simp [halt] at skipped
        | failed => simp [halt] at skipped

/-- What is skipped is the rest of the element, and as many octets beyond it as were
taken before without being counted. -/
theorem shell_of_skipCurrent {error : DecodeError}
    (failed : (nextElement visitor).on (reader, state) = (.error error, after, state'))
    (skipped : skipCurrent.on after = (.ok true, last)) :
    ∃ (shell : Shell reader.encoding) (beyond : Octets),
      reader.source.held = shell.octets ++ (beyond ++ last.source.held) ∧
        last.offset = reader.offset + shell.octets.length ∧
          beyond.length = uncountedElement visitor reader state := by
  obtain ⟨header, hand, ends⟩ := skipCurrent_true skipped
  obtain ⟨heading, source, passes⟩ := heading_of_nextElement failed hand
  have handled := handled_nextElement visitor state rfl passes
  have takes := (takes_nextElement visitor reader state).trans
    (takes_skipCurrent ((nextElement visitor).on (reader, state)).2.1)
  rw [failed, skipped] at takes
  rw [failed] at handled
  cases handled with
  | stuck hand' =>
      rw [hand] at hand'
      cases hand'
      obtain ⟨octets, held, counted⟩ := takes.taken
      rw [ends] at counted
      simp only [Header.stop, Header.contentStart, Header.size, Heading.header] at counted ends
      obtain ⟨inside, rfl⟩ : ∃ inside, octets = heading.octets ++ inside := by
        rcases List.append_eq_append_iff.1 (passes.held.symm.trans held) with
          ⟨inside, whole, -⟩ | ⟨more, whole, -⟩
        · exact ⟨inside, whole⟩
        · have nothing : more = [] := by
            rw [← List.length_eq_zero_iff]
            have length := congrArg List.length whole
            rw [List.length_append] at length
            omega
          exact ⟨[], by rw [whole, nothing, List.append_nil, List.append_nil]⟩
      rw [List.length_append] at counted
      obtain ⟨shell, beyond, rfl, parts⟩ := @Shell.of_heading _ heading inside (by omega)
      have length := congrArg List.length parts
      rw [List.length_append, List.length_append] at length
      have whole := shell.length_octets
      refine ⟨shell, beyond, ?_, ?_, ?_⟩
      · rw [held, parts, List.append_assoc]
      · omega
      · omega

end Reader

def Outcome.offset? {β : Type} : Outcome β → Option Nat
  | .decoded _ offset _ _ | .dropped _ offset _ => some offset
  | .failed _ => none

namespace Records

open Reader (Takes)

variable {σ β : Type} (schema : Schema) (assembler : Assembler σ β) (options : DecodeOptions)

/-- How many octets the next request takes without counting them. -/
def uncounted (records : Records σ) : Nat :=
  if records.done then 0
  else Reader.uncountedElement (visitor schema assembler options) records.reader records.walk

def uncountedNexts (records : Records σ) : Nat → Nat
  | 0 => 0
  | count + 1 => uncountedNexts records count +
      uncounted schema assembler options (afterNexts schema assembler options records count)

variable {schema assembler options} {records after : Records σ} {index offset : Nat}
  {error : DecodeError} {outcome : Outcome β}

theorem uncounted_of_going (going : records.done = false) :
    uncounted schema assembler options records =
      Reader.uncountedElement (visitor schema assembler options) records.reader records.walk := by
  rw [uncounted, going, if_neg Bool.false_ne_true]

theorem offset?_of_givesUp
    (gives : GivesUp assembler options index offset error records (outcome, after)) :
    ∀ position ∈ outcome.offset?, position = offset := by
  cases gives with
  | failed => simp [Outcome.offset?]
  | resumed => simp [Outcome.offset?, eq_comm]
  | stranded => simp [Outcome.offset?, eq_comm]

/-- An outcome is placed where the reader stood. -/
theorem offset?_next
    (given : next schema assembler options records = (some outcome, after)) :
    ∀ position ∈ outcome.offset?, position = records.reader.offset := by
  have asked := request schema assembler options records
  rw [given] at asked
  cases asked with
  | decoded _ read =>
      rintro position ⟨⟩
      exact Reader.offset_of_nextElement read
  | broken _ _ gives => exact offset?_of_givesUp gives
  | unfinished _ _ _ gives => exact offset?_of_givesUp gives

theorem takes_of_givesUp
    (gives : GivesUp assembler options index offset error records (outcome, after)) :
    Takes 0 records.reader after.reader := by
  have skips := Reader.takes_skipCurrent records.reader
  cases gives with
  | failed => exact .refl _
  | resumed _ _ skipped =>
      rw [skipped] at skips
      exact skips
  | stranded _ _ skipped =>
      rw [skipped] at skips
      exact skips

theorem takes_next (records : Records σ) :
    Takes (uncounted schema assembler options records) records.reader
      (next schema assembler options records).2.reader := by
  have takes := Reader.takes_nextElement (visitor schema assembler options) records.reader
    records.walk
  have asked := request schema assembler options records
  generalize next schema assembler options records = given at asked ⊢
  cases asked with
  | stopped done =>
      rw [uncounted, if_pos done]
      exact .refl _
  | ended going read =>
      rw [uncounted_of_going going]
      rwa [read] at takes
  | decoded going read =>
      rw [uncounted_of_going going]
      rwa [read] at takes
  | broken going read gives =>
      rw [uncounted_of_going going]
      rw [read] at takes
      exact takes.trans (takes_of_givesUp gives)
  | unfinished going read _ gives =>
      rw [uncounted_of_going going]
      rw [read] at takes
      exact takes.trans (takes_of_givesUp gives)

/-- Unless octets were left uncounted, a request takes a whole element or ends the run. -/
theorem shell_of_next (counted : uncounted schema assembler options records = 0) :
    (next schema assembler options records).2.done = true ∨
      ∃ shell : Shell records.reader.encoding,
        let after := (next schema assembler options records).2
        records.reader.source.held = shell.octets ++ after.reader.source.held ∧
          after.reader.offset = records.reader.offset + shell.octets.length := by
  have asked := request schema assembler options records
  generalize next schema assembler options records = given at asked ⊢
  cases asked with
  | stopped done => exact .inl done
  | ended => exact .inl rfl
  | decoded _ read =>
      obtain ⟨-, -, shell, held, stands⟩ := Reader.shell_of_nextElement read
      exact .inr ⟨shell, held, stands⟩
  | broken going read gives =>
      rw [uncounted_of_going going] at counted
      cases gives with
      | failed => exact .inl rfl
      | stranded => exact .inl rfl
      | resumed _ _ skipped =>
          obtain ⟨shell, beyond, held, stands, nothing⟩ := Reader.shell_of_skipCurrent read skipped
          rw [counted, List.length_eq_zero_iff] at nothing
          subst nothing
          exact .inr ⟨shell, held, stands⟩
  | unfinished _ read _ gives =>
      have idle := Reader.nextElement_ok_current read
      cases gives with
      | failed => exact .inl rfl
      | stranded => exact .inl rfl
      | resumed _ _ skipped =>
          rw [Reader.skipCurrent_idle idle] at skipped
          cases skipped

theorem takes_afterNexts (records : Records σ) (count : Nat) :
    Takes (uncountedNexts schema assembler options records count) records.reader
      (afterNexts schema assembler options records count).reader := by
  induction count with
  | zero => exact .refl _
  | succ count ih => exact ih.trans (takes_next _)

/-- Unless octets were left uncounted, what was taken are whole elements, and the position
is their length. -/
theorem shells_of_afterNexts {fresh : σ} {source : Source} (count : Nat)
    (counted : uncountedNexts schema assembler options (ofSource schema options fresh source)
      count = 0) :
    let after := afterNexts schema assembler options (ofSource schema options fresh source) count
    after.done = true ∨ ∃ shells : List (Shell schema.encoding),
      source.held = Shell.octetsAll shells ++ after.reader.source.held ∧
        after.reader.offset = (Shell.octetsAll shells).length := by
  induction count with
  | zero => exact .inr ⟨[], rfl, rfl⟩
  | succ count ih =>
      obtain ⟨before, now⟩ := Nat.add_eq_zero_iff.1 counted
      have takes := @takes_afterNexts _ _ schema assembler options
        (ofSource schema options fresh source) count
      simp only [afterNexts]
      rcases ih before with done | ⟨shells, held, stands⟩
      · refine .inl ?_
        rw [next, if_pos done]
        exact done
      · generalize afterNexts schema assembler options _ count = records at now takes held stands ⊢
        have same : records.reader.encoding = schema.encoding := congrArg Prod.fst takes.settings_eq
        refine (shell_of_next now).imp_right fun whole => ?_
        rw [same] at whole
        obtain ⟨shell, held', stands'⟩ := whole
        have together : Shell.octetsAll (shells ++ [shell]) =
            Shell.octetsAll shells ++ shell.octets := by
          simp [Shell.octetsAll]
        refine ⟨shells ++ [shell], ?_, ?_⟩
        · rw [together, List.append_assoc, ← held', held]
        · rw [together, List.length_append, ← stands, stands']

/-- A place at which whole elements end in front of these octets, so that one may begin. -/
def Boundary (encoding : TagEncoding) (octets : Octets) (position : Nat) : Prop :=
  ∃ (shells : List (Shell encoding)) (rest : Octets),
    octets = Shell.octetsAll shells ++ rest ∧ position = (Shell.octetsAll shells).length

/-- Whatever a source does, a reader counts the octets that it takes, those apart that it
got of a value before the source failed. What is skipped after such a failure ends so many
octets too far. If there were none, every outcome is placed where an element may begin. -/
theorem offset_counts_unless_value_fails (source : Source) :
    (∀ (encoding : TagEncoding) (maxDepth : Nat) (calls : List Reader.Call),
      let start := Reader.ofSource encoding maxDepth source
      let reader := Reader.follow start calls
      let lost := Reader.uncountedCalls start calls
      (source.Faultless → lost = 0) ∧
        (∃ taken, source.held = taken ++ reader.source.held ∧
          taken.length = reader.offset + lost ∧ (reader.offset = taken.length ↔ lost = 0)) ∧
        ∀ {σ : Type} (visitor : Visitor σ) (state : σ) {error : DecodeError} {after last : Reader}
          {state' : σ}, (Reader.nextElement visitor).on (reader, state) = (.error error, after, state') →
            Reader.skipCurrent.on after = (.ok true, last) →
              ∃ (shell : Shell encoding) (beyond : Octets),
                reader.source.held = shell.octets ++ (beyond ++ last.source.held) ∧
                  last.offset = reader.offset + shell.octets.length ∧
                    beyond.length = Reader.uncountedElement visitor reader state) ∧
      ∀ {σ β : Type} (schema : Schema) (assembler : Assembler σ β) (options : DecodeOptions)
        (fresh : σ) (count : Nat),
        let start := ofSource schema options fresh source
        let records := afterNexts schema assembler options start count
        let lost := uncountedNexts schema assembler options start count
        ∀ {outcome : Outcome β} {after : Records σ},
          next schema assembler options records = (some outcome, after) →
            ∀ position ∈ outcome.offset?,
              (∃ taken, source.held = taken ++ records.reader.source.held ∧
                taken.length = position + lost) ∧
                  (lost = 0 → Boundary schema.encoding source.held position) := by
  constructor
  · intro encoding maxDepth calls start reader lost
    have takes : Takes lost start reader := Reader.takes_follow start calls
    have same : reader.encoding = encoding := congrArg Prod.fst takes.settings_eq
    refine ⟨fun faultless => (takes.faultless faultless).2, ?_, ?_⟩
    · obtain ⟨taken, held, counted⟩ := takes.taken
      have counted' : taken.length = reader.offset + lost := (Nat.zero_add _).symm.trans counted
      exact ⟨taken, held, counted', by omega⟩
    · intro σ visitor state error after last state' failed skipped
      have whole := Reader.shell_of_skipCurrent failed skipped
      rwa [same] at whole
  · intro σ β schema assembler options fresh count start records lost outcome after given
      position placed
    have takes : Takes lost start.reader records.reader := takes_afterNexts start count
    have stands := offset?_next given position placed
    subst stands
    refine ⟨?_, fun counted => ?_⟩
    · obtain ⟨taken, held, counted⟩ := takes.taken
      exact ⟨taken, held, (Nat.zero_add _).symm.trans counted⟩
    · have going : records.done = false := (next_some given).1
      rcases shells_of_afterNexts count counted with done | ⟨shells, held, stands⟩
      · exact absurd (going.symm.trans done) nofun
      · exact ⟨shells, records.reader.source.held, held, stands⟩

/-- A source that fails once inside the value of the first of two elements. What is skipped
then ends one octet inside the second. -/
theorem offset_after_failed_value :
    let source : Source := ⟨[.piece 0x04 [0x03, 0x41], .failure "source failed",
      .piece 0x42 [0x43, 0x02, 0x02, 0x01, 0x05]], .exhausted⟩
    let start := Reader.ofSource .singleOctet 8 source
    let calls : List Reader.Call := [.next Event.recorder #[], .skip]
    let reader := Reader.follow start calls
    reader.offset = 5 ∧ reader.source.held = [0x02, 0x01, 0x05] ∧
      Reader.uncountedCalls start calls = 1 := by
  intro source start calls reader
  let heading : Heading .singleOctet := .short 0x04 0x03 (by decide) (by decide)
  let header := heading.header 0
  let value : Source := ⟨[.piece 0x41 [], .failure "source failed",
    .piece 0x42 [0x43, 0x02, 0x02, 0x01, 0x05]], .exhausted⟩
  let rest : Source := ⟨[.piece 0x42 [0x43, 0x02, 0x02, 0x01, 0x05]], .exhausted⟩
  let stopped : Reader := ⟨rest, 2, .singleOctet, 8, some header⟩
  have opened : (Reader.openElement none 0).on start.between =
      (.ok (some header), ⟨value, 2, .singleOctet, 8, some header⟩) :=
    Reader.openElement_some_iff.2 ⟨heading, rfl, Reader.within_none _, by decide, value,
      .cons rfl (.cons rfl .nil), rfl⟩
  have failed : (Reader.nextElement Event.recorder).on (start, #[]) =
      (.error (.source "source failed"), stopped, #[(Signal.start header).event]) := by
    have told : (Event.recorder (.start header)).on #[] =
        (.ok (), #[(Signal.start header).event]) := rfl
    have stuck : (Reader.step ⟨header, false⟩ []).on ⟨value, 2, .singleOctet, 8, some header⟩ =
        (.error (.source "source failed"), stopped) := rfl
    simp only [Reader.nextElement_on, opened, told, Reader.drive_cons, stuck]
  have reached : reader = ⟨⟨[.piece 0x02 [0x01, 0x05]], .exhausted⟩, 5, .singleOctet, 8, none⟩ := by
    have after : (Reader.Call.next Event.recorder #[]).after start = stopped := by
      rw [Reader.Call.after, failed]
    simp only [reader, calls, Reader.follow, after]
    rfl
  have settled := (offset_counts_unless_value_fails source).1 .singleOctet 8 calls
  obtain ⟨taken, held, counted, -⟩ := settled.2.1
  have there : reader.source.held = [0x02, 0x01, 0x05] := by rw [reached]; rfl
  have stands : reader.offset = 5 := by rw [reached]
  refine ⟨stands, there, ?_⟩
  have length := congrArg List.length held
  rw [List.length_append, counted] at length
  change 9 = reader.offset + Reader.uncountedCalls start calls + reader.source.held.length at length
  rw [stands, there, List.length_cons, List.length_cons, List.length_singleton] at length
  omega

end Records

end BerRecords
