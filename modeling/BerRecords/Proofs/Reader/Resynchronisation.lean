import BerRecords.Proofs.Reader.AtHand

/-!
# Going on after a failure

Whatever calls were made on a reader before, an element that fails is skipped to its
end, if its header was read and the source holds that much. Otherwise nothing is.
-/

set_option autoImplicit false

namespace BerRecords.Reader

inductive Call : Type 1 where
  | next {σ : Type} (visitor : Visitor σ) (state : σ)
  | skip

namespace Call

def after (reader : Reader) : Call → Reader
  | next visitor state => ((nextElement visitor).on (reader, state)).2.1
  | skip => (skipCurrent.on reader).2

def uncounted (reader : Reader) : Call → Nat
  | next visitor state => uncountedElement visitor reader state
  | skip => 0

theorem takes_after (reader : Reader) (call : Call) :
    Takes (call.uncounted reader) reader (call.after reader) := by
  cases call with
  | next visitor state => exact takes_nextElement visitor reader state
  | skip => exact takes_skipCurrent reader

end Call

def follow (reader : Reader) : List Call → Reader
  | [] => reader
  | call :: calls => follow (call.after reader) calls

def uncountedCalls (reader : Reader) : List Call → Nat
  | [] => 0
  | call :: calls => call.uncounted reader + uncountedCalls (call.after reader) calls

theorem takes_follow (reader : Reader) (calls : List Call) :
    Takes (uncountedCalls reader calls) reader (follow reader calls) := by
  induction calls generalizing reader with
  | nil => exact .refl reader
  | cons call calls ih => exact (call.takes_after reader).trans (ih (call.after reader))

/-- The reader has counted its way into these octets, and its source delivers the rest. -/
structure Abreast (octets : Octets) (reader : Reader) : Prop where
  offset_le : reader.offset ≤ octets.length
  delivers : reader.source.Delivers (octets.drop reader.offset)

variable {octets : Octets} {reader after : Reader} {lost : Nat}

theorem abreast_ofSource (encoding : TagEncoding) (maxDepth : Nat) {source : Source}
    (delivers : source.Delivers octets) : Abreast octets (ofSource encoding maxDepth source) :=
  ⟨Nat.zero_le _, delivers⟩

theorem Abreast.takes (abreast : Abreast octets reader) (takes : Takes lost reader after) :
    Abreast octets after := by
  obtain ⟨faultless, rfl⟩ := takes.faultless abreast.delivers.faultless
  obtain ⟨more, held, counted⟩ := takes.taken
  rw [abreast.delivers.held] at held
  have length := congrArg List.length held
  rw [List.length_drop, List.length_append] at length
  have bound := abreast.offset_le
  refine ⟨by omega, ?_⟩
  rw [Nat.add_zero] at counted
  rw [← counted, ← List.drop_drop, held, List.drop_left]
  exact faultless

/-- The element of this header is at hand in the reader, which stands inside it. It can
be skipped exactly if `octets`, all that the source had, hold it whole. -/
structure Resumes (octets : Octets) (header : Header) (reader : Reader) : Prop where
  current_eq : reader.current = some header
  started : header.contentStart ≤ reader.offset
  within : reader.offset ≤ header.stop
  whole : header.stop ≤ octets.length → ∃ last, skipCurrent.on reader = (.ok true, last) ∧
    last.offset = header.stop ∧ last.source.Delivers (octets.drop header.stop)
  cut : octets.length < header.stop → ∃ last, skipCurrent.on reader = (.ok false, last) ∧
    last.offset = octets.length ∧ last.source.Delivers []

theorem Abreast.resumes (abreast : Abreast octets reader) {header : Header}
    (hand : reader.current = some header) (started : header.contentStart ≤ reader.offset)
    (within : reader.offset ≤ header.stop) : Resumes octets header reader := by
  have bound := abreast.offset_le
  refine ⟨hand, started, within, fun whole => ?_, fun cut => ?_⟩
  · have parts := List.take_append_drop (header.stop - reader.offset) (octets.drop reader.offset)
    rw [List.drop_drop, Nat.add_sub_cancel' within] at parts
    have delivers := abreast.delivers
    rw [← parts] at delivers
    obtain ⟨source, passes, rest⟩ := delivers.split
    have reached : reader.offset +
        ((octets.drop reader.offset).take (header.stop - reader.offset)).length = header.stop := by
      rw [List.length_take, List.length_drop]
      omega
    exact ⟨_, skipCurrent_filled hand reached passes, reached, rest⟩
  · have counted : reader.offset + (octets.drop reader.offset).length = octets.length := by
      rw [List.length_drop, Nat.add_sub_cancel' bound]
    have short : reader.offset + (octets.drop reader.offset).length < header.stop := by
      rwa [counted]
    exact ⟨_, skipCurrent_short hand short abreast.delivers, counted, Source.delivers_nil⟩

theorem nextElement_resumes (abreast : Abreast octets reader) {encoding : TagEncoding}
    (same : reader.encoding = encoding) {σ : Type} (visitor : Visitor σ) (state : σ) :
    match (nextElement visitor).on (reader, state) with
    | (.ok _, after, _) => skipCurrent.on after = (.ok false, after)
    | (.error _, after, _) =>
      (∀ (heading : Heading encoding) rest, octets.drop reader.offset = heading.octets ++ rest →
          Resumes octets (heading.header reader.offset) after) ∧
        ((∀ (heading : Heading encoding) rest,
            octets.drop reader.offset ≠ heading.octets ++ rest) →
          skipCurrent.on after = (.ok false, after)) := by
  have abreast' := abreast.takes (takes_nextElement visitor reader state)
  rcases ran : (nextElement visitor).on (reader, state) with ⟨error | header?, after, state'⟩
  · rw [ran] at abreast'
    refine ⟨fun heading rest ahead => ?_, fun headless => ?_⟩
    · have delivers := abreast.delivers
      rw [ahead] at delivers
      obtain ⟨source, passes, -⟩ := delivers.split
      have handled := handled_nextElement visitor state same passes
      rw [ran] at handled
      cases handled with
      | stuck hand started within => exact abreast'.resumes hand started within
    · refine skipCurrent_idle ?_
      cases hand : after.current with
      | none => rfl
      | some header =>
          have ahead := heading_of_nextElement ran hand
          rw [same] at ahead
          obtain ⟨heading, source, passes⟩ := ahead
          obtain ⟨rest, ahead, -⟩ := abreast.delivers.rest passes
          exact absurd ahead (headless heading rest)
  · exact skipCurrent_idle (nextElement_ok_current ran)

/-- An element inside which the source ends fails, and nothing of the source is left when
it has been skipped. -/
theorem nextElement_of_cut {σ : Type} (visitor : Visitor σ) (state : σ)
    (delivers : reader.source.Delivers octets) {encoding : TagEncoding}
    (same : reader.encoding = encoding) {heading : Heading encoding} {source : Source}
    (passes : reader.source.Passes heading.octets source)
    (cut : octets.length < heading.octets.length + heading.length) :
    ∃ error after state' last, (nextElement visitor).on (reader, state) = (.error error, after, state') ∧
      skipCurrent.on after = (.ok false, last) ∧ last.offset = reader.offset + octets.length := by
  have handled := handled_nextElement visitor state same passes
  have takes := takes_nextElement visitor reader state
  obtain ⟨faultless, lost⟩ := takes.faultless delivers.faultless
  obtain ⟨taken, held, counted⟩ := takes.taken
  have length := congrArg List.length (delivers.held.symm.trans held)
  rw [List.length_append] at length
  have ends : (heading.header reader.offset).stop =
      reader.offset + heading.octets.length + heading.length := rfl
  generalize (nextElement visitor).on (reader, state) = ran at handled counted length faultless
  cases handled with
  | @read after state' idle reached =>
      dsimp only at counted length
      omega
  | @stuck error after state' hand started within =>
      dsimp only at counted length
      have short : after.offset + after.source.held.length < (heading.header reader.offset).stop := by
        omega
      have stands : after.offset + after.source.held.length = reader.offset + octets.length := by
        omega
      exact ⟨error, after, state', _, rfl, skipCurrent_short hand short faultless, stands⟩

/-- On a source without failures, whatever calls were made before: if an element fails
whose header can be read, the reader stands inside it and can skip to its end, unless the
source ends first. In all other cases there is nothing to skip. -/
theorem skip_after_nextElement {source : Source} (delivers : source.Delivers octets)
    (encoding : TagEncoding) (maxDepth : Nat) (calls : List Call) {σ : Type}
    (visitor : Visitor σ) (state : σ) :
    let reader := follow (ofSource encoding maxDepth source) calls
    Abreast octets reader ∧
      match (nextElement visitor).on (reader, state) with
      | (.ok _, after, _) => skipCurrent.on after = (.ok false, after)
      | (.error _, after, _) =>
        (∀ (heading : Heading encoding) rest, octets.drop reader.offset = heading.octets ++ rest →
            Resumes octets (heading.header reader.offset) after) ∧
          ((∀ (heading : Heading encoding) rest,
              octets.drop reader.offset ≠ heading.octets ++ rest) →
            skipCurrent.on after = (.ok false, after)) := by
  intro reader
  have takes := takes_follow (ofSource encoding maxDepth source) calls
  have abreast : Abreast octets reader := (abreast_ofSource encoding maxDepth delivers).takes takes
  have same : reader.encoding = encoding := congrArg Prod.fst takes.settings_eq
  exact ⟨abreast, nextElement_resumes abreast same visitor state⟩

/-- A sequence whose only component is declared too long, in front of another element. -/
theorem skip_after_overrun :
    let octets : Octets := [0x30, 0x03, 0x02, 0x05, 0x01, 0x02, 0x01, 0x07]
    ∃ error after events last, (nextElement Event.recorder).on
        (ofSource .singleOctet 8 (.ofOctets octets), #[]) = (.error error, after, events) ∧
      after.offset = 4 ∧ skipCurrent.on after = (.ok true, last) ∧ last.offset = 5 ∧
        last.source.Delivers [0x02, 0x01, 0x07] := by
  intro octets
  let outer : Heading .singleOctet := .short 0x30 0x03 (by decide) (by decide)
  let inner : Heading .singleOctet := .short 0x02 0x05 (by decide) (by decide)
  have delivers : (Source.ofOctets octets).Delivers octets := Source.delivers_ofOctets octets
  obtain ⟨source, passes, delivers'⟩ := @Source.Delivers.split _ outer.octets
    [0x02, 0x05, 0x01, 0x02, 0x01, 0x07] delivers
  obtain ⟨source', passes', -⟩ := @Source.Delivers.split source inner.octets
    [0x01, 0x02, 0x01, 0x07] delivers'
  let header := outer.header 0
  let inside : Reader := ⟨source, 2, .singleOctet, 8, some header⟩
  let stopped : Reader := ⟨source', 4, .singleOctet, 8, some header⟩
  have opened : (openElement none 0).on (ofSource .singleOctet 8 (.ofOctets octets)).between =
      (.ok (some header), inside) :=
    openElement_some_iff.2 ⟨outer, rfl, within_none _, Nat.succ_pos _, source, passes, rfl⟩
  have headed : (readHeader (some header)).on inside = (.ok (some (inner.header 2)), stopped) :=
    readHeader_some_iff.2 ⟨inner, rfl, within_some.2 (by decide), source', passes', rfl⟩
  have stuck : (step ⟨header, false⟩ []).on inside =
      (.error (.corrupt 2 (some 0) "" (.childrenMisfit 3 7)), stopped) := by
    have constructed : header.constructed = true := by decide
    have ahead : inside.offset < header.stop := by
      show 2 < header.stop
      decide
    simp only [step, constructed, ↓reduceIte, Attempt.on_bind, Attempt.on_get, ahead, openElement_on,
      headed]
    rfl
  have failed : (nextElement Event.recorder).on (ofSource .singleOctet 8 (.ofOctets octets), #[]) =
      (.error (.corrupt 2 (some 0) "" (.childrenMisfit 3 7)), stopped,
        #[(Signal.start header).event]) := by
    have told : (Event.recorder (.start header)).on #[] =
        (.ok (), #[(Signal.start header).event]) := rfl
    simp only [nextElement_on, opened, told, drive_cons, stuck]
  have settled := (skip_after_nextElement delivers .singleOctet 8 [] Event.recorder #[]).2
  rw [follow, failed] at settled
  have resumes := settled.1 outer [0x02, 0x05, 0x01, 0x02, 0x01, 0x07] rfl
  obtain ⟨last, skipped, stands, rest⟩ := resumes.whole (by decide)
  exact ⟨_, _, _, last, failed, rfl, skipped, stands, rest⟩

end BerRecords.Reader
