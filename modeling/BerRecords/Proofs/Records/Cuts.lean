import BerRecords.Proofs.Displacement.Records
import BerRecords.Proofs.Reader.Cuts
import BerRecords.Proofs.Records.Request

/-!
# Records do not depend on how a source is cut

Whatever assembler and options a decoding has, its outcomes and places are settled by the
octets that its source delivers.
-/

set_option autoImplicit false

namespace BerRecords

theorem FieldEvent.displace_zero (event : FieldEvent) : event.displace 0 = event := by
  cases event with
  | enter | field | leave | missing => rfl

theorem Issue.displace_zero (issue : Issue) : issue.displace 0 = issue := by
  rw [displace, DecodeError.displace_zero]
  rfl

theorem Assembler.moves_zero {σ β : Type} (assembler : Assembler σ β) :
    assembler.Moves 0 id id where
  sink :=
    { receive := fun event state => by rw [Attempt.displace_zero, FieldEvent.displace_zero]; rfl
      note := fun issue state => by rw [Issue.displace_zero]; rfl }
  finish state := by rw [Option.map_id]; rfl
  discard _ := rfl

theorem Outcome.displace_zero {β : Type} (outcome : Outcome β) :
    outcome.displace 0 0 id = outcome := by
  have issues_eq (issues : List Issue) : issues.map (·.displace 0) = issues := by
    simp [Issue.displace_zero]
  cases outcome with
  | decoded => rw [displace, issues_eq]; rfl
  | dropped => rw [displace, DecodeError.displace_zero]; rfl
  | failed => rw [displace, DecodeError.displace_zero]

namespace Records

variable {σ β : Type} {schema : Schema} {assembler : Assembler σ β} {options : DecodeOptions}
  {near far : Records σ}

/-- Decodings at the same place, whose sources hold the same octets. -/
def Paired (near far : Records σ) : Prop :=
  ∃ stop, Alike 0 0 [] stop id near far

theorem paired_ofSource (schema : Schema) (options : DecodeOptions) (state : σ)
    {source source' : Source} {octets : Octets} (delivers : source.Delivers octets)
    (delivers' : source'.Delivers octets) :
    Paired (ofSource schema options state source) (ofSource schema options state source') := by
  obtain ⟨stop, beside⟩ :=
    Reader.twins_ofSource schema.encoding options.maxDepth delivers delivers'
  exact ⟨stop, beside, by simp [ofSource, Walk.start, Walk.displace, Recording.displace], rfl, rfl⟩

theorem paired_next (paired : Paired near far) :
    (next schema assembler options far).1 = (next schema assembler options near).1 ∧
      Paired (next schema assembler options near).2 (next schema assembler options far).2 := by
  obtain ⟨stop, alike⟩ := paired
  obtain ⟨same, alike'⟩ := @alike_next _ _ _ _ _ _ _ _ schema assembler options _ _
    assembler.moves_zero alike (.inl rfl)
  refine ⟨?_, stop, alike'⟩
  rw [same, show Outcome.displace 0 0 id = id from funext Outcome.displace_zero, Option.map_id]
  rfl

theorem Paired.afterNexts (paired : Paired near far) (count : Nat) :
    Paired (afterNexts schema assembler options near count)
      (afterNexts schema assembler options far count) := by
  induction count with
  | zero => exact paired
  | succ count ih => exact (paired_next ih).2

theorem Paired.offset_eq (paired : Paired near far) : far.reader.offset = near.reader.offset := by
  obtain ⟨stop, alike⟩ := paired
  exact alike.reader.offset_eq

theorem paired_finish (paired : Paired near far) :
    (finish schema assembler options far).1 = (finish schema assembler options near).1 := by
  obtain ⟨stop, alike⟩ := paired
  have same := @finish_displace _ _ _ _ _ _ _ schema assembler options _ _
    assembler.moves_zero alike
  have still : Step.displace 0 0 (id : β → β) = id := by
    funext step
    rw [Step.displace, Outcome.displace_zero]
    rfl
  rw [same, still, List.map_id]

end Records

/-- Octets, values and what is skipped are read in three loops of read calls, and each gets
what the source holds. So two sources that hold the same octets, in pieces of any size and
with any interruptions, cannot be told apart: after any calls on a reader, whatever is called
next gives the same, tells the visitor the same and leaves the reader at the same place; and
all requests to a decoding give the same outcome at the same place. -/
theorem cuts_do_not_show :
    (∀ reader, Reader.nextOctet?.on reader = Reader.octetByCall?.on reader) ∧
    (∀ header reader ran,
      Reader.ReadsValue header reader ran ↔ ran = (Reader.readValue header).on reader) ∧
    (∀ reader, Reader.skipCurrent.on reader = Reader.skipByCalls.on reader) ∧
    ∀ deliveries deliveries' : List Delivery,
      (∀ reason, .failure reason ∉ deliveries) → (∀ reason, .failure reason ∉ deliveries') →
      Source.contents deliveries = Source.contents deliveries' →
      (∀ encoding maxDepth calls,
        let reader := Reader.follow (.ofSource encoding maxDepth ⟨deliveries, .exhausted⟩) calls
        let reader' := Reader.follow (.ofSource encoding maxDepth ⟨deliveries', .exhausted⟩) calls
        (∀ (σ : Type) (visitor : Visitor σ) state,
          Reader.seen ((Reader.nextElement visitor).on (reader, state)) =
              Reader.seen ((Reader.nextElement visitor).on (reader', state)) ∧
            Reader.seen (Reader.process visitor reader state) =
              Reader.seen (Reader.process visitor reader' state)) ∧
        Reader.seen ((Reader.skipCurrent.on reader).1, (Reader.skipCurrent.on reader).2, ()) =
          Reader.seen ((Reader.skipCurrent.on reader').1, (Reader.skipCurrent.on reader').2, ())) ∧
      ∀ (σ β : Type) (schema : Schema) (assembler : Assembler σ β) options state,
        let records := Records.ofSource schema options state ⟨deliveries, .exhausted⟩
        let records' := Records.ofSource schema options state ⟨deliveries', .exhausted⟩
        (records.finish schema assembler options).1 = (records'.finish schema assembler options).1 ∧
        ∀ count,
          let near := Records.afterNexts schema assembler options records count
          let far := Records.afterNexts schema assembler options records' count
          (near.next schema assembler options).1 = (far.next schema assembler options).1 ∧
            near.reader.offset = far.reader.offset := by
  refine ⟨Reader.nextOctet?_eq_octetByCall?, fun _ _ _ => Reader.readsValue_iff,
    Reader.skipCurrent_eq_skipByCalls, ?_⟩
  intro deliveries deliveries' faultless faultless' same
  have delivers := Source.delivers_contents deliveries faultless
  have delivers' := Source.delivers_contents deliveries' faultless'
  rw [← same] at delivers'
  constructor
  · intro encoding maxDepth calls reader reader'
    have twins : Reader.Twins reader reader' :=
      (Reader.twins_ofSource encoding maxDepth delivers delivers').follow calls
    refine ⟨fun σ visitor state => ⟨?_, ?_⟩, ?_⟩
    · obtain ⟨result_eq, state_eq, after⟩ := Reader.twins_nextElement twins visitor state
      exact after.seen_eq result_eq state_eq
    · obtain ⟨result_eq, state_eq, after⟩ := Reader.twins_process twins visitor state
      exact after.seen_eq result_eq state_eq
    · obtain ⟨result_eq, after⟩ := Reader.twins_skipCurrent twins
      exact after.seen_eq result_eq rfl
  · intro σ β schema assembler options state records records'
    have paired : Records.Paired records records' :=
      Records.paired_ofSource schema options state delivers delivers'
    refine ⟨(Records.paired_finish paired).symm, fun count => ?_⟩
    have later := @Records.Paired.afterNexts _ _ schema assembler options _ _ paired count
    exact ⟨(Records.paired_next later).1.symm, later.offset_eq.symm⟩

/-- An octet string in one piece, and cut inside its heading and its value with interruptions
between: the same element is read, and the same events are told of it. -/
theorem cuts_do_not_show_of_value :
    let whole : List Delivery := [.piece 0x04 [0x03, 0x41, 0x42, 0x43]]
    let cut : List Delivery := [.interrupted, .piece 0x04 [], .piece 0x03 [0x41], .interrupted,
      .interrupted, .piece 0x42 [], .piece 0x43 [], .interrupted]
    let read (deliveries : List Delivery) := Reader.seen <| (Reader.nextElement Event.recorder).on
      (Reader.ofSource .singleOctet 64 ⟨deliveries, .exhausted⟩, #[])
    (∀ reason, .failure reason ∉ whole) ∧ (∀ reason, .failure reason ∉ cut) ∧
      Source.contents whole = Source.contents cut ∧
      read whole = (.ok (some ⟨.octetString, 3, 0, [0x04, 0x03]⟩),
        #[.start .octetString 3 false 0, .value [0x41, 0x42, 0x43], .stop .octetString], 5, none) ∧
      read cut = read whole := by
  intro whole cut read
  have faultless : ∀ reason, .failure reason ∉ whole := by simp [whole]
  have faultless' : ∀ reason, .failure reason ∉ cut := by simp [cut]
  have same : Source.contents whole = Source.contents cut := by decide
  refine ⟨faultless, faultless', same, ?_, ?_⟩
  · let element : Element .singleOctet :=
      .leaf (.short 0x04 0x03 (by decide) (by decide)) [0x41, 0x42, 0x43]
    have wellFormed : element.WellFormed := by
      rw [Element.WellFormed]
      exact ⟨rfl, rfl⟩
    have shallow : element.height ≤ 64 := by rw [Element.height]; decide
    obtain ⟨last, passes, -⟩ := Source.delivers_contents whole faultless
    have found := Reader.nextElement_of_element Event.recorder element
      (.ofSource .singleOctet 64 ⟨whole, .exhausted⟩) #[] rfl wellFormed shallow passes
    exact congrArg Reader.seen found
  · obtain ⟨-, -, -, settled⟩ := cuts_do_not_show
    have reads := ((settled whole cut faultless faultless' same).1 .singleOctet 64 []).1
    exact (reads _ Event.recorder #[]).1.symm

end BerRecords
