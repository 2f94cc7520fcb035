import BerRecords.Proofs.Records.Verdicts
import BerRecords.Proofs.Walk.Edit

/-!
# Recovery is local

One change inside a record that was decoded without recovery costs, with recovery, what was
changed and nothing else.
-/

set_option autoImplicit false

namespace BerRecords.Records

section

variable {σ β : Type} {schema : Schema} {assembler : Assembler σ β} {options : DecodeOptions}

theorem afterNexts_next (records : Records σ) (count : Nat) :
    afterNexts schema assembler options (next schema assembler options records).2 count =
      afterNexts schema assembler options records (count + 1) := by
  induction count with
  | zero => rfl
  | succ count ih => rw [afterNexts, ih, ← afterNexts]

/-- Every outcome of a run answers one of the requests. -/
theorem requested_of_finish {records : Records σ} {step : Step β}
    (member : step ∈ (finish schema assembler options records).1) :
    ∃ count, (next schema assembler options
      (afterNexts schema assembler options records count)).1 = some step.outcome := by
  induction bound : records.ahead using Nat.strongRecOn generalizing records with
  | ind _ ih =>
      rw [finish_eq] at member
      rcases given : next schema assembler options records with ⟨_ | outcome, after⟩
      · rw [given] at member
        cases member
      · rw [given] at member
        rcases List.mem_cons.1 member with rfl | later
        · exact ⟨0, by rw [afterNexts, given]⟩
        · obtain ⟨count, answered⟩ := ih _ (bound ▸ ahead_next given) later rfl
          refine ⟨count + 1, ?_⟩
          rwa [← afterNexts_next, given]

end

/-- A record that a run without recovery has decoded stands in the source, and no issue is to be
told of it. -/
theorem issueless_of_finish {schema : Schema} {options : DecodeOptions}
    (unforgiving : options.errorMode ≠ .skipField) {front back : Octets} {source : Source}
    {top : Element schema.encoding} (wellFormed : top.WellFormed)
    (delivers : source.Delivers (front ++ (top.octets ++ back)))
    {index stop : Nat} {fields : List Field} {issues : List Issue}
    (decoded : ⟨.decoded index front.length fields issues, stop⟩ ∈
      (finish schema .fields options (ofSource schema options .empty source)).1) :
    ∃ definition, schema.root? top.heading.tag = some definition ∧
      let told := Account.ofElement options.mandatory "" definition front.length top
      Account.issues told = [] ∧ fields = Account.fields told := by
  obtain ⟨count, answered⟩ := requested_of_finish decoded
  have idle := @afterNexts_fresh _ _ schema _ options _ _ Assembler.fields_nests source count
  have takes := @takes_afterNexts _ _ schema .fields options (ofSource schema options .empty source)
    count
  rcases given : next schema .fields options
    (afterNexts schema .fields options (ofSource schema options .empty source) count) with
    ⟨outcome?, after⟩
  rw [given] at answered
  subst answered
  obtain ⟨other, before, rest, definition, wellFormed', held, counted, root, rfl, rfl⟩ :=
    account_of_decoded given
  -- A source that does not fail loses no octets, so that the record is the one at its offset.
  rw [(takes.faultless delivers.faultless).2, Nat.add_zero] at counted
  obtain ⟨rfl, same⟩ := List.append_inj (held.symm.trans delivers.held) counted
  obtain rfl := Element.unique wellFormed' wellFormed same
  exact ⟨definition, root, issues_of_strict idle unforgiving given, rfl⟩

/-- Whatever stands around it: a record that is decoded where the first error ends the run is,
after one change inside, decoded with recovery. Its fields say what they said, but for the value
of a primitive element that gave way to a constructed one, for which null stands. One issue is
told, of the changed element. -/
theorem recovery_is_local {schema : Schema} {mandatory : Bool} {maxDepth : Nat} {edit : Edit}
    {top top' : Element schema.encoding} {fronts : List (Shell schema.encoding)} {back : Octets}
    {source source' : Source} {index stop : Nat} {fields : List Field} {issues : List Issue}
    (wellFormed : top.WellFormed) (wellFormed' : top'.WellFormed)
    (shallow' : top'.height ≤ maxDepth)
    (edited : Element.EditedIn schema edit (Shell.octetsAll fronts).length top top')
    (delivers : source.Delivers (Shell.octetsAll fronts ++ (top.octets ++ back)))
    (delivers' : source'.Delivers (Shell.octetsAll fronts ++ (top'.octets ++ back)))
    (decoded : ⟨.decoded index (Shell.octetsAll fronts).length fields issues, stop⟩ ∈
      (finish schema .fields ⟨.failFast, mandatory, maxDepth⟩
        (ofSource schema ⟨.failFast, mandatory, maxDepth⟩ .empty source)).1) :
    let offset := (Shell.octetsAll fronts).length
    let steps' : List (Step (List Field)) :=
      (finish schema .fields ⟨.skipField, mandatory, maxDepth⟩
        (ofSource schema ⟨.skipField, mandatory, maxDepth⟩ .empty source')).1
    ∃ fields' issues', edit.Shows fields fields' issues' ∧
      steps'[fronts.length]? =
        some ⟨.decoded fronts.length offset fields' issues', offset + top'.octets.length⟩ := by
  intro offset steps'
  obtain ⟨definition, root, none_told, rfl⟩ :=
    issueless_of_finish (by simp) wellFormed delivers decoded
  obtain ⟨root', tolerable, fits, shows⟩ :=
    Account.shows_editedIn edited wellFormed'.formed root none_told
  obtain ⟨ahead, counted, settled⟩ := @finish_of_shells _ _ schema .fields
    ⟨.skipField, mandatory, maxDepth⟩ _ _ Assembler.fields_nests _ _
    (fun _ => Assembler.moves_fields) (by simp) fronts 0 0
  obtain ⟨middle, ran, ready⟩ := settled _ _
    (ready_ofSource schema ⟨.skipField, mandatory, maxDepth⟩ Collected.empty delivers')
  rw [Nat.zero_add, Nat.zero_add] at ready
  obtain ⟨after, given, ready'⟩ := next_of_tolerable ready wellFormed' shallow' root' tolerable fits
    (.inl rfl)
  refine ⟨_, _, shows, ?_⟩
  have split : steps' = ahead ++
      (finish schema .fields ⟨.skipField, mandatory, maxDepth⟩ middle).1 := ran
  rw [split, finish_eq, given, ← counted]
  simp [ready'.offset_eq, offset]

/-- A message in which a text inside a part gives way to a constructed one of two texts, or is
followed by a text that the part does not know. -/
theorem recovery_is_local_in_message :
    let part : Definition := .record ⟨"part", some (.context 0), false⟩ .sequence
      [.scalar ⟨"name", some .octetString, false⟩ .octetString]
    let message : Definition := .record ⟨"msg", some .sequence, false⟩ .sequence
      [.scalar ⟨"id", some .integer, false⟩ .integer, part]
    let schema : Schema := ⟨[message], [message], .singleOctet⟩
    let octets : Octets := [0x30, 0x08, 0x02, 0x01, 0x05, 0xA0, 0x03, 0x04, 0x01, 0x41]
    let replaced : Octets := [0x30, 0x0D, 0x02, 0x01, 0x05, 0xA0, 0x08, 0x24, 0x06,
      0x04, 0x01, 0x41, 0x04, 0x01, 0x42]
    let inserted : Octets :=
      [0x30, 0x0B, 0x02, 0x01, 0x05, 0xA0, 0x06, 0x04, 0x01, 0x41, 0x0C, 0x01, 0x42]
    let fields : List Field :=
      [⟨"msg.id", some [0x05], .integer, 2⟩, ⟨"msg.part.name", some [0x41], .octetString, 7⟩]
    let steps (mode : ErrorMode) (octets : Octets) : List (Step (List Field)) :=
      (finish schema .fields ⟨mode, true, 8⟩
        (ofSource schema ⟨mode, true, 8⟩ .empty (.ofOctets octets))).1
    ⟨.decoded 0 0 fields [], 10⟩ ∈ steps .failFast octets ∧
      (∃ fields' issues', (Edit.replaced .octetString [0x41] 7 7).Shows fields fields' issues' ∧
        (steps .skipField replaced)[0]? = some ⟨.decoded 0 0 fields' issues', 15⟩) ∧
      ∃ fields' issues', (Edit.inserted 10).Shows fields fields' issues' ∧
        (steps .skipField inserted)[0]? = some ⟨.decoded 0 0 fields' issues', 13⟩ := by
  intro part message schema octets replaced inserted fields steps
  let number : Element .singleOctet := .leaf (.short 0x02 0x01 (by decide) (by decide)) [0x05]
  let text : Element .singleOctet := .leaf (.short 0x04 0x01 (by decide) (by decide)) [0x41]
  let other : Element .singleOctet := .leaf (.short 0x04 0x01 (by decide) (by decide)) [0x42]
  let unknown : Element .singleOctet := .leaf (.short 0x0C 0x01 (by decide) (by decide)) [0x42]
  let texts : Element .singleOctet := .branch (.short 0x24 0x06 (by decide) (by decide))
    [text, other]
  let top : Element .singleOctet := .branch (.short 0x30 0x08 (by decide) (by decide))
    [number, .branch (.short 0xA0 0x03 (by decide) (by decide)) [text]]
  let first : Element .singleOctet := .branch (.short 0x30 0x0D (by decide) (by decide))
    [number, .branch (.short 0xA0 0x08 (by decide) (by decide)) [texts]]
  let second : Element .singleOctet := .branch (.short 0x30 0x0B (by decide) (by decide))
    [number, .branch (.short 0xA0 0x06 (by decide) (by decide)) [text, unknown]]
  have wellFormed : top.WellFormed := by
    simp only [top, number, text, Element.WellFormed, Element.WellFormedAll]
    decide
  have first_wellFormed : first.WellFormed := by
    simp only [first, number, texts, text, other, Element.WellFormed, Element.WellFormedAll]
    decide
  have second_wellFormed : second.WellFormed := by
    simp only [second, number, text, unknown, Element.WellFormed, Element.WellFormedAll]
    decide
  let fronts : List (Shell schema.encoding) := []
  have in_part : Element.Edited (.replaced .octetString [0x41] 7 7) part 7 7 [text] [texts] :=
    @Element.Edited.replaced _ part
      ⟨some 0, .scalar ⟨"name", some .octetString, false⟩ .octetString⟩ 7 7 text
      (.short 0x24 0x06 (by decide) (by decide)) [text, other] [] rfl rfl rfl
  have first_edited : Element.EditedIn schema (.replaced .octetString [0x41] 7 7)
      (Shell.octetsAll fronts).length top first :=
    .top rfl rfl (.later (.inside rfl rfl in_part))
  have second_edited : Element.EditedIn schema (.inserted 10) (Shell.octetsAll fronts).length top
      second :=
    .top rfl rfl (.later (.inside rfl rfl (.later (.inserted rfl))))
  have delivers : (Source.ofOctets octets).Delivers (top.octets ++ []) :=
    Source.delivers_ofOctets octets
  have ready := ready_ofSource schema ⟨.failFast, true, 8⟩ Collected.empty delivers
  have shallow : top.height ≤ 8 := by decide
  obtain ⟨after, given, ready⟩ := @next_of_issueless schema _ _ _ _ _ top message ready wellFormed
    shallow rfl rfl
  have told_eq : Account.fields (Account.ofElement true "" message 0 top) = fields := by
    decide +kernel
  have decoded : ⟨.decoded 0 0 fields [], 10⟩ ∈ steps .failFast octets := by
    simp only [steps]
    rw [finish_eq, given]
    simp only [told_eq, ready.offset_eq]
    exact .head _
  refine ⟨decoded, ?_, ?_⟩
  · exact @recovery_is_local schema true 8 _ top first fronts [] _ _ 0 10 fields [] wellFormed
      first_wellFormed (by decide) first_edited delivers (Source.delivers_ofOctets replaced)
      decoded
  · exact @recovery_is_local schema true 8 _ top second fronts [] _ _ 0 10 fields [] wellFormed
      second_wellFormed (by decide) second_edited delivers (Source.delivers_ofOctets inserted)
      decoded

end BerRecords.Records
