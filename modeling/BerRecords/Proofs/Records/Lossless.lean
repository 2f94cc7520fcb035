import BerRecords.Proofs.Records.Accounts

/-!
# What a record holds of its element

The octets of an element of any content are kept as they stood in the source, and every
leaf of the element that was decoded is accounted for in one way.
-/

set_option autoImplicit false

namespace BerRecords

namespace Element

variable {encoding : TagEncoding} {outer inner : Element encoding} {offset place shift : Nat}
  {octets : Octets}

def StandsIn (element : Element encoding) (octets : Octets) (position : Nat) : Prop :=
  ∃ before rest, octets = before ++ (element.octets ++ rest) ∧ before.length = position

theorem Holds.standsIn (holds : outer.Holds offset inner place)
    (stands : outer.StandsIn octets (offset + shift)) : inner.StandsIn octets (place + shift) := by
  obtain ⟨before, rest, rfl, counted⟩ := stands
  obtain ⟨front, back, parts, rfl⟩ := holds.slice
  refine ⟨before ++ front, back ++ rest, ?_, ?_⟩
  · rw [parts]
    simp only [List.append_assoc]
  · rw [List.length_append, counted]
    omega

theorem WellFormedAll.of_append {front back : List (Element encoding)}
    (wellFormed : WellFormedAll (front ++ back)) : WellFormedAll back := by
  induction front with
  | nil => exact wellFormed
  | cons element front ih =>
      rw [List.cons_append, WellFormedAll] at wellFormed
      exact ih wellFormed.2

theorem Holds.wellFormed (holds : outer.Holds offset inner place) (wellFormed : outer.WellFormed) :
    inner.WellFormed := by
  induction holds with
  | itself => exact wellFormed
  | child _ ih =>
      rw [WellFormed] at ih
      have inside := ih.2.2.of_append
      rw [WellFormedAll] at inside
      exact inside.1

/-- The content of an element is the part of the octets that its heading tells. -/
theorem StandsIn.content_eq (stands : inner.StandsIn octets place)
    (wellFormed : inner.WellFormed) :
    inner.content =
      (octets.drop (place + inner.heading.octets.length)).take inner.heading.length := by
  obtain ⟨before, rest, rfl, rfl⟩ := stands
  rw [octets_eq, ← wellFormed.length_content, List.append_assoc, ← List.append_assoc before,
    ← List.length_append, List.drop_left, List.take_left]

/-- Well-formed elements that begin at one place are the same. -/
theorem StandsIn.unique (stands : inner.StandsIn octets place)
    (stands' : outer.StandsIn octets place) (wellFormed : inner.WellFormed)
    (wellFormed' : outer.WellFormed) : inner = outer := by
  obtain ⟨before, rest, rfl, counted⟩ := stands
  obtain ⟨before', rest', same, counted'⟩ := stands'
  obtain ⟨-, same⟩ := List.append_inj same (counted.trans counted'.symm)
  exact Element.unique wellFormed wellFormed' same

end Element

namespace Records

variable {schema : Schema} {options : DecodeOptions} {source : Source} {count index offset : Nat}
  {fields : List Field} {issues : List Issue} {after : Records Collected}

/-- The first record of a source, when a walk takes all that is said of the element at its
front. -/
theorem next_of_front {top : Element schema.encoding} {rest : Source}
    (wellFormed : top.WellFormed) (shallow : top.height ≤ options.maxDepth)
    (passes : source.Passes top.octets rest)
    (accepted : (((visitor schema .fields options).tell (top.signals 0)).on
      (.start ⟨.empty, #[]⟩)).1.isOk)
    (kept : (((visitor schema .fields options).tell (top.signals 0)).on
      (.start ⟨.empty, #[]⟩)).2.sink.inner.fields.toList = fields)
    (noted : (((visitor schema .fields options).tell (top.signals 0)).on
      (.start ⟨.empty, #[]⟩)).2.sink.issues.toList = issues) :
    ∃ after, next schema .fields options (ofSource schema options .empty source) =
      (some (.decoded 0 0 fields issues), after) := by
  generalize told : ((visitor schema .fields options).tell (top.signals 0)).on
    (.start ⟨.empty, #[]⟩) = reply at accepted kept noted
  obtain ⟨_ | ⟨⟩, walk⟩ := reply
  · cases accepted
  · subst kept noted
    exact ⟨_, @next_of_element _ _ schema .fields options (ofSource schema options .empty source)
      top walk _ _ _ rfl wellFormed shallow passes told rfl⟩

/-- For every element of any content, a record of fields has one field with the octets that
the source held between the heading of the element and its end, and the record has no other
field from inside. The places in the source are ahead of the offsets by the octets that
were taken of values before the source failed. -/
theorem any_captured_whole
    (decoded : next schema .fields options
      (afterNexts schema .fields options (ofSource schema options .empty source) count) =
        (some (.decoded index offset fields issues), after)) :
    let lost := uncountedNexts schema .fields options (ofSource schema options .empty source) count
    (source.Faultless → lost = 0) ∧
      ∃ top : Element schema.encoding, top.WellFormed ∧ top.StandsIn source.held (offset + lost) ∧
        ∀ inner place, AnyAt schema top offset inner place → ∃ path,
          fields.filter (inner.spans place ·.offset) =
            [⟨path, some ((source.held.drop (place + inner.heading.octets.length + lost)).take
              inner.heading.length), .any, place⟩] := by
  intro lost
  have takes := @takes_afterNexts _ _ schema .fields options (ofSource schema options .empty source)
    count
  obtain ⟨top, before, rest, definition, wellFormed, held, counted, root, rfl, -⟩ :=
    account_of_decoded decoded
  have stands : top.StandsIn source.held (offset + lost) := ⟨before, rest, held, counted⟩
  refine ⟨fun faultless => (takes.faultless faultless).2, top, wellFormed, stands, ?_⟩
  rintro inner place ⟨found, resolves, any⟩
  obtain ⟨path, all⟩ := Account.about_any options.mandatory root resolves any
  have content := (resolves.holds.standsIn stands).content_eq (resolves.holds.wellFormed wellFormed)
  rw [Nat.add_right_comm] at content
  exact ⟨path, content ▸ Account.field_of_about_any any all⟩

/-- A message with an element of any content: one inside which a tag number below 31 is
spelled in two octets and lengths with more octets than they need. -/
theorem any_captured_whole_of_message :
    let body : Definition := .any ⟨"body", none, false⟩ "id"
    let message : Definition := .record ⟨"msg", some .sequence, false⟩ .sequence [body]
    let schema : Schema := ⟨[message], [message], .multiOctet⟩
    let options : DecodeOptions := ⟨.failFast, true, 8⟩
    let octets : Octets :=
      [0x30, 0x09, 0x31, 0x82, 0x00, 0x05, 0x1F, 0x05, 0x81, 0x01, 0x41]
    let fields : List Field :=
      [⟨"msg.body", some [0x1F, 0x05, 0x81, 0x01, 0x41], .any, 2⟩]
    (∃ after, next schema .fields options (ofSource schema options .empty (.ofOctets octets)) =
        (some (.decoded 0 0 fields []), after)) ∧
      ∃ path, fields = [⟨path, some ((octets.drop 6).take 5), .any, 2⟩] := by
  intro body message schema options octets fields
  let inside : Element .multiOctet := .leaf
    ⟨.ofLeadOctet 0x1F 5, 1, [0x1F, 0x05], [0x81, 0x01],
      @Identifier.Spells.long _ 0x1F 0x05 [] rfl (by decide) (by decide) (by decide) (by simp)
        (by decide),
      @Length.Spells.long 0x81 [0x01] (by decide) (by decide) (by decide)⟩ [0x41]
  let held : Element .multiOctet := .branch
    ⟨.ofLeadOctet 0x31 17, 5, [0x31], [0x82, 0x00, 0x05], .short (by decide),
      @Length.Spells.long 0x82 [0x00, 0x05] (by decide) (by decide) (by decide)⟩ [inside]
  let top : Element .multiOctet := .branch (.short 0x30 0x09 (by decide) (by decide)) [held]
  have wellFormed : top.WellFormed := by
    simp only [top, held, inside, Element.WellFormed, Element.WellFormedAll]
    decide
  have delivers : (Source.ofOctets octets).Delivers (top.octets ++ []) :=
    Source.delivers_ofOctets octets
  obtain ⟨rest, passes, -⟩ := delivers.split
  obtain ⟨after, decoded⟩ := @next_of_front schema options (.ofOctets octets) fields [] top rest
    wellFormed (by decide) passes (by decide +kernel) (by decide +kernel) (by decide +kernel)
  refine ⟨⟨after, decoded⟩, ?_⟩
  obtain ⟨-, top', wellFormed', stands', captured⟩ := @any_captured_whole _ _ _ 0 _ _ _ _ _ decoded
  have stands : top.StandsIn (Source.ofOctets octets).held 0 := ⟨[], [], by rfl, rfl⟩
  obtain rfl := stands'.unique stands wellFormed' wellFormed
  have resolves : Resolves schema top 0 held 2 (some body) :=
    @Resolves.child _ schema top 0 (.short 0x30 0x09 (by decide) (by decide)) [] [] held 0 message
      (.top rfl) rfl
  exact captured held 2 ⟨body, resolves, rfl⟩

/-- Exactly one thing becomes of every leaf of a record of fields, and the fields with a value
stand in the order of the stream. -/
theorem leaf_has_one_fate
    (decoded : next schema .fields options
      (afterNexts schema .fields options (ofSource schema options .empty source) count) =
        (some (.decoded index offset fields issues), after)) :
    let lost := uncountedNexts schema .fields options (ofSource schema options .empty source) count
    (source.Faultless → lost = 0) ∧
      ∃ top : Element schema.encoding, top.WellFormed ∧ top.StandsIn source.held (offset + lost) ∧
        (∀ heading value place, top.Holds offset (.leaf heading value) place →
          ∃! fate : Fate, fate.Befalls schema top offset fields issues (.leaf heading value) place) ∧
        ((fields.filter (·.value.isSome)).map (·.offset)).Pairwise (· < ·) := by
  intro lost
  have takes := @takes_afterNexts _ _ schema .fields options (ofSource schema options .empty source)
    count
  obtain ⟨top, before, rest, definition, wellFormed, held, counted, root, rfl, rfl⟩ :=
    account_of_decoded decoded
  refine ⟨fun faultless => (takes.faultless faultless).2, top, wellFormed,
    ⟨before, rest, held, counted⟩, ?_, ?_⟩
  · intro heading value place holds
    exact Account.fate_unique root wellFormed.formed holds
  · exact Account.ascending_ofElement options.mandatory top "" definition offset

/-- A message of a number, of a part that holds a leaf of any content, and of a leaf that the
schema does not know. -/
theorem leaf_has_one_fate_in_message :
    let part : Definition := .record ⟨"part", some (.context 0), false⟩ .sequence
      [.any ⟨"body", none, false⟩ "id"]
    let message : Definition := .record ⟨"msg", some .sequence, false⟩ .sequence
      [.scalar ⟨"id", some .integer, false⟩ .integer, part]
    let schema : Schema := ⟨[message], [message], .singleOctet⟩
    let options : DecodeOptions := ⟨.skipField, true, 8⟩
    let number : Element .singleOctet := .leaf (.short 0x02 0x01 (by decide) (by decide)) [0x05]
    let text : Element .singleOctet := .leaf (.short 0x0C 0x01 (by decide) (by decide)) [0x41]
    let other : Element .singleOctet := .leaf (.short 0x04 0x01 (by decide) (by decide)) [0x42]
    let top : Element .singleOctet := .branch (.short 0x30 0x0B (by decide) (by decide))
      [number, .branch (.short 0xA0 0x03 (by decide) (by decide)) [text], other]
    let fields : List Field :=
      [⟨"msg.id", some [0x05], .integer, 2⟩, ⟨"msg.part.body", some [0x41], .any, 7⟩]
    ∃ issues after, next schema .fields options
        (ofSource schema options .empty (.ofOctets top.octets)) =
          (some (.decoded 0 0 fields issues), after) ∧
      (∃! fate : Fate, fate.Befalls schema top 0 fields issues number 2) ∧
      (∃! fate : Fate, fate.Befalls schema top 0 fields issues text 7) ∧
      ∃! fate : Fate, fate.Befalls schema top 0 fields issues other 10 := by
  intro part message schema options number text other top fields
  have wellFormed : top.WellFormed := by
    simp only [top, number, text, other, Element.WellFormed, Element.WellFormedAll]
    decide
  have delivers : (Source.ofOctets top.octets).Delivers (top.octets ++ []) :=
    Source.delivers_ofOctets top.octets
  obtain ⟨rest, passes, -⟩ := delivers.split
  obtain ⟨after, decoded⟩ := @next_of_front schema options (.ofOctets top.octets) fields _ top rest
    wellFormed (by decide) passes (by decide +kernel) (by decide +kernel) rfl
  obtain ⟨-, top', wellFormed', stands', fates, -⟩ := @leaf_has_one_fate _ _ _ 0 _ _ _ _ _ decoded
  have stands : top.StandsIn (Source.ofOctets top.octets).held 0 := ⟨[], [], by rfl, rfl⟩
  obtain rfl := stands'.unique stands wellFormed' wellFormed
  refine ⟨_, after, decoded, ?_, ?_, ?_⟩
  · exact fates _ _ 2 (@Element.Holds.child _ _ _ _ [] _ _ _ .itself)
  · exact fates _ _ 7 (@Element.Holds.child _ _ _ _ [] _ _ _
      (@Element.Holds.child _ _ _ _ [number] _ _ _ .itself))
  · exact fates _ _ 10 (@Element.Holds.child _ _ _ _ [number, _] _ _ _ .itself)

end Records

end BerRecords
