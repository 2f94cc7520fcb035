import BerRecords.Proofs.Records.Boundary
import BerRecords.Proofs.Walk.Coverage
import BerRecords.Proofs.Walk.Replay

/-!
# Records and accounts

An element that is decoded leaves in the assembler what the account of the element says,
and its issues are those of the account.
-/

set_option autoImplicit false

namespace BerRecords

section

variable {σ : Type} {sink : Sink σ}

theorem Sink.Strict.recording (strict : sink.Strict) : (Recording.sink sink).Strict :=
  fun error refuses => strict error refuses.of_recording

/-- A script heard beside issues is heard, and its issues are kept in order. -/
theorem Recording.heard {script : List Telling} {recording after : Recording σ}
    (heard : ((Recording.sink sink).hear script).on recording = (.ok (), after)) :
    (sink.hear script).on recording.inner = (.ok (), after.inner) ∧
      after.issues.toList = recording.issues.toList ++ Account.issues script := by
  induction script generalizing recording with
  | nil =>
      cases heard
      simp [Sink.hear, Account.issues]
  | cons telling script ih =>
      cases telling with
      | issue issue =>
          have later := @ih ((Recording.sink sink).note issue recording) heard
          refine ⟨later.1, ?_⟩
          rw [later.2, Account.issues_cons]
          simp [Recording.sink, Telling.issue?]
      | event event =>
          have ran : ((Recording.sink sink).receive event).on recording =
              (((sink.receive event).on recording.inner).1,
                { recording with inner := ((sink.receive event).on recording.inner).2 }) := rfl
          rw [Sink.hear, Attempt.on_bind, ran] at heard
          rw [Sink.hear, Attempt.on_bind]
          generalize (sink.receive event).on recording.inner = received at heard ⊢
          rcases received with ⟨error | ⟨⟩, inner⟩
          · cases heard
          · exact @ih { recording with inner := inner } heard

end

namespace Walk

variable {rules : Rules}

/-- What is written down of an element that is read is the account of it. -/
theorem script_of_nextElement {reader after : Reader} {header : Header}
    {walk : Walk (List Telling)}
    (read : (Reader.nextElement (visitor rules Telling.writer)).on (reader, start []) =
      (.ok (some header), after, walk)) :
    ∃ (top : Element reader.encoding) (source : Source) (definition : Definition),
      top.WellFormed ∧ reader.source.Passes top.octets source ∧
        after = (reader.advance top.octets.length source).between ∧
        rules.schema.root? top.heading.tag = some definition ∧
        walk = start (Account.ofElement rules.mandatory "" definition reader.offset top) := by
  obtain ⟨top, source, wellFormed, shallow, passes, reached⟩ := Reader.element_of_nextElement read
  have told_top := Reader.nextElement_of_element (visitor rules Telling.writer) top reader (start [])
    rfl wellFormed shallow passes
  have yields := @yields_record _ rules top wellFormed.formed reader.offset
  rw [told] at yields
  generalize (Visitor.tell _ (top.signals reader.offset)).on _ = ran at told_top yields
  rcases ran with ⟨error | ⟨⟩, reached'⟩
  · obtain ⟨left, refused⟩ := told_top
    cases read.symm.trans refused
  · obtain ⟨definition, root, rfl⟩ := yields _ _ rfl
    cases read.symm.trans told_top
    exact ⟨top, source, definition, wellFormed, passes, rfl, root, rfl⟩

end Walk

namespace Collected

theorem strict : sink.Strict := by
  rintro error ⟨event, before, after, refused⟩
  cases event with
  | enter | field | missing | leave => cases refused

theorem hear_sink (script : List Telling) (collected : Collected) :
    (sink.hear script).on collected =
      (.ok (), ⟨collected.fields ++ (Account.fields script).toArray,
        collected.issues ++ (Account.issues script).toArray⟩) := by
  induction script generalizing collected with
  | nil => simp [Sink.hear, Account.fields, Account.issues]
  | cons telling script ih =>
      rw [Account.fields_cons, Account.issues_cons]
      cases telling with
      | issue issue =>
          refine (ih (sink.note issue collected)).trans ?_
          simp [sink, Telling.field?, Telling.issue?]
      | event event =>
          cases event with
          | enter | leave => exact ih collected
          | field field =>
              refine (ih { collected with fields := collected.fields.push field }).trans ?_
              simp [Telling.field?, Telling.issue?]
          | missing definition path offset =>
              refine (ih { collected with
                fields := collected.fields.push (.ofMissing definition path offset) }).trans ?_
              simp [Telling.field?, Telling.issue?]

end Collected

namespace Records

variable {σ β : Type} {schema : Schema} {assembler : Assembler σ β} {options : DecodeOptions}
  {fresh : σ} {nested : List Bool → Nat → σ → Prop}

/-- A record is assembled from the account of the element that stood at its offset. -/
theorem heard_of_decoded (nests : assembler.Nests fresh nested) (strict : assembler.sink.Strict)
    {records after : Records σ} (idle : records.walk = .start ⟨fresh, #[]⟩) {index offset : Nat}
    {content : β} {issues : List Issue}
    (decoded : next schema assembler options records =
      (some (.decoded index offset content issues), after)) :
    ∃ (top : Element records.reader.encoding) (source : Source) (definition : Definition) (state : σ),
      offset = records.reader.offset ∧ top.WellFormed ∧
        records.reader.source.Passes top.octets source ∧
        after.reader = (records.reader.advance top.octets.length source).between ∧
        schema.root? top.heading.tag = some definition ∧
        let told := Account.ofElement options.mandatory "" definition offset top
        (assembler.sink.hear told).on fresh = (.ok (), state) ∧
          assembler.finish state = (some content, fresh) ∧ issues = Account.issues told := by
  have replays := @Walk.replays_nextElement _ (rules schema options) _ _
    (Recording.nests nests.sink) strict.recording records.reader ⟨fresh, #[]⟩ nests.start
  have asked := request schema assembler options records
  rw [decoded] at asked
  rw [← idle] at replays
  cases asked with
  | decoded going read finished =>
      obtain ⟨state, kept, content', rfl, -, finished'⟩ := completes_of_fresh nests idle read
      have place := Reader.offset_of_nextElement read
      rw [read] at replays
      generalize wrote : (Reader.nextElement (Walk.visitor (rules schema options)
        Telling.writer)).on (records.reader, .start []) = written at replays
      cases replays with
      | replayed _ _ heard =>
          obtain ⟨top, source, definition, wellFormed, passes, reached, root, same⟩ :=
            Walk.script_of_nextElement wrote
          rw [List.nil_append] at same
          cases same
          obtain ⟨heard, noted⟩ := Recording.heard heard
          cases finished'.symm.trans finished
          refine ⟨top, source, definition, state, place, wellFormed, passes, reached, root, ?_⟩
          rw [place]
          exact ⟨heard, finished', noted⟩
  | broken _ _ gives => cases gives
  | unfinished _ _ _ gives => cases gives

/-- An element that stands at the front of the source is decoded if a walk takes all that is
said of it. -/
theorem next_of_element (records : Records σ) (element : Element records.reader.encoding)
    (walk : Walk (Recording σ)) {rest : Source} {content : β} {inner : σ}
    (going : records.done = false) (wellFormed : element.WellFormed)
    (shallow : element.height ≤ records.reader.maxDepth)
    (passes : records.reader.source.Passes element.octets rest)
    (told : ((visitor schema assembler options).tell (element.signals records.reader.offset)).on
      records.walk = (.ok (), walk))
    (finished : assembler.finish walk.sink.inner = (some content, inner)) :
    next schema assembler options records =
      (some (.decoded records.index records.reader.offset content walk.sink.issues.toList),
        ⟨(records.reader.advance element.octets.length rest).between,
          { walk with sink := ⟨inner, #[]⟩ }, records.index + 1, false⟩) := by
  have read := Reader.nextElement_of_element (visitor schema assembler options) element
    records.reader records.walk rfl wellFormed shallow passes
  rw [told] at read
  exact next_of_read schema assembler options going read finished

/-- The element that a record was decoded from stands in the source at its offset, but for
the octets that were taken and not counted. -/
theorem place_of_decoded {source : Source} {count : Nat} {records : Records σ}
    (reached : records = afterNexts schema assembler options (ofSource schema options fresh source)
      count)
    {top : Element records.reader.encoding} {rest : Source}
    (passes : records.reader.source.Passes top.octets rest) :
    ∃ before, source.held = before ++ (top.octets ++ rest.held) ∧
      before.length = records.reader.offset + uncountedNexts schema assembler options
        (ofSource schema options fresh source) count := by
  have takes := @takes_afterNexts _ _ schema assembler options (ofSource schema options fresh source)
    count
  rw [← reached] at takes
  obtain ⟨before, held, counted⟩ := takes.taken
  exact ⟨before, held.trans (congrArg (before ++ ·) passes.held),
    (Nat.zero_add _).symm.trans counted⟩

/-- A record of fields has the fields and the issues of the account of an element. -/
theorem told_of_decoded {records after : Records Collected} {index offset : Nat}
    {fields : List Field} {issues : List Issue}
    (idle : records.walk = .start ⟨Collected.empty, #[]⟩)
    (decoded : next schema .fields options records =
      (some (.decoded index offset fields issues), after)) :
    ∃ (top : Element records.reader.encoding) (rest : Source) (definition : Definition),
      offset = records.reader.offset ∧ top.WellFormed ∧
        records.reader.source.Passes top.octets rest ∧
        schema.root? top.heading.tag = some definition ∧
        let told := Account.ofElement options.mandatory "" definition offset top
        fields = Account.fields told ∧ issues = Account.issues told := by
  obtain ⟨top, rest, definition, state, place, wellFormed, passes, -, root, heard, finished, noted⟩ :=
    heard_of_decoded Assembler.fields_nests Collected.strict idle decoded
  refine ⟨top, rest, definition, place, wellFormed, passes, root, ?_, noted⟩
  cases (Collected.hear_sink _ _).symm.trans heard
  simpa [Assembler.fields, Collected.empty] using (congrArg Prod.fst finished).symm

/-- The element of a record of fields, with the account of it. -/
theorem account_of_decoded {source : Source} {count index offset : Nat} {fields : List Field}
    {issues : List Issue} {after : Records Collected}
    (decoded : next schema .fields options
      (afterNexts schema .fields options (ofSource schema options .empty source) count) =
        (some (.decoded index offset fields issues), after)) :
    ∃ (top : Element schema.encoding) (before rest : Octets) (definition : Definition),
      top.WellFormed ∧ source.held = before ++ (top.octets ++ rest) ∧
        before.length = offset + uncountedNexts schema .fields options
          (ofSource schema options .empty source) count ∧
        schema.root? top.heading.tag = some definition ∧
        let told := Account.ofElement options.mandatory "" definition offset top
        fields = Account.fields told ∧ issues = Account.issues told := by
  have idle := @afterNexts_fresh _ _ schema _ options _ _ Assembler.fields_nests source count
  have takes := @takes_afterNexts _ _ schema .fields options (ofSource schema options .empty source)
    count
  generalize reached : afterNexts schema .fields options _ count = records at decoded idle takes
  have same : records.reader.encoding = schema.encoding := congrArg Prod.fst takes.settings_eq
  rw [← same]
  obtain ⟨top, rest, definition, rfl, wellFormed, passes, root, told⟩ := told_of_decoded idle decoded
  obtain ⟨before, held, counted⟩ := place_of_decoded reached.symm passes
  exact ⟨top, before, rest.held, definition, wellFormed, held, counted, root, told⟩

end Records

end BerRecords
