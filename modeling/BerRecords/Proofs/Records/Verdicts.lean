import BerRecords.Proofs.Records.Nulls
import BerRecords.Proofs.Walk.Tolerance

/-!
# When an element is decoded

A well-formed element whose root the schema knows is decoded if a walk gets through it, and the
record is then the account of it. Where the first error ends the run that is so exactly if no
issue is to be told.
-/

set_option autoImplicit false

namespace BerRecords.Records

variable {schema : Schema} {options : DecodeOptions} {mandatory : Bool} {maxDepth : Nat}
  {octets rest : Octets} {offset index : Nat} {records : Records Collected}
  {top : Element schema.encoding} {definition : Definition}

theorem Ready.encoding_eq (ready : Ready schema options .empty octets offset index records) :
    records.reader.encoding = schema.encoding :=
  congrArg Prod.fst ready.settings_eq

theorem Ready.maxDepth_eq (ready : Ready schema options .empty octets offset index records) :
    records.reader.maxDepth = options.maxDepth :=
  congrArg Prod.snd ready.settings_eq

/-- An element that a walk gets through is decoded, and the decoding stands at its end. -/
theorem next_of_tolerable
    (ready : Ready schema options .empty (top.octets ++ rest) offset index records)
    (wellFormed : top.WellFormed) (shallow : top.height ≤ options.maxDepth)
    (root : schema.root? top.heading.tag = some definition) (tolerable : top.Tolerable definition)
    (fits : ¬top.Misformed definition)
    (tolerates : (rules schema options).Tolerates
      (Account.ofElement options.mandatory "" definition offset top)) :
    let told := Account.ofElement options.mandatory "" definition offset top
    ∃ after, next schema .fields options records =
        (some (.decoded index offset (Account.fields told) (Account.issues told)), after) ∧
      Ready schema options .empty rest (offset + top.octets.length) (index + 1) after := by
  intro told
  have limit : top.height ≤ records.reader.maxDepth := ready.maxDepth_eq ▸ shallow
  obtain ⟨delivers, rfl, settings, current, idle, rfl, going⟩ := ready
  obtain ⟨source, passes, delivers⟩ := delivers.split
  have through := @Walk.succeeds_record _ (rules schema options) _ top wellFormed.formed root
    tolerable fits records.reader.offset tolerates
  rw [Walk.told] at through
  have read := Reader.nextElement_of_element
    (Walk.visitor (rules schema options) Telling.writer) top records.reader (.start [])
    (congrArg Prod.fst settings) wellFormed limit passes
  rw [through] at read
  -- What the script says is what the sink of the decoding hears.
  have replays := @Walk.replays_nextElement _ (rules schema options) _ _
    (Recording.nests Assembler.fields_nests.sink) Collected.strict.recording records.reader
    ⟨.empty, #[]⟩ Assembler.fields_nests.start
  rw [read] at replays
  generalize read' : (Reader.nextElement (Walk.visitor (rules schema options)
    (Recording.sink Assembler.fields.sink))).on (records.reader, .start ⟨.empty, #[]⟩) = ran
    at replays
  cases replays with
  | @replayed _ _ _ _ _ _ recording _ _ heard =>
      obtain ⟨collected, noted⟩ := recording
      obtain ⟨heard, noted_eq⟩ := Recording.heard heard
      cases (Collected.hear_sink _ _).symm.trans heard
      rw [← idle] at read'
      have given := next_of_read schema .fields options going read' rfl
      refine ⟨⟨(records.reader.advance top.octets.length source).between, .start ⟨.empty, #[]⟩,
        records.index + 1, false⟩, ?_, delivers, rfl, settings, rfl, rfl, rfl, rfl⟩
      have kept : (Collected.empty.fields ++ (Account.fields told).toArray).toList =
          Account.fields told := by simp [Collected.empty]
      have noted_eq : noted.toList = Account.issues told := noted_eq.trans (List.nil_append _)
      rw [given]
      dsimp only
      rw [noted_eq]
      exact congrArg (fun fields => (some (Outcome.decoded _ _ fields _), _)) kept

/-- An element of which no issue is to be told is decoded without one. -/
theorem next_of_issueless
    (ready : Ready schema options .empty (top.octets ++ rest) offset index records)
    (wellFormed : top.WellFormed) (shallow : top.height ≤ options.maxDepth)
    (root : schema.root? top.heading.tag = some definition)
    (none_told : Account.issues
      (Account.ofElement options.mandatory "" definition offset top) = []) :
    let told := Account.ofElement options.mandatory "" definition offset top
    ∃ after, next schema .fields options records =
        (some (.decoded index offset (Account.fields told) []), after) ∧
      Ready schema options .empty rest (offset + top.octets.length) (index + 1) after := by
  intro told
  obtain ⟨after, given, ready⟩ := next_of_tolerable ready wellFormed shallow root
    (Account.tolerable_of_issues top none_told)
    (Account.not_misformed_of_issues wellFormed.formed none_told) (.inr none_told)
  rw [none_told] at given
  exact ⟨after, given, ready⟩

/-- Without recovery an element at the front is decoded only if no issue is to be told. -/
theorem issueless_of_decoded
    (ready : Ready schema options .empty (top.octets ++ rest) offset index records)
    (wellFormed : top.WellFormed) (unforgiving : options.errorMode ≠ .skipField)
    {count place : Nat} {fields : List Field} {issues : List Issue} {after : Records Collected}
    (decoded : next schema .fields options records =
      (some (.decoded count place fields issues), after)) :
    ∃ definition, schema.root? top.heading.tag = some definition ∧
      let told := Account.ofElement options.mandatory "" definition offset top
      Account.issues told = [] ∧ fields = Account.fields told := by
  have found := told_of_decoded ready.walk_eq decoded
  rw [ready.encoding_eq] at found
  obtain ⟨other, source, definition, rfl, wellFormed', passes, root, rfl, rfl⟩ := found
  -- Octets are read in one way only, so that this is the element that was decoded.
  have same := passes.held.symm.trans ready.delivers.held
  obtain rfl := Element.unique wellFormed' wellFormed same
  rw [ready.offset_eq] at decoded ⊢
  exact ⟨definition, root, issues_of_strict ready.walk_eq unforgiving decoded, rfl⟩

/-- Where the first error ends the run, to give up is to fail. -/
theorem failed_of_givesUp {σ β : Type} {assembler : Assembler σ β} {error : DecodeError}
    {records after : Records σ} {outcome : Outcome β}
    (gives : GivesUp assembler ⟨.failFast, mandatory, maxDepth⟩ index offset error records
      (outcome, after)) :
    ∃ error', outcome = .failed error' ∧ after.done = true := by
  cases gives with
  | failed => exact ⟨_, rfl, rfl⟩
  | resumed _ tolerant => exact absurd rfl tolerant
  | stranded _ tolerant => exact absurd rfl tolerant

/-- A source with an element at its front is not at its end. -/
theorem not_ended
    (ready : Ready schema options .empty (top.octets ++ rest) offset index records)
    (wellFormed : top.WellFormed) (shallow : top.height ≤ options.maxDepth) {reader : Reader}
    {walk : Walk (Recording Collected)} :
    (Reader.nextElement (visitor schema .fields options)).on (records.reader, records.walk) ≠
      (.ok none, reader, walk) := by
  obtain ⟨source, passes, -⟩ := ready.delivers.split
  have limit : top.height ≤ records.reader.maxDepth := ready.maxDepth_eq ▸ shallow
  have found := Reader.nextElement_of_element (visitor schema .fields options) top records.reader
    records.walk ready.encoding_eq wellFormed limit passes
  intro ended
  split at found
  · cases ended.symm.trans found
  · obtain ⟨left, refused⟩ := found
    cases ended.symm.trans refused

/-- What becomes of a well-formed element where the first error ends the run: it is decoded if
its root is known and no issue is to be told, and else the run ends. -/
theorem next_failFast
    (ready : Ready schema ⟨.failFast, mandatory, maxDepth⟩ .empty (top.octets ++ rest) offset
      index records)
    (wellFormed : top.WellFormed) (shallow : top.height ≤ maxDepth) :
    (∃ definition after, schema.root? top.heading.tag = some definition ∧
        let told := Account.ofElement mandatory "" definition offset top
        Account.issues told = [] ∧
          next schema .fields ⟨.failFast, mandatory, maxDepth⟩ records =
            (some (.decoded index offset (Account.fields told) []), after) ∧
          Ready schema ⟨.failFast, mandatory, maxDepth⟩ .empty rest (offset + top.octets.length)
            (index + 1) after) ∨
      (∀ definition, schema.root? top.heading.tag = some definition →
          Account.issues (Account.ofElement mandatory "" definition offset top) ≠ []) ∧
        ∃ error after, after.done = true ∧
          next schema .fields ⟨.failFast, mandatory, maxDepth⟩ records =
            (some (.failed error), after) := by
  by_cases sound : ∃ definition, schema.root? top.heading.tag = some definition ∧
    Account.issues (Account.ofElement mandatory "" definition offset top) = []
  · obtain ⟨definition, root, none_told⟩ := sound
    obtain ⟨after, given, ready⟩ := next_of_issueless ready wellFormed shallow root none_told
    exact .inl ⟨definition, after, root, none_told, given, ready⟩
  · refine .inr ⟨fun definition root none_told => sound ⟨definition, root, none_told⟩, ?_⟩
    have asked := request schema .fields ⟨.failFast, mandatory, maxDepth⟩ records
    rcases given : next schema .fields ⟨.failFast, mandatory, maxDepth⟩ records with
      ⟨outcome?, after⟩
    rw [given] at asked
    cases asked with
    | stopped done => exact absurd (ready.done_eq.symm.trans done) nofun
    | ended _ read => exact absurd read (not_ended ready wellFormed shallow)
    | decoded =>
        obtain ⟨definition, root, none_told, -⟩ := issueless_of_decoded ready wellFormed nofun given
        exact absurd ⟨definition, root, none_told⟩ sound
    | broken _ _ gives =>
        obtain ⟨error, rfl, done⟩ := failed_of_givesUp gives
        exact ⟨error, after, done, rfl⟩
    | unfinished _ _ _ gives =>
        obtain ⟨error, rfl, done⟩ := failed_of_givesUp gives
        exact ⟨error, after, done, rfl⟩

end BerRecords.Records
