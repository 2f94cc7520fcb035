import BerRecords.Proofs.Records.Accounts
import BerRecords.Proofs.Records.Protocol

/-!
# Where broken structure is said to lie

The reader knows the offset of the element that encloses what it cannot read, and a path is
put to the error when the element is given up. Both come from the same open elements, those
that have started and not ended.
-/

set_option autoImplicit false

namespace BerRecords

theorem DecodeError.corrupt_of_withPath {error : DecodeError} {offset : Nat} {element : Option Nat}
    {path known : String} {cause : Corruption}
    (same : error.withPath known = .corrupt offset element path cause) :
    ∃ own, error = .corrupt offset element own cause := by
  cases error with
  | corrupt =>
      cases same
      exact ⟨_, rfl⟩
  | mismatch | unbalanced | schema | source => cases same

theorem Reader.Raises.breaksIn {start : Reader} {signals : List Signal} {error : DecodeError}
    (raises : Raises start signals error) : ∃ element, error.BreaksIn element := by
  cases raises with
  | heading opened => exact ⟨_, structural_openElement none 0 _ error (by rw [opened])⟩
  | inside _ stuck => exact ⟨_, structural_step _ _ _ error (by rw [stuck])⟩

namespace Opened

variable {opened outer : List Opened} {schema : Schema}

/-- The names that the schema has for open elements, from the root down. One without a
definition has no name: it is unknown, or stands in an element of any content or of the wrong
form. -/
def names (opened : List Opened) : List String :=
  (opened.filterMap (·.definition)).reverse.map (·.name)

/-- This is where the innermost open element starts, if one is open, and the path of all. -/
structure Locates (opened : List Opened) (element : Option Nat) (path : String) : Prop where
  element_eq : element = opened.head?.map (·.header.offset)
  path_eq : path = Meaning.path (names opened)

def AllNamed (opened : List Opened) : Prop :=
  ∀ element ∈ opened, ∀ definition ∈ element.definition, definition.Named

theorem AllNamed.shown (named : AllNamed opened) : Meaning.Shown (names opened) := by
  intro name member
  obtain ⟨definition, among, rfl⟩ := List.mem_map.1 member
  obtain ⟨element, member, known⟩ := List.mem_filterMap.1 (List.mem_reverse.1 among)
  exact (named element member definition known).name_ne

theorem AllNamed.path_eq (named : AllNamed opened) :
    Entered.path (entries opened) = Meaning.path (names opened) := by
  induction opened with
  | nil => rfl
  | cons element outer ih =>
      have around : AllNamed outer := fun other member => named other (.tail _ member)
      cases known : element.definition with
      | none =>
          rw [entries_bare known, ih around]
          simp [names, known]
      | some definition =>
          rw [entries_cons known, Entered.path, ih around, Meaning.extendPath_path around.shown]
          simp [names, known]

/-- What is found for a further element has a name that shows. -/
theorem AllNamed.found (named : AllNamed opened) (roots : Definition.NamedAll schema.roots)
    {tag : Tag} {definition : Definition} (found : found? schema tag opened = some definition) :
    definition.Named := by
  cases opened with
  | nil => exact roots.claim found
  | cons parent outer =>
      rw [found?] at found
      cases known : parent.definition with
      | none =>
          rw [child?_of_unknown known] at found
          cases found
      | some around =>
          cases holds : around.holds parent.header with
          | true =>
              rw [child?_of_holds known holds, Option.map_eq_some_iff] at found
              obtain ⟨selection, accepted, rfl⟩ := found
              exact (named parent (.head _) around known).accept accepted
          | false =>
              rw [child?_of_full (by simp [known, holds])] at found
              cases found

theorem AllNamed.after (named : AllNamed opened) (roots : Definition.NamedAll schema.roots)
    (signal : Signal) : AllNamed (Opened.after schema opened signal) := by
  cases signal with
  | start header =>
      intro element member definition known
      rcases List.mem_cons.1 member with rfl | member
      · exact named.found roots known
      · cases opened with
        | nil => cases member
        | cons parent outer =>
            rcases List.mem_cons.1 member with rfl | member
            · exact named parent (.head _) definition known
            · exact named element (.tail _ member) definition known
  | value octets => exact named
  | stop tag => exact fun element member => named element (List.mem_of_mem_tail member)

theorem allNamed_afterAll (roots : Definition.NamedAll schema.roots) (signals : List Signal) :
    AllNamed (afterAll schema signals) := by
  have later (opened : List Opened) (named : AllNamed opened) :
      AllNamed (signals.foldl (after schema) opened) := by
    induction signals generalizing opened with
    | nil => exact named
    | cons signal signals ih => exact ih _ (named.after roots signal)
  exact later [] (by simp [AllNamed])

end Opened

namespace Walk

variable {σ : Type} {rules : Rules} {sink : Sink σ} {start : Reader} {signals : List Signal}
  {error : DecodeError} {state : σ} {walk : Walk σ}

theorem Stands.headers_eq {opened : List Opened} {frames : List Frame}
    (stands : Stands opened frames) : frames.map (·.header) = opened.map (·.header) := by
  induction stands with
  | nil => rfl
  | cons _ shows ih => rw [List.map_cons, List.map_cons, ih, shows.header_eq]

/-- Where a reader fails by itself, its error names the innermost open element, and the path
of the walk has the names of the open elements. -/
theorem located_of_raises (named : Definition.NamedAll rules.schema.roots)
    (raises : Reader.Raises start signals error)
    (told : ((visitor rules sink).tell signals).on (.start state) = (.ok (), walk)) :
    let opened := Opened.afterAll rules.schema signals
    error.BreaksIn (opened.head?.map (·.header.offset)) ∧
      walk.path = Meaning.path (Opened.names opened) := by
  cases raises with
  | heading opened =>
      cases told
      exact ⟨Reader.structural_openElement none 0 _ error (by rw [opened]), rfl⟩
  | @inside _ reader _ top outer _ tells stuck =>
      -- The reader blames `top`, and the walk has its frame on top: both led by the same signals.
      obtain ⟨script, -, led, standing⟩ := follows_of_told tells told
      have headers := standing.stands.headers_eq.symm.trans led.headers_eq
      have innermost : ((Opened.afterAll rules.schema signals).map (·.header)).head? =
          some top.header := by
        rw [headers]
        rfl
      have breaks := Reader.structural_step top outer reader error (by rw [stuck])
      refine ⟨?_, standing.path_eq.trans (Opened.allNamed_afterAll named signals).path_eq⟩
      rw [List.head?_map] at innermost
      have offset := congrArg (Option.map Header.offset) innermost
      rw [Option.map_map] at offset
      exact offset ▸ breaks

end Walk

namespace Records

variable {σ β : Type}

/-- The reader fails by itself in the next request, after the assembler and the schema have
accepted these signals. -/
structure ReaderFails (schema : Schema) (assembler : Assembler σ β) (options : DecodeOptions)
    (records : Records σ) (signals : List Signal) (error : DecodeError) : Prop where
  going : records.done = false
  raises : Reader.Raises records.reader signals error
  told : ∃ walk, ((visitor schema assembler options).tell signals).on records.walk = (.ok (), walk)

variable {schema : Schema} {assembler : Assembler σ β} {options : DecodeOptions}
  {records : Records σ} {signals : List Signal} {offset : Nat} {element : Option Nat}
  {own path : String} {cause : Corruption} {state : σ}

/-- What the reader finds broken is reported with the place of the open elements. -/
theorem located_of_readerFails (named : Definition.NamedAll schema.roots)
    (idle : records.walk = .start ⟨state, #[]⟩)
    (fails : ReaderFails schema assembler options records signals (.corrupt offset element own cause)) :
    ∃ outcome path, (next schema assembler options records).1 = some outcome ∧
      outcome.error? = some (.corrupt offset element path cause) ∧
      Opened.Locates (Opened.afterAll schema signals) element path := by
  obtain ⟨going, raises, walk, told⟩ := fails
  obtain ⟨reader, read⟩ := Reader.nextElement_of_raises raises told
  rw [idle] at told
  obtain ⟨⟨inside, rfl⟩, path⟩ := @Walk.located_of_raises _ (rules schema options) _ _ _ _ _ _
    named raises told
  have asked := request schema assembler options records
  generalize next schema assembler options records = given at asked
  cases asked with
  | stopped done => cases going.symm.trans done
  | ended _ read' => cases read.symm.trans read'
  | decoded _ read' => cases read.symm.trans read'
  | unfinished _ read' => cases read.symm.trans read'
  | broken _ read' gives =>
      cases read.symm.trans read'
      exact ⟨_, walk.path, rfl, (called_of_givesUp gives).1, inside, path⟩

/-- Broken structure was found by the reader, or the assembler has refused something with this
error. -/
theorem readerFails_of_error (idle : records.walk = .start ⟨state, #[]⟩) {outcome : Outcome β}
    (given : (next schema assembler options records).1 = some outcome)
    (reported : outcome.error? = some (.corrupt offset element path cause)) :
    (∃ signals, ReaderFails schema assembler options records signals
        (.corrupt offset element "" cause)) ∨
      ∃ own, assembler.sink.Refuses (.corrupt offset element own cause) := by
  have asked := request schema assembler options records
  generalize next schema assembler options records = ran at asked given
  cases asked with
  | stopped => cases given
  | ended => cases given
  | decoded =>
      cases given
      cases reported
  | unfinished _ _ _ gives =>
      cases given
      cases (called_of_givesUp gives).1.symm.trans reported
  | @broken error _ walk _ _ going read gives =>
      cases given
      obtain ⟨own, rfl⟩ := DecodeError.corrupt_of_withPath
        (Option.some.inj ((called_of_givesUp gives).1.symm.trans reported))
      have attends := Reader.attends (visitor schema assembler options) records.reader records.walk
      rw [read] at attends
      cases attends with
      | raised raises told =>
          obtain ⟨inside, -, rfl⟩ := raises.breaksIn
          exact .inl ⟨_, going, raises, _, told⟩
      | refused tells told refused =>
          rw [idle] at told
          rcases (Walk.begins_of_refused tells told refused).1 with mild | refuses
          · cases mild
          · exact .inr ⟨own, refuses.of_recording⟩

/-- Whatever the source, the assembler and the options are, if all names of the schema show in
a path: broken structure that the reader finds is reported with the place of the innermost open
element and the path of all open elements, and what is reported so was found by the reader
there, unless the assembler itself has refused something with such an error. -/
theorem corrupt_located {schema : Schema} (named : Definition.NamedAll schema.roots)
    (assembler : Assembler σ β) (options : DecodeOptions) (fresh : σ) (source : Source)
    (count : Nat) (offset : Nat) (element : Option Nat) (cause : Corruption) :
    let records := afterNexts schema assembler options (ofSource schema options fresh source) count
    let given := (next schema assembler options records).1
    (∀ signals own,
      ReaderFails schema assembler options records signals (.corrupt offset element own cause) →
        ∃ outcome path, given = some outcome ∧
          outcome.error? = some (.corrupt offset element path cause) ∧
          Opened.Locates (Opened.afterAll schema signals) element path) ∧
      ∀ outcome ∈ given, ∀ path, outcome.error? = some (.corrupt offset element path cause) →
        (∃ signals,
          ReaderFails schema assembler options records signals (.corrupt offset element "" cause) ∧
            Opened.Locates (Opened.afterAll schema signals) element path) ∨
          ∃ own, assembler.sink.Refuses (.corrupt offset element own cause) := by
  intro records given
  obtain ⟨state, idle⟩ := afterNexts_idle schema assembler options fresh source count
  refine ⟨fun signals own fails => located_of_readerFails named idle fails, ?_⟩
  intro outcome reported path error
  refine (readerFails_of_error idle reported error).imp_left ?_
  rintro ⟨signals, fails⟩
  obtain ⟨outcome', path', reported', error', located⟩ := located_of_readerFails named idle fails
  cases reported.symm.trans reported'
  cases error.symm.trans error'
  exact ⟨signals, fails, located⟩

/-- A message that is cut in a name inside a part of it. -/
theorem corrupt_located_of_message :
    let part : Definition := .record ⟨"part", some (.context 0), false⟩ .sequence
      [.scalar ⟨"name", some .octetString, false⟩ .octetString]
    let message : Definition := .record ⟨"msg", some .sequence, false⟩ .sequence [part]
    let schema : Schema := ⟨[message], [message], .singleOctet⟩
    let options : DecodeOptions := ⟨.skipRecord, true, 8⟩
    let source := Source.ofOctets [0x30, 0x07, 0xA0, 0x05, 0x04, 0x03, 0x41, 0x42]
    let records := ofSource schema options .empty source
    let cause : Corruption := .valueCut 3 .octetString 2
    Definition.NamedAll schema.roots ∧
      (next schema .fields options records).1.bind Outcome.error? =
        some (.corrupt 8 (some 4) "msg.part.name" cause) ∧
      ∃ signals, ReaderFails schema .fields options records signals (.corrupt 8 (some 4) "" cause) ∧
        Opened.Locates (Opened.afterAll schema signals) (some 4) "msg.part.name" := by
  intro part message schema options source records cause
  have named : Definition.NamedAll schema.roots := by
    simp [schema, message, part, Definition.NamedAll, Definition.Named]
  have reported : (next schema .fields options records).1.bind Outcome.error? =
      some (.corrupt 8 (some 4) "msg.part.name" cause) := by decide +kernel
  obtain ⟨outcome, given, error⟩ := Option.bind_eq_some_iff.1 reported
  have located := corrupt_located named .fields options .empty source 0 8 (some 4) cause
  rcases located.2 outcome given _ error with ⟨signals, fails, located⟩ | ⟨own, refuses⟩
  · exact ⟨named, reported, signals, fails, located⟩
  · cases Collected.strict _ refuses

end Records

end BerRecords
