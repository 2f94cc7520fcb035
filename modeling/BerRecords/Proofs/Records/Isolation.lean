import BerRecords.Proofs.Displacement.Records
import BerRecords.Proofs.Walk.Led

/-!
# Elements do not disturb each other

Where a failure does not end the run, whole top-level elements in front of a stream,
whatever they hold, only move its outcomes further on.
-/

set_option autoImplicit false

namespace BerRecords

/-- A heading and as many octets as it declares, whatever they are. -/
structure Shell (encoding : TagEncoding) where
  heading : Heading encoding
  content : Octets
  length_content : content.length = heading.length

namespace Shell

variable {encoding : TagEncoding}

def octets (shell : Shell encoding) : Octets :=
  shell.heading.octets ++ shell.content

def octetsAll (shells : List (Shell encoding)) : Octets :=
  shells.flatMap octets

theorem length_octets (shell : Shell encoding) :
    shell.octets.length = shell.heading.octets.length + shell.heading.length := by
  rw [octets, List.length_append, shell.length_content]

/-- A heading with enough octets behind it is the beginning of a whole element. -/
theorem of_heading (heading : Heading encoding) {back : Octets}
    (enough : heading.length ≤ back.length) :
    ∃ (shell : Shell encoding) (rest : Octets), shell.heading = heading ∧
      heading.octets ++ back = shell.octets ++ rest :=
  ⟨⟨heading, back.take heading.length, List.length_take_of_le enough⟩, back.drop heading.length,
    rfl, by rw [octets, List.append_assoc, List.take_append_drop]⟩

theorem octets_ne_nil (shell : Shell encoding) : shell.octets ≠ [] :=
  List.append_ne_nil_of_left_ne_nil shell.heading.octets_ne_nil _

theorem headed {shell : Shell encoding} {reader : Reader} {rest : Octets}
    (same : reader.encoding = encoding) (delivers : reader.source.Delivers (shell.octets ++ rest)) :
    reader.Headed (reader.offset + shell.octets.length) := by
  subst same
  rw [octets, List.append_assoc] at delivers
  obtain ⟨source, passes, -⟩ := delivers.split
  refine ⟨shell.heading, source, passes, ?_⟩
  simp [octets, Header.stop, Header.contentStart, Header.size, Heading.header,
    shell.length_content, Nat.add_assoc]

end Shell

namespace Records

variable {σ β : Type} {distance count stop : Nat} {beyond : Octets} {move : σ → σ} {shift : β → β}
  {schema : Schema} {assembler : Assembler σ β} {options : DecodeOptions} {near far : Records σ}
  {fresh : σ} {nested : List Bool → Nat → σ → Prop}

/-- Between elements that a heading ends, one is decoded or dropped, and the decoding
stands at its end as fresh as before. -/
theorem next_of_headed (nests : assembler.Nests fresh nested)
    (moves : assembler.Moves distance move shift) (tolerant : options.errorMode ≠ .failFast)
    (alike : Alike distance count beyond stop move near far)
    (headed : Reader.Headed stop near.reader) (idle : near.walk = .start ⟨fresh, #[]⟩)
    (going : near.done = false) :
    ∃ outcome after, next schema assembler options near = (some outcome, after) ∧
      after.walk = .start ⟨fresh, #[]⟩ ∧ after.index = near.index + 1 ∧ after.done = false ∧
        after.reader.offset = stop ∧ after.reader.current = none ∧
          after.reader.settings = near.reader.settings := by
  have visits := @Walk.moves_visitor _ _ _ (rules schema options) _
    (Recording.moves_sink moves.sink)
  have read := Reader.drives_nextElement visits near.walk alike.reader (.inr headed)
  have safe := @Walk.safe_nextElement _ _ (rules schema options) _ (Recording.nests nests.sink)
    near.reader ⟨fresh, #[]⟩ nests.start
  rw [← idle] at safe
  simp only [next, going, Bool.false_eq_true, ↓reduceIte]
  rcases headed.reads_element (Walk.visitor (rules schema options)
    (Recording.sink assembler.sink)) near.walk with
    ⟨error, reader, walk, ran, kept, header, hand, ends⟩ |
      ⟨header, reader, walk, ran, kept, hand, ends⟩
  · rw [ran] at read safe ⊢
    generalize (Reader.nextElement _).on (far.reader, _) = ran' at read
    cases read with
    | error related =>
        obtain ⟨ahead, ⟨last, passes, -⟩, -, counted⟩ := related.2.1.ahead
        have mild : (error.withPath walk.path).isFatal = false := by
          cases safe with
          | error mild => simpa using mild
        have skipped := Reader.skipCurrent_filled hand (counted.trans ends.symm) passes
        simp only [giveUp, mild, tolerant, decide_false, Bool.or_self, Bool.false_eq_true,
          ↓reduceIte, skipped, nests.discard]
        exact ⟨_, _, rfl, rfl, rfl, rfl, counted, rfl, kept⟩
  · rw [ran] at safe ⊢
    cases safe with
    | ok read =>
        rcases read with none_read | ⟨recording, known, same⟩
        · cases none_read
        · obtain ⟨content, finished⟩ := nests.finish known
          dsimp only at same
          simp only [same, Walk.start, finished]
          exact ⟨_, _, rfl, rfl, rfl, rfl, ends, hand, kept⟩

structure Ready (schema : Schema) (options : DecodeOptions) (fresh : σ) (octets : Octets)
    (offset index : Nat) (records : Records σ) : Prop where
  delivers : records.reader.source.Delivers octets
  offset_eq : records.reader.offset = offset
  settings_eq : records.reader.settings = (schema.encoding, options.maxDepth)
  current_eq : records.reader.current = none
  walk_eq : records.walk = .start ⟨fresh, #[]⟩
  index_eq : records.index = index
  done_eq : records.done = false

theorem ready_ofSource (schema : Schema) (options : DecodeOptions) (fresh : σ) {source : Source}
    {octets : Octets} (delivers : source.Delivers octets) :
    Ready schema options fresh octets 0 0 (ofSource schema options fresh source) :=
  ⟨delivers, rfl, rfl, rfl, rfl, rfl, rfl⟩

/-- What is fresh is the same everywhere in a stream. -/
theorem move_fresh (nests : assembler.Nests fresh nested)
    (moves : assembler.Moves distance move shift) : move fresh = fresh := by
  have moved := moves.discard fresh
  rw [nests.discard, nests.discard] at moved
  exact moved.symm

theorem Ready.alike (nests : assembler.Nests fresh nested)
    (moves : assembler.Moves distance move shift) {octets : Octets}
    (first : Ready schema options fresh octets 0 0 near)
    (later : Ready schema options fresh (octets ++ beyond) distance count far) :
    Alike distance count beyond octets.length move near far := by
  refine ⟨⟨⟨octets, first.delivers, later.delivers, ?_⟩, ?_, ?_, ?_, ?_⟩, ?_, ?_, ?_⟩
  · rw [first.offset_eq, Nat.zero_add]
  · rw [later.offset_eq, first.offset_eq, Nat.zero_add]
  · exact congrArg Prod.fst (later.settings_eq.trans first.settings_eq.symm)
  · exact congrArg Prod.snd (later.settings_eq.trans first.settings_eq.symm)
  · rw [later.current_eq, first.current_eq]
    rfl
  · rw [later.walk_eq, first.walk_eq]
    simp [Walk.displace, Walk.start, Recording.displace, move_fresh nests moves]
  · rw [later.index_eq, first.index_eq, Nat.zero_add]
  · rw [later.done_eq, first.done_eq]

/-- What becomes of a whole element is settled by its own octets and its place. -/
theorem next_of_shell (nests : assembler.Nests fresh nested)
    (moves : assembler.Moves distance move shift) (tolerant : options.errorMode ≠ .failFast)
    (shell : Shell schema.encoding) :
    ∃ outcome, ∀ rest (records : Records σ),
      Ready schema options fresh (shell.octets ++ rest) distance count records →
        ∃ after, next schema assembler options records = (some outcome, after) ∧
          Ready schema options fresh rest (distance + shell.octets.length) (count + 1) after := by
  let alone := ofSource schema options fresh (.ofOctets shell.octets)
  have first : Ready schema options fresh shell.octets 0 0 alone :=
    ready_ofSource schema options fresh (Source.delivers_ofOctets _)
  have headed : alone.reader.Headed shell.octets.length := by
    have delivers := first.delivers
    rw [← List.append_nil shell.octets] at delivers
    have stands := @Shell.headed schema.encoding shell alone.reader [] rfl delivers
    rwa [first.offset_eq, Nat.zero_add] at stands
  -- The element alone, but at its place, is one of the decodings that it stands in front of.
  have placed : Ready schema options fresh (shell.octets ++ []) distance count
      { alone with reader := { alone.reader with offset := distance }, index := count } := by
    rw [List.append_nil]
    exact ⟨first.delivers, rfl, rfl, rfl, rfl, rfl, rfl⟩
  obtain ⟨outcome, last, given, idle, index, going, stands, hand, kept⟩ :=
    next_of_headed nests moves tolerant (first.alike nests moves placed) headed first.walk_eq
      first.done_eq
  refine ⟨outcome.displace distance count shift, fun rest records ready => ?_⟩
  obtain ⟨same, alike⟩ := @alike_next _ _ _ _ _ _ _ _ schema _ options _ _ moves
    (first.alike nests moves ready) (.inr headed)
  rw [given] at same alike
  refine ⟨_, Prod.ext same rfl, ?_⟩
  obtain ⟨ahead, -, delivers, counted⟩ := alike.reader.ahead
  have nothing : ahead = [] := by
    rw [← List.length_eq_zero_iff]
    dsimp only at counted
    omega
  subst nothing
  constructor
  · exact delivers
  · rw [alike.reader.offset_eq, Nat.add_comm]
    exact congrArg (distance + ·) stands
  · rw [Reader.settings, alike.reader.encoding_eq, alike.reader.maxDepth_eq]
    exact kept
  · rw [alike.reader.current_eq]
    exact congrArg (Option.map _) hand
  · rw [alike.walk_eq]
    simp [idle, Walk.displace, Walk.start, Recording.displace, move_fresh nests moves]
  · rw [alike.index_eq, Nat.add_comm]
    exact congrArg (count + ·) index
  · exact alike.done_eq.trans going

/-- The outcomes of whole elements are settled by their own octets and their place, and
those of what follows come after them. -/
theorem finish_of_shells (nests : assembler.Nests fresh nested) {move : Nat → σ → σ}
    {shift : Nat → β → β} (moves : ∀ distance, assembler.Moves distance (move distance) (shift distance))
    (tolerant : options.errorMode ≠ .failFast) (shells : List (Shell schema.encoding))
    (distance count : Nat) :
    ∃ steps : List (Step β), steps.length = shells.length ∧ ∀ rest (records : Records σ),
      Ready schema options fresh (Shell.octetsAll shells ++ rest) distance count records →
        ∃ after, (finish schema assembler options records).1 =
            steps ++ (finish schema assembler options after).1 ∧
          Ready schema options fresh rest (distance + (Shell.octetsAll shells).length)
            (count + shells.length) after := by
  induction shells generalizing distance count with
  | nil => exact ⟨[], rfl, fun rest records ready => ⟨records, rfl, ready⟩⟩
  | cons shell shells ih =>
      obtain ⟨outcome, first⟩ := @next_of_shell _ _ distance count _ _ schema _ options _ _ nests
        (moves distance) tolerant shell
      obtain ⟨steps, counted, later⟩ := ih (distance + shell.octets.length) (count + 1)
      refine ⟨⟨outcome, distance + shell.octets.length⟩ :: steps, by simp [counted], ?_⟩
      intro rest records ready
      have whole : Shell.octetsAll (shell :: shells) = shell.octets ++ Shell.octetsAll shells :=
        List.flatMap_cons
      rw [whole, List.append_assoc] at ready
      obtain ⟨middle, given, ready⟩ := first _ records ready
      obtain ⟨after, finished, ready'⟩ := later rest middle ready
      refine ⟨after, ?_, ?_⟩
      · rw [finish_eq, given]
        simp only [finished, ready.offset_eq, List.cons_append]
      · rw [whole, List.length_append, List.length_cons]
        simpa [Nat.add_assoc, Nat.add_comm 1] using ready'

theorem finish_of_nothing_left {offset index : Nat} {records : Records σ}
    (ready : Ready schema options fresh [] offset index records) :
    (finish schema assembler options records).1 = [] := by
  have nothing : (Reader.openElement none 0).on records.reader.between = (.ok none, _) :=
    Reader.openElement_none_iff.2 ⟨rfl, _, ready.delivers.next_nil, rfl⟩
  rw [finish_eq, next, ready.done_eq, if_neg Bool.false_ne_true]
  simp only [Reader.nextElement_on, nothing]

/-- Whole elements in front of a stream have one outcome each, and those of the stream
follow, only further on. -/
theorem finish_append (nests : assembler.Nests fresh nested) {move : Nat → σ → σ}
    {shift : Nat → β → β} (moves : ∀ distance, assembler.Moves distance (move distance) (shift distance))
    (tolerant : options.errorMode ≠ .failFast) (shells : List (Shell schema.encoding))
    {octets : Octets} {front back whole : Source}
    (front_delivers : front.Delivers (Shell.octetsAll shells)) (back_delivers : back.Delivers octets)
    (whole_delivers : whole.Delivers (Shell.octetsAll shells ++ octets)) :
    let outcomes (source : Source) :=
      (finish schema assembler options (ofSource schema options fresh source)).1
    let length := (Shell.octetsAll shells).length
    (outcomes front).length = shells.length ∧
      outcomes whole = outcomes front ++
        (outcomes back).map (Step.displace length (outcomes front).length (shift length)) := by
  intro outcomes length
  obtain ⟨steps, counted, settled⟩ := finish_of_shells nests moves tolerant shells 0 0
  obtain ⟨after, followed, ready⟩ := settled octets _
    (ready_ofSource schema options fresh whole_delivers)
  rw [← List.append_nil (Shell.octetsAll shells)] at front_delivers
  obtain ⟨last, alone, ended⟩ := settled [] _
    (ready_ofSource schema options fresh front_delivers)
  have front_outcomes : outcomes front = steps := by
    rw [finish_of_nothing_left ended, List.append_nil] at alone
    exact alone
  have first : Ready schema options fresh octets 0 0 (ofSource schema options fresh back) :=
    ready_ofSource schema options fresh back_delivers
  rw [Nat.zero_add, Nat.zero_add, ← List.append_nil octets, ← counted] at ready
  have moved := @finish_displace _ _ _ _ _ _ _ schema _ options _ _ (moves length)
    (first.alike nests (moves length) ready)
  rw [front_outcomes, ← moved]
  exact ⟨counted, followed⟩

/-- Whole elements in front of a stream have the outcomes that they have alone, and those
of the stream are the same, only further on. -/
theorem outcomes_append {schema : Schema} {options : DecodeOptions}
    (tolerant : options.errorMode ≠ .failFast) (shells : List (Shell schema.encoding))
    {octets : Octets} {front back whole : Source}
    (front_delivers : front.Delivers (Shell.octetsAll shells)) (back_delivers : back.Delivers octets)
    (whole_delivers : whole.Delivers (Shell.octetsAll shells ++ octets)) :
    let records (source : Source) : List (Step (List Field)) :=
      (finish schema .fields options (ofSource schema options .empty source)).1
    let trees (source : Source) : List (Step Node) :=
      (finish schema .trees options (ofSource schema options .empty source)).1
    let length := (Shell.octetsAll shells).length
    records whole = records front ++ (records back).map
        (Step.displace length (records front).length (List.map (Field.displace length))) ∧
      trees whole = trees front ++ (trees back).map
        (Step.displace length (trees front).length (Node.displace length)) := by
  intro records trees length
  constructor
  · exact (finish_append Assembler.fields_nests (fun _ => Assembler.moves_fields) tolerant shells
      front_delivers back_delivers whole_delivers).2
  · exact (finish_append Assembler.trees_nests (fun _ => Assembler.moves_trees) tolerant shells
      front_delivers back_delivers whole_delivers).2

/-- Two messages, the first with a number that goes on past its end, in front of another. -/
theorem outcomes_append_of_overrun :
    let message : Definition := .record ⟨"msg", some .sequence, false⟩ .sequence
      [.scalar ⟨"id", some .integer, false⟩ .integer]
    let schema : Schema := ⟨[message], [message], .singleOctet⟩
    let options : DecodeOptions := ⟨.skipRecord, true, 8⟩
    let front : Octets := [0x30, 0x03, 0x02, 0x05, 0x01, 0x30, 0x03, 0x02, 0x01, 0x05]
    let back : Octets := [0x30, 0x03, 0x02, 0x01, 0x07]
    let records (octets : Octets) : List (Step (List Field)) :=
      (finish schema .fields options (ofSource schema options .empty (.ofOctets octets))).1
    options.errorMode ≠ .failFast ∧ (records front).length = 2 ∧
      records (front ++ back) = records front ++ (records back).map
        (Step.displace 10 (records front).length (List.map (Field.displace 10))) := by
  intro message schema options front back records
  have tolerant : options.errorMode ≠ .failFast := by decide
  let shells : List (Shell schema.encoding) :=
    [⟨.short 0x30 0x03 (by decide) (by decide), [0x02, 0x05, 0x01], rfl⟩,
      ⟨.short 0x30 0x03 (by decide) (by decide), [0x02, 0x01, 0x05], rfl⟩]
  have front_delivers : (Source.ofOctets front).Delivers (Shell.octetsAll shells) :=
    Source.delivers_ofOctets front
  have whole_delivers : (Source.ofOctets (front ++ back)).Delivers
      (Shell.octetsAll shells ++ back) :=
    Source.delivers_ofOctets (front ++ back)
  have counted := finish_append Assembler.fields_nests (fun _ => Assembler.moves_fields) tolerant
    shells front_delivers (Source.delivers_ofOctets back) whole_delivers
  have appended := outcomes_append tolerant shells front_delivers
    (Source.delivers_ofOctets back) whole_delivers
  exact ⟨tolerant, counted.1, appended.1⟩

end Records

end BerRecords
