import BerRecords.Proofs.Reader.Trace

/-!
# What a reader accepts

A reader accepts exactly the octets that are a series of well-formed elements within
the nesting limit, and what it says then is their linearisation.
-/

set_option autoImplicit false

namespace BerRecords

namespace Element

variable {encoding : TagEncoding}

theorem height_pos (element : Element encoding) : 1 ≤ element.height := by
  cases element with
  | leaf heading value => simp [height]
  | branch heading children => simp [height]

end Element

namespace Reader

open Element

variable {encoding : TagEncoding}

mutual

/-- An open element of which only the heading has been read is read to its end. -/
theorem steps_inside (element : Element encoding) (reader : Reader) (outer : List Open)
    {source : Source} {offset : Nat} (same : reader.encoding = encoding)
    (wellFormed : element.WellFormed)
    (shallow : outer.length + element.height ≤ reader.maxDepth)
    (stands : reader.offset = offset + element.heading.octets.length)
    (passes : reader.source.Passes element.content source) :
    Steps reader (⟨element.heading.header offset, false⟩ :: outer)
      (element.body offset ++ [.stop element.heading.tag])
      (reader.advance element.content.length source) outer := by
  match element with
  | .leaf heading value =>
      rw [WellFormed] at wellFormed
      refine .head (.value wellFormed.1 rfl wellFormed.2 passes) ?_
      exact .single (.stopLeaf wellFormed.1 rfl)
  | .branch heading children =>
      rw [WellFormed] at wellFormed
      rw [height] at shallow
      have ends : reader.offset + (octetsAll children).length = (heading.header offset).stop := by
        rw [wellFormed.2.1, stands]
        rfl
      have inner := steps_all children reader ⟨heading.header offset, false⟩ outer same
        wellFormed.1 wellFormed.2.2 (by omega) (Nat.le_of_eq ends) passes
      rw [stands] at inner
      exact inner.trans (.single (.stopBranch wellFormed.1 ends))

/-- Elements inside an open one are read one after another. -/
theorem steps_all (elements : List (Element encoding)) (reader : Reader) (top : Open)
    (outer : List Open) {source : Source} (same : reader.encoding = encoding)
    (constructed : top.header.constructed = true) (wellFormed : WellFormedAll elements)
    (shallow : outer.length + 1 + heightAll elements ≤ reader.maxDepth)
    (within : reader.offset + (octetsAll elements).length ≤ top.header.stop)
    (passes : reader.source.Passes (octetsAll elements) source) :
    Steps reader (top :: outer) (signalsAll reader.offset elements)
      (reader.advance (octetsAll elements).length source) (top :: outer) := by
  match elements with
  | [] =>
      cases passes
      exact .refl
  | element :: rest =>
      rw [WellFormedAll] at wellFormed
      rw [heightAll] at shallow
      rw [octetsAll, List.length_append] at within
      rw [octetsAll] at passes
      obtain ⟨middle, front, later⟩ := passes.split
      rw [octets_eq] at front
      obtain ⟨opened, headed, contents⟩ := front.split
      have ends : (element.heading.header reader.offset).stop =
          reader.offset + element.octets.length := wellFormed.1.stop_eq
      have opening : Step reader (top :: outer) (.start (element.heading.header reader.offset))
          (reader.advance element.heading.octets.length opened)
          (⟨element.heading.header reader.offset, false⟩ :: top :: outer) := by
        subst same
        have positive := element.height_pos
        exact .start constructed (by omega) (by omega) headed
      have deeper : (top :: outer).length + element.height ≤ reader.maxDepth := by
        simp only [List.length_cons]
        omega
      have inner := steps_inside element (reader.advance _ opened) (top :: outer) same
        wellFormed.1 deeper rfl contents
      have others := steps_all rest (reader.advance element.octets.length middle) top outer same
        constructed wellFormed.2 (by simp only [advance_maxDepth]; omega)
        (by simp only [advance_offset]; omega) later
      rw [signalsAll, signals_eq]
      refine Steps.head opening (inner.trans ?_)
      simpa [octets_eq, octetsAll, Nat.add_assoc] using others

end

variable {σ : Type} {visitor : Visitor σ} {state state' : σ}

def between (reader : Reader) : Reader :=
  { reader with current := none }

theorem nextElement_on (reader : Reader) :
    (nextElement visitor).on (reader, state) =
      match (openElement none 0).on reader.between with
      | (.error error, after) => (.error error, after, state)
      | (.ok none, after) => (.ok none, after, state)
      | (.ok (some header), after) =>
        match (visitor (.start header)).on state with
        | (.error error, state) => (.error error, after, state)
        | (.ok (), state) =>
          match drive visitor after state [⟨header, false⟩] with
          | (.error error, after, state) => (.error error, after, state)
          | (.ok (), after, state) => (.ok (some header), after.between, state) :=
  rfl

private theorem opens_element (element : Element encoding) (reader : Reader) {source : Source}
    (same : reader.encoding = encoding) (wellFormed : element.WellFormed)
    (shallow : element.height ≤ reader.maxDepth)
    (passes : reader.source.Passes element.octets source) :
    ∃ opened, (openElement none 0).on reader.between =
        (.ok (some (element.heading.header reader.offset)), opened) ∧
      Steps opened [⟨element.heading.header reader.offset, false⟩]
        (element.body reader.offset ++ [.stop element.heading.tag])
        { reader.advance element.octets.length source with
          current := some (element.heading.header reader.offset) } [] := by
  rw [octets_eq] at passes
  obtain ⟨middle, headed, contents⟩ := passes.split
  have positive := element.height_pos
  let opened : Reader := { reader.advance element.heading.octets.length middle with
    current := some (element.heading.header reader.offset) }
  refine ⟨opened, ?_, ?_⟩
  · subst same
    exact openElement_some_iff.2 ⟨element.heading, rfl, within_none _, by
      simp only [between]; omega, middle, headed, rfl⟩
  · have inner := steps_inside element opened [] same wellFormed
      (by simpa [opened] using shallow) rfl contents
    simpa [opened, advance, octets_eq, Nat.add_assoc] using inner

/-- Both ways in which a visitor may take an element that stands at the front. -/
theorem nextElement_of_element (visitor : Visitor σ) (element : Element encoding)
    (reader : Reader) (state : σ) {source : Source} (same : reader.encoding = encoding)
    (wellFormed : element.WellFormed) (shallow : element.height ≤ reader.maxDepth)
    (passes : reader.source.Passes element.octets source) :
    match (visitor.tell (element.signals reader.offset)).on state with
    | (.ok (), state') =>
      (nextElement visitor).on (reader, state) =
        (.ok (some (element.heading.header reader.offset)),
          (reader.advance element.octets.length source).between, state')
    | (.error error, state') =>
      ∃ left, (nextElement visitor).on (reader, state) = (.error error, left, state') := by
  obtain ⟨opened, opens, steps⟩ := opens_element element reader same wellFormed shallow passes
  rw [signals_eq, Visitor.tell_cons, nextElement_on, opens]
  generalize element.body reader.offset ++ [.stop element.heading.tag] = later at steps ⊢
  dsimp only
  rcases (visitor (.start (element.heading.header reader.offset))).on state with
    ⟨error | ⟨⟩, before⟩
  · exact ⟨opened, rfl⟩
  · dsimp only
    rcases told : (visitor.tell later).on before with
      ⟨error | ⟨⟩, state'⟩
    · obtain ⟨left, driven⟩ := drive_of_steps_refused steps told
      exact ⟨left, by rw [driven]⟩
    · rw [drive_of_steps steps told, drive]
      rfl

theorem nextElement_of_exhausted (visitor : Visitor σ) {reader : Reader} (state : σ)
    {source : Source} (next : reader.source.next = .exhausted source) :
    (nextElement visitor).on (reader, state) =
      (.ok none, (reader.advance 0 source).between, state) := by
  have absent := (@openElement_none_iff none reader.between _ 0).2 ⟨rfl, source, next, rfl⟩
  rw [nextElement_on, absent]
  rfl

theorem process_on (visitor : Visitor σ) (reader : Reader) (state : σ) :
    process visitor reader state =
      match (nextElement visitor).on (reader, state) with
      | (.error error, reader, state) => (.error error, reader, state)
      | (.ok none, reader, state) => (.ok (), reader, state)
      | (.ok (some _), reader, state) => process visitor reader state := by
  rw [process]
  split <;> rename_i found <;> rw [found]

/-- Reading to the end follows a series of elements, up to the first refusal. -/
theorem process_of_parses (visitor : Visitor σ) {octets : Octets}
    (elements : List (Element encoding)) (reader : Reader) (state : σ)
    (same : reader.encoding = encoding) (parses : Parses reader.maxDepth octets elements)
    (delivers : reader.source.Delivers octets) :
    match (visitor.tell (signalsAll reader.offset elements)).on state with
    | (.ok (), state') =>
      ∃ after, process visitor reader state = (.ok (), after, state') ∧
        after.offset = reader.offset + octets.length
    | (.error error, state') =>
      ∃ left, process visitor reader state = (.error error, left, state') := by
  obtain ⟨wellFormed, shallow, rfl⟩ := parses
  induction elements generalizing reader state with
  | nil =>
      refine ⟨(reader.advance 0 ⟨[], .exhausted⟩).between, ?_, rfl⟩
      rw [process_on, nextElement_of_exhausted visitor state delivers.next_nil]
  | cons element rest ih =>
      rw [WellFormedAll] at wellFormed
      rw [heightAll] at shallow
      rw [octetsAll] at delivers
      obtain ⟨source, passes, later⟩ := delivers.split
      have first := nextElement_of_element visitor element reader state same wellFormed.1
        (by omega) passes
      rw [signalsAll, Visitor.tell_append, Attempt.on_bind, process_on]
      rcases told : (visitor.tell (element.signals reader.offset)).on state with
        ⟨error | ⟨⟩, state'⟩
      · simp only [told] at first
        obtain ⟨left, refused⟩ := first
        exact ⟨left, by rw [refused]⟩
      · simp only [told] at first
        have others := ih (reader.advance element.octets.length source).between state' same
          wellFormed.2 (by simp only [between, advance_maxDepth]; omega) later
        simp only [first, octetsAll, List.length_append, ← Nat.add_assoc]
        exact others

/-- What closes all open elements: the elements that are still to come inside each of
them, the values not yet read, and the octets of both. -/
inductive Completes (encoding : TagEncoding) (limit : Nat) : Nat → List Open → Octets → Prop where
  | nil {offset : Nat} : Completes encoding limit offset [] []
  | branch {offset : Nat} {top : Open} {outer : List Open} {rest : Octets}
      {elements : List (Element encoding)} :
      top.header.constructed = true → WellFormedAll elements →
      heightAll elements ≤ limit - (outer.length + 1) →
      offset + (octetsAll elements).length = top.header.stop →
      Completes encoding limit top.header.stop outer rest →
      Completes encoding limit offset (top :: outer) (octetsAll elements ++ rest)
  | unread {offset : Nat} {top : Open} {outer : List Open} {value rest : Octets} :
      top.header.constructed = false → top.valueRead = false →
      value.length = top.header.length →
      Completes encoding limit (offset + value.length) outer rest →
      Completes encoding limit offset (top :: outer) (value ++ rest)
  | read {offset : Nat} {top : Open} {outer : List Open} {rest : Octets} :
      top.header.constructed = false → top.valueRead = true →
      Completes encoding limit offset outer rest →
      Completes encoding limit offset (top :: outer) rest

private theorem Completes.close {limit offset : Nat} {top : Open} {outer : List Open}
    {octets : Octets} (constructed : top.header.constructed = true)
    (ended : offset = top.header.stop) (completes : Completes encoding limit offset outer octets) :
    Completes encoding limit offset (top :: outer) octets := by
  subst ended
  have none_inside : WellFormedAll ([] : List (Element encoding)) := by rw [WellFormedAll]; trivial
  have closed := Completes.branch constructed none_inside (Nat.zero_le _) rfl completes
  rwa [octetsAll, List.nil_append] at closed

/-- An element that has just started is closed first of all, and is a whole one then. -/
private theorem Completes.element {limit : Nat} {heading : Heading encoding} {offset : Nat}
    {outer : List Open} {octets : Octets} (shallow : outer.length < limit)
    (completes : Completes encoding limit (offset + heading.octets.length)
      (⟨heading.header offset, false⟩ :: outer) octets) :
    ∃ (element : Element encoding) (rest : Octets), element.heading = heading ∧
      element.WellFormed ∧ element.height ≤ limit - outer.length ∧
        octets = element.content ++ rest ∧
          Completes encoding limit (offset + element.octets.length) outer rest := by
  cases completes with
  | @branch _ _ _ rest elements branches wellFormed heights ends completes =>
      have declared : (octetsAll elements).length = heading.length := by
        simp only [Header.stop, Header.contentStart, Header.size, Heading.header] at ends
        omega
      refine ⟨.branch heading elements, rest, rfl, ?_, ?_, rfl, ?_⟩
      · rw [WellFormed]
        exact ⟨branches, declared, wellFormed⟩
      · rw [height]
        omega
      · simpa [Element.octets, ← ends, Nat.add_assoc] using completes
  | @unread _ _ _ value rest leaf _ counted completes =>
      refine ⟨.leaf heading value, rest, rfl, ?_, ?_, rfl, ?_⟩
      · rw [WellFormed]
        exact ⟨leaf, counted⟩
      · rw [height]
        omega
      · simpa [Element.octets, Nat.add_assoc] using completes
  | read _ valueRead => cases valueRead

/-- A whole element joins those inside the element around it. -/
private theorem Completes.start {limit : Nat} {heading : Heading encoding} {offset : Nat}
    {top : Open} {outer : List Open} {octets : Octets}
    (constructed : top.header.constructed = true) (shallow : outer.length + 1 < limit)
    (completes : Completes encoding limit (offset + heading.octets.length)
      (⟨heading.header offset, false⟩ :: top :: outer) octets) :
    Completes encoding limit offset (top :: outer) (heading.octets ++ octets) := by
  obtain ⟨element, rest, rfl, wellFormed, height_le, rfl, later⟩ := completes.element shallow
  rw [← List.append_assoc, ← octets_eq]
  cases later with
  | unread constructed' => simp [constructed] at constructed'
  | read constructed' => simp [constructed] at constructed'
  | @branch _ _ _ rest elements _ wellFormedAll heights ends others =>
      have wellFormedAll' : WellFormedAll (element :: elements) := by
        rw [WellFormedAll]
        exact ⟨wellFormed, wellFormedAll⟩
      have heights' : heightAll (element :: elements) ≤ limit - (outer.length + 1) := by
        rw [heightAll]
        exact Nat.max_le.2 ⟨height_le, heights⟩
      have ends' : offset + (octetsAll (element :: elements)).length = top.header.stop := by
        rw [octetsAll, List.length_append]
        omega
      have more := Completes.branch constructed wellFormedAll' heights' ends' others
      simpa [octetsAll] using more

/-- Steps after which no element is open have taken what closes those open before. -/
theorem Steps.completes {reader after : Reader} {stack rest : List Open}
    {signals : List Signal} (steps : Steps reader stack signals after rest) (closed : rest = []) :
    ∃ octets, Completes reader.encoding reader.maxDepth reader.offset stack octets ∧
      reader.source.Passes octets after.source ∧
        after = reader.advance octets.length after.source := by
  induction steps with
  | refl =>
      subst closed
      exact ⟨[], .nil, .nil, rfl⟩
  | @head reader _ after _ _ _ _ _ step _ ih =>
      obtain ⟨octets, completes, passes, reached⟩ := ih closed
      cases step with
      | @start top outer heading source constructed within shallow headed =>
          refine ⟨heading.octets ++ octets, .start constructed shallow completes,
            headed.append passes, ?_⟩
          rw [reached]
          simp
      | @value top outer value source constructed unread counted taken =>
          cases completes with
          | branch constructed' => simp [constructed] at constructed'
          | unread _ unread' => cases unread'
          | read _ _ completes =>
              refine ⟨value ++ octets, .unread constructed unread counted completes,
                taken.append passes, ?_⟩
              rw [reached]
              simp
      | stopBranch constructed ended =>
          exact ⟨octets, .close constructed ended completes, passes, reached⟩
      | stopLeaf constructed valueRead =>
          exact ⟨octets, .read constructed valueRead completes, passes, reached⟩

/-- An element that is read was one of the grammar. -/
theorem element_of_nextElement {reader after : Reader} {header : Header}
    (read : (nextElement visitor).on (reader, state) = (.ok (some header), after, state')) :
    ∃ (element : Element reader.encoding) (source : Source), element.WellFormed ∧
      element.height ≤ reader.maxDepth ∧ reader.source.Passes element.octets source ∧
        after = (reader.advance element.octets.length source).between := by
  rw [nextElement_on] at read
  rcases opens : (openElement none 0).on reader.between with ⟨error | none | found, opened⟩
  · simp [opens] at read
  · simp [opens] at read
  · simp only [opens] at read
    rcases told : (visitor (.start found)).on state with ⟨error | ⟨⟩, before⟩
    · simp [told] at read
    · simp only [told] at read
      have ran := driven visitor opened before [⟨found, false⟩]
      rcases drives : drive visitor opened before [⟨found, false⟩] with
        ⟨error | ⟨⟩, closed, later⟩
      · simp [drives] at read
      · simp only [drives, Prod.mk.injEq, Except.ok.injEq, Option.some.injEq] at read ran
        obtain ⟨rfl, rfl, rfl⟩ := read
        obtain ⟨heading, rfl, -, shallow, source, headed, rfl⟩ := openElement_some_iff.1 opens
        cases ran with
        | finished steps =>
            obtain ⟨octets, completes, passes, reached⟩ := steps.completes rfl
            obtain ⟨element, rest, rfl, wellFormed, height_le, rfl, nothing⟩ :=
              @Completes.element reader.encoding reader.maxDepth heading reader.offset [] octets
                shallow completes
            cases nothing
            refine ⟨element, closed.source, wellFormed, height_le, ?_, ?_⟩
            · rw [List.append_nil] at passes
              rw [octets_eq]
              exact headed.append passes
            · rw [reached]
              simp [between, advance, octets_eq, atHand, Nat.add_assoc]

theorem exhausted_of_nextElement {reader after : Reader}
    (read : (nextElement visitor).on (reader, state) = (.ok none, after, state')) :
    state' = state ∧
      ∃ source, reader.source.next = .exhausted source ∧ after = reader.between.advance 0 source := by
  rw [nextElement_on] at read
  rcases opens : (openElement none 0).on reader.between with ⟨error | none | found, opened⟩
  · simp [opens] at read
  · obtain ⟨-, source, next, rfl⟩ := openElement_none_iff.1 opens
    simp only [opens, Prod.mk.injEq, true_and] at read
    exact ⟨read.2.symm, source, next, read.1.symm⟩
  · simp only [opens] at read
    rcases told : (visitor (.start found)).on state with ⟨error | ⟨⟩, before⟩
    · simp [told] at read
    · rcases drives : drive visitor opened before [⟨found, false⟩] with ⟨error | ⟨⟩, closed, later⟩
      · simp [told, drives] at read
      · simp [told, drives] at read

/-- What is read to the end was a series of elements. -/
theorem parses_of_process (visitor : Visitor σ) {octets : Octets} (reader : Reader) (state : σ)
    (delivers : reader.source.Delivers octets)
    (accepted : (process visitor reader state).1 = .ok ()) :
    ∃ elements : List (Element reader.encoding), Parses reader.maxDepth octets elements := by
  fun_induction process visitor reader state generalizing octets with
  | case1 => simp at accepted
  | case2 reader state after state' read =>
      obtain ⟨-, source, next, -⟩ := exhausted_of_nextElement read
      cases octets with
      | nil => exact ⟨[], by rw [WellFormedAll]; trivial, Nat.zero_le _, rfl⟩
      | cons octet octets =>
          obtain ⟨after, next', -⟩ := delivers.next_cons
          rw [next] at next'
          cases next'
  | case3 reader state header after state' read ih =>
      obtain ⟨element, source, wellFormed, height_le, passes, rfl⟩ := element_of_nextElement read
      obtain ⟨back, rfl, later⟩ := delivers.rest passes
      obtain ⟨elements, parses⟩ : ∃ elements : List (Element reader.encoding),
          Parses reader.maxDepth back elements := ih later accepted
      refine ⟨element :: elements, ?_, ?_, ?_⟩
      · rw [WellFormedAll]
        exact ⟨wellFormed, parses.wellFormed⟩
      · rw [heightAll]
        exact Nat.max_le.2 ⟨height_le, parses.height_le⟩
      · rw [octetsAll, parses.octets_eq]

end Reader

namespace Event

open Element

theorem tell_recorder (signals : List Signal) (events : Array Event) :
    (Visitor.tell recorder signals).on events =
      (.ok (), events ++ (signals.map Signal.event).toArray) := by
  induction signals generalizing events with
  | nil => simp [Visitor.tell]
  | cons signal signals ih =>
      rw [Visitor.tell_cons]
      simp [recorder, ih]

/-- A series of elements is recorded to its end. -/
theorem recorded_of_parses {encoding : TagEncoding} {source : Source} {octets : Octets}
    {maxDepth : Nat} {elements : List (Element encoding)} (delivers : source.Delivers octets)
    (parses : Parses maxDepth octets elements) :
    ∃ after, (Reader.ofSource encoding maxDepth source).process recorder #[] =
      (.ok (), after, ((signalsAll 0 elements).map Signal.event).toArray) ∧
        after.offset = octets.length := by
  have read := Reader.process_of_parses recorder elements
    (Reader.ofSource encoding maxDepth source) #[] rfl parses delivers
  rw [tell_recorder] at read
  simpa [Reader.ofSource] using read

/-- A source is recorded to its end exactly if what it delivers is a series of elements
within the nesting limit. There is only one such series then, and the events are its
linearisation. -/
theorem recorded_iff_parses {source : Source} {octets : Octets}
    (delivers : source.Delivers octets) (encoding : TagEncoding) (maxDepth : Nat) :
    let ran := (Reader.ofSource encoding maxDepth source).process recorder #[]
    (ran.1 = .ok () ↔ ∃ elements : List (Element encoding), Parses maxDepth octets elements) ∧
      ∀ elements : List (Element encoding), Parses maxDepth octets elements →
        ran.2.2.toList = (signalsAll 0 elements).map Signal.event ∧
          ran.2.1.offset = octets.length ∧
            ∀ others : List (Element encoding), Parses maxDepth octets others →
              others = elements := by
  intro ran
  refine ⟨⟨fun accepted => ?_, ?_⟩, ?_⟩
  · exact Reader.parses_of_process recorder (Reader.ofSource encoding maxDepth source) #[]
      delivers accepted
  · rintro ⟨elements, parses⟩
    obtain ⟨after, ended, -⟩ := recorded_of_parses delivers parses
    exact congrArg Prod.fst ended
  · intro elements parses
    obtain ⟨after, ended, stands⟩ := recorded_of_parses delivers parses
    have events : ran.2.2 = ((signalsAll 0 elements).map Signal.event).toArray :=
      congrArg (·.2.2) ended
    have reached : ran.2.1 = after := congrArg (·.2.1) ended
    refine ⟨by rw [events], by rw [reached, stands], fun others parses' => ?_⟩
    exact parses'.unique parses

/-- A sequence of one integer, cut inside its first heading and before its last octets. -/
theorem recorded_of_two_pieces :
    let source : Source :=
      ⟨[.piece 0x30 [], .interrupted, .piece 0x03 [0x02, 0x01, 0x05]], .exhausted⟩
    let ran := (Reader.ofSource .singleOctet 2 source).process recorder #[]
    (∃ elements : List (Element .singleOctet),
        Parses 2 [0x30, 0x03, 0x02, 0x01, 0x05] elements) ∧
      ran.1 = .ok () ∧ ran.2.1.offset = 5 ∧
        ran.2.2.toList = [.start .sequence 3 true 0, .start .integer 1 false 2, .value [5],
          .stop .integer, .stop .sequence] := by
  intro source ran
  let elements : List (Element .singleOctet) :=
    [.branch (.short 0x30 0x03 (by decide) (by decide))
      [.leaf (.short 0x02 0x01 (by decide) (by decide)) [0x05]]]
  have parses : Parses 2 [0x30, 0x03, 0x02, 0x01, 0x05] elements := by
    refine ⟨?_, ?_, ?_⟩
    · simp only [elements, WellFormedAll, WellFormed]
      decide
    · simp [elements, heightAll, height]
    · rfl
  have delivers : source.Delivers [0x30, 0x03, 0x02, 0x01, 0x05] :=
    Source.delivers_contents source.deliveries (by simp [source])
  have whole := recorded_iff_parses delivers .singleOctet 2
  obtain ⟨events, stands, -⟩ := whole.2 elements parses
  exact ⟨⟨elements, parses⟩, whole.1.2 ⟨elements, parses⟩, stands, events⟩

end Event

end BerRecords
