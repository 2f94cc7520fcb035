import BerRecords.Proofs.Reader.Calls
import BerRecords.Proofs.Reader.Faults
import BerRecords.Proofs.Reader.Resynchronisation

/-!
# Elements are left at their ends

A reader never stands outside the elements that it has open, and what is read inside an element
ends where the element ends. So nothing can be left over there, no header is cut off by the end
of the source without being told so at once, and an element at hand is never behind the reader.
Each element costs two octets at least, which bounds how long reading goes on.
-/

set_option autoImplicit false

namespace BerRecords

/-- In an error that a reader raises at `position`, inside `parent` if there is one, the number
of octets that are said to be occupied is the distance from the beginning of the parent's content
to the place where the reader would have to be. Children are never said to end short of their
parent, nor a header to be cut off. -/
def DecodeError.Measured (parent : Option Header) (position : Nat) : DecodeError → Prop
  | .corrupt _ _ _ .headerCut => False
  | .corrupt _ element _ (.headerPastParent declared occupied) =>
    ∃ outer ∈ parent, element = some outer.offset ∧ declared = outer.length ∧
      outer.contentStart + occupied = position ∧ position = outer.stop
  | .corrupt start element _ (.childrenMisfit declared occupied) =>
    ∃ outer ∈ parent, element = some outer.offset ∧ declared = outer.length ∧
      ∃ child : Header, child.offset = start ∧ child.contentStart = position ∧ start < position ∧
        outer.contentStart + occupied = child.stop ∧ outer.stop < child.stop
  | _ => True

namespace Reader

open Signal (startOffsets startOffsets_append)

variable {parent : Option Header} {reader after : Reader} {error : DecodeError}

/-- If the parent has not been passed, a header is too long for it only where the parent ends. -/
theorem HeaderFault.measured {start position : Nat}
    (fault : HeaderFault parent start position error) (within : Within parent position) :
    error.Measured parent position := by
  cases fault with
  | @past outer member beyond =>
      have ends := Nat.le_antisymm (within outer member) beyond
      have starts : outer.contentStart ≤ outer.stop := Nat.le_add_right _ _
      exact ⟨outer, member, rfl, rfl, by omega, ends⟩
  | source | ended | identifier | indefinite | long => trivial

theorem OpeningFault.measured {start position : Nat}
    (fault : OpeningFault parent start position error) (within : Within parent position) :
    error.Measured parent position := by
  cases fault with
  | header fault => exact fault.measured within
  | @overrun outer child member begins reached longer beyond =>
      have starts : outer.contentStart ≤ outer.stop := Nat.le_add_right _ _
      exact ⟨outer, member, rfl, rfl, child, begins, reached, longer, by omega, beyond⟩
  | tooDeep => trivial

/-- A position that lies inside each of the open elements. They lie one inside the other, and only
the innermost may be primitive, with its value still to be read or behind. -/
structure Surrounds (position : Nat) (stack : List Open) : Prop where
  entered : ∀ element ∈ stack, element.header.contentStart ≤ position
  within : ∀ element ∈ stack, position ≤ element.header.stop
  nested : stack.Pairwise fun inner outer => inner.header.stop ≤ outer.header.stop
  built : ∀ element ∈ stack.tail, element.header.constructed = true
  stands : ∀ element ∈ stack, element.header.constructed = false →
    position = if element.valueRead then element.header.stop else element.header.contentStart

namespace Surrounds

variable {position : Nat} {top : Open} {outer stack rest : List Open} {signal : Signal}
  {signals : List Signal}

theorem nil : Surrounds position [] := by
  constructor <;> simp

/-- An element that fits its parent has been opened. -/
theorem opened {encoding : TagEncoding} (surrounds : Surrounds position stack)
    (constructed : ∀ element ∈ stack, element.header.constructed = true)
    (heading : Heading encoding)
    (fits : ∀ element ∈ stack, (heading.header position).stop ≤ element.header.stop) :
    Surrounds (position + heading.octets.length) (⟨heading.header position, false⟩ :: stack) := by
  have ends : position + heading.octets.length ≤ (heading.header position).stop :=
    Nat.le_add_right _ _
  refine ⟨?_, ?_, List.pairwise_cons.2 ⟨fits, surrounds.nested⟩, constructed, ?_⟩
  · rintro element (_ | ⟨_, member⟩)
    · exact Nat.le_refl _
    · exact Nat.le_add_right_of_le (surrounds.entered element member)
  · rintro element (_ | ⟨_, member⟩)
    · exact ends
    · exact Nat.le_trans ends (fits element member)
  · rintro element (_ | ⟨_, member⟩) primitive
    · rfl
    · simp [constructed element member] at primitive

/-- The value of the innermost element has been read: the reader stands at its end. -/
theorem valued {count : Nat} (surrounds : Surrounds position (top :: outer))
    (primitive : top.header.constructed = false) (unread : top.valueRead = false)
    (counted : count = top.header.length) :
    Surrounds (position + count) (⟨top.header, true⟩ :: outer) := by
  have begun : position = top.header.contentStart := by
    rw [surrounds.stands top List.mem_cons_self primitive, unread]
    rfl
  have ends : position + count = top.header.stop := by
    rw [counted, begun, Header.stop]
  have within := (List.pairwise_cons.1 surrounds.nested).1
  have later := (List.pairwise_cons.1 surrounds.nested).2
  refine ⟨?_, ?_, List.pairwise_cons.2 ⟨within, later⟩, surrounds.built, ?_⟩
  · rintro element (_ | ⟨_, member⟩)
    · exact Nat.le_add_right_of_le (surrounds.entered top List.mem_cons_self)
    · exact Nat.le_add_right_of_le (surrounds.entered element (List.mem_cons_of_mem _ member))
  · rintro element (_ | ⟨_, member⟩)
    · exact Nat.le_of_eq ends
    · rw [ends]
      exact within element member
  · rintro element (_ | ⟨_, member⟩) primitive
    · exact ends
    · simp [surrounds.built element member] at primitive

theorem closed (surrounds : Surrounds position (top :: outer)) : Surrounds position outer := by
  refine ⟨?_, ?_, (List.pairwise_cons.1 surrounds.nested).2, ?_, ?_⟩
  · exact fun element member => surrounds.entered element (List.mem_cons_of_mem _ member)
  · exact fun element member => surrounds.within element (List.mem_cons_of_mem _ member)
  · exact fun element member => surrounds.built element (List.mem_of_mem_tail member)
  · exact fun element member => surrounds.stands element (List.mem_cons_of_mem _ member)

theorem step (surrounds : Surrounds reader.offset stack)
    (step : Step reader stack signal after rest) : Surrounds after.offset rest := by
  cases step with
  | @start top outer heading source constructed within =>
      refine surrounds.opened ?_ heading ?_
      · rintro element (_ | ⟨_, member⟩)
        · exact constructed
        · exact surrounds.built element member
      · rintro element (_ | ⟨_, member⟩)
        · exact within
        · exact Nat.le_trans within ((List.pairwise_cons.1 surrounds.nested).1 element member)
  | value primitive unread counted => exact surrounds.valued primitive unread counted
  | stopBranch => exact surrounds.closed
  | stopLeaf => exact surrounds.closed

theorem steps (steps : Steps reader stack signals after rest)
    (surrounds : Surrounds reader.offset stack) : Surrounds after.offset rest := by
  induction steps with
  | refl => exact surrounds
  | head step _ ih => exact ih (surrounds.step step)

theorem of_tells (tells : Tells reader signals after stack) : Surrounds after.offset stack := by
  cases tells with
  | opened opened steps =>
      obtain ⟨heading, rfl, -, -, source, -, rfl⟩ := openElement_some_iff.1 opened
      exact Surrounds.steps steps (Surrounds.nil.opened (by simp) heading (by simp))

theorem landed (surrounds : Surrounds reader.offset (top :: outer))
    (constructed : top.header.constructed = true) :
    reader.offset < top.header.stop ∨ reader.offset = top.header.stop ∧
      (Reader.step top outer).on reader = (.ok (.stop top.header.tag, outer), reader) := by
  rcases Nat.lt_or_eq_of_le (surrounds.within top List.mem_cons_self) with inside | ended
  · exact .inl inside
  · exact .inr ⟨ended, step_ok_iff.2 (.stopBranch constructed ended)⟩

theorem ended {tag : Tag} (surrounds : Surrounds reader.offset (top :: outer))
    (closes : (Reader.step top outer).on reader = (.ok (.stop tag, rest), after)) :
    reader.offset = top.header.stop := by
  cases step_ok_iff.1 closes with
  | stopBranch _ ended => exact ended
  | stopLeaf primitive valueRead =>
      rw [surrounds.stands top List.mem_cons_self primitive, valueRead]
      rfl

theorem measured (surrounds : Surrounds reader.offset (top :: outer))
    (failed : (Reader.step top outer).on reader = (.error error, after)) :
    error.Measured (some top.header) after.offset := by
  cases stepFault failed with
  | opening constructed inside fault =>
      have within := (stays_stepInside constructed outer reader).within
        (within_some.2 (Nat.le_of_lt inside))
      rw [failed] at within
      exact fault.measured within
  | astray _ beyond => exact absurd (surrounds.within top List.mem_cons_self) (Nat.not_le.2 beyond)
  | valueCut | source => trivial

end Surrounds

/-- Between these two states of a reader the signals were given. All octets that were taken have
been counted, two at least for each element that has started. -/
structure Costs (signals : List Signal) (before after : Reader) : Prop where
  counted : after.offset + after.remaining = before.offset + before.remaining
  two_each : before.offset + 2 * (startOffsets signals).length ≤ after.offset

namespace Costs

variable {first second third : Reader} {front back : List Signal}

theorem append (earlier : Costs front first second) (later : Costs back second third) :
    Costs (front ++ back) first third := by
  refine ⟨later.counted.trans earlier.counted, ?_⟩
  rw [startOffsets_append, List.length_append]
  have := earlier.two_each
  have := later.two_each
  omega

theorem of_passes {signals : List Signal} {reader after : Reader} {octets : Octets}
    (passes : reader.source.Passes octets after.source)
    (moved : after.offset = reader.offset + octets.length)
    (enough : 2 * (startOffsets signals).length ≤ octets.length) : Costs signals reader after := by
  have held := congrArg List.length passes.held
  rw [List.length_append, Source.length_held, Source.length_held] at held
  refine ⟨?_, moved ▸ Nat.add_le_add_left enough _⟩
  simp only [remaining]
  omega

end Costs

section

variable {signal : Signal} {signals : List Signal} {stack rest : List Open}

theorem Step.costs (step : Step reader stack signal after rest) : Costs [signal] reader after := by
  cases step with
  | start constructed within shallow passes =>
      exact .of_passes passes rfl (Heading.two_le_length _)
  | value primitive unread counted passes => exact .of_passes passes rfl (Nat.zero_le _)
  | stopBranch => exact .of_passes .nil rfl (Nat.zero_le _)
  | stopLeaf => exact .of_passes .nil rfl (Nat.zero_le _)

theorem Steps.costs (steps : Steps reader stack signals after rest) :
    Costs signals reader after := by
  induction steps with
  | refl => exact .of_passes .nil rfl (Nat.zero_le _)
  | head step _ ih => exact step.costs.append ih

theorem Tells.costs (tells : Tells reader signals after stack) : Costs signals reader after := by
  cases tells with
  | @opened header _ _ signals _ opened steps =>
      obtain ⟨heading, rfl, -, -, source, passes, rfl⟩ := openElement_some_iff.1 opened
      have started : Costs [.start (heading.header reader.offset)] reader
          (atHand none (heading.header reader.offset)
            (reader.between.advance heading.octets.length source)) :=
        .of_passes passes rfl (Heading.two_le_length heading)
      exact started.append steps.costs

private theorem Step.owed (step : Step reader stack signal after rest) :
    1 + Reader.owed rest ≤ 3 * (startOffsets [signal]).length + Reader.owed stack := by
  have owes (element : Open) : 1 ≤ element.owes := by
    rw [Open.owes]
    split
    · exact Nat.le_refl _
    · exact Nat.le_succ _
  -- With a start two more signals are due, and every other signal settles one at least.
  cases step with
  | start => simp [Reader.owed, Open.owes, startOffsets, Signal.startOffset?]; omega
  | value _ unread => simp [Reader.owed, Open.owes, unread]; omega
  | @stopBranch top => simp only [Reader.owed]; have := owes top; omega
  | @stopLeaf top => simp only [Reader.owed]; have := owes top; omega

private theorem Steps.owed (steps : Steps reader stack signals after rest) :
    signals.length + Reader.owed rest ≤ 3 * (startOffsets signals).length + Reader.owed stack := by
  induction steps with
  | refl => simp
  | @head _ _ _ _ _ _ signal signals step _ ih =>
      have first := step.owed
      rw [← List.singleton_append, startOffsets_append, List.length_append, List.length_append,
        List.length_singleton]
      omega

/-- A reader gives three signals for an element at most. -/
theorem Tells.length_le (tells : Tells reader signals after stack) :
    signals.length ≤ 3 * (startOffsets signals).length := by
  cases tells with
  | @opened header _ _ signals _ _ steps =>
      have later := steps.owed
      rw [← List.singleton_append, startOffsets_append, List.length_append, List.length_append]
      simp [Reader.owed, Open.owes, startOffsets, Signal.startOffset?] at later ⊢
      omega

end

def WithinHand (reader : Reader) : Prop :=
  ∀ header, reader.current = some header →
    header.contentStart ≤ reader.offset ∧ reader.offset ≤ header.stop

/-- How a reader stands that has been called any number of times, and how it goes on from there
into the element ahead, whoever is told of it. -/
structure Lands (reader : Reader) : Prop where
  at_hand : WithinHand reader
  -- Inside an element that is built of others there is something to read up to its end. There it
  -- is closed, and nowhere else.
  landed : ∀ signals after top outer, Tells reader signals after (top :: outer) →
    top.header.constructed = true → top.header.contentStart ≤ after.offset ∧
      (after.offset < top.header.stop ∨ after.offset = top.header.stop ∧
        (step top outer).on after = (.ok (.stop top.header.tag, outer), after))
  ended : ∀ signals middle top outer tag rest after, Tells reader signals middle (top :: outer) →
    (step top outer).on middle = (.ok (.stop tag, rest), after) → middle.offset = top.header.stop
  measured_outside : ∀ error after,
    (openElement none 0).on reader.between = (.error error, after) →
      error.Measured none after.offset
  measured_inside : ∀ signals middle top outer error after,
    Tells reader signals middle (top :: outer) →
      (step top outer).on middle = (.error error, after) →
        error.Measured (some top.header) after.offset
  costs : ∀ signals after stack, Tells reader signals after stack → Costs signals reader after
  costs_inside : ∀ signals middle stack more after rest, Tells reader signals middle stack →
    Steps middle stack more after rest → Costs more middle after
  bounded : ∀ signals after stack, Tells reader signals after stack →
    2 * signals.length ≤ 3 * reader.remaining

variable {σ : Type}

theorem withinHand_nextElement (visitor : Visitor σ) (reader : Reader) (state : σ) :
    WithinHand ((nextElement visitor).on (reader, state)).2.1 := by
  intro header hand
  rcases ran : (nextElement visitor).on (reader, state) with ⟨error | header?, after, state'⟩
  · rw [ran] at hand
    obtain ⟨heading, source, passes⟩ := heading_of_nextElement ran hand
    have handled := handled_nextElement visitor state rfl passes
    rw [ran] at handled
    cases handled with
    | stuck held started within =>
        cases held.symm.trans hand
        exact ⟨started, within⟩
  · rw [ran, nextElement_ok_current ran] at hand
    cases hand

theorem skipCurrent_current (reader : Reader) : (skipCurrent.on reader).2.current = none := by
  cases hand : reader.current with
  | none => rwa [skipCurrent_idle hand]
  | some header =>
      rcases Nat.lt_or_ge header.stop reader.offset with past | inside
      · rw [skipCurrent_past hand past]
        rfl
      · rw [skipCurrent_inside hand inside]
        rfl

theorem WithinHand.follow {reader : Reader} (within : WithinHand reader) (calls : List Call) :
    WithinHand (follow reader calls) := by
  induction calls generalizing reader with
  | nil => exact within
  | cons call calls ih =>
      refine ih ?_
      cases call with
      | next visitor state => exact withinHand_nextElement visitor reader state
      | skip =>
          intro header hand
          cases (skipCurrent_current reader).symm.trans hand

theorem WithinHand.lands {reader : Reader} (within : WithinHand reader) : Lands reader where
  at_hand := within
  landed := fun signals after top outer tells constructed => by
    have surrounds := Surrounds.of_tells tells
    exact ⟨surrounds.entered top List.mem_cons_self, surrounds.landed constructed⟩
  ended := fun signals middle top outer tag rest after tells closes =>
    (Surrounds.of_tells tells).ended closes
  measured_outside := fun error after failed => (openingFault failed).measured (within_none _)
  measured_inside := fun signals middle top outer error after tells failed =>
    (Surrounds.of_tells tells).measured failed
  costs := fun signals after stack tells => tells.costs
  costs_inside := fun signals middle stack more after rest _ steps => steps.costs
  bounded := fun signals after stack tells => by
    have costs := tells.costs
    have taken := costs.two_each
    have counted := costs.counted
    have length := tells.length_le
    omega

/-- An element that has been read ends where the reader then is, and it took two octets at least. -/
theorem lands_of_nextElement {visitor : Visitor σ} {reader after : Reader} {state state' : σ}
    {header : Header}
    (read : (nextElement visitor).on (reader, state) = (.ok (some header), after, state')) :
    after.offset = header.stop ∧ reader.offset + 2 ≤ after.offset ∧
      after.offset + after.remaining = reader.offset + reader.remaining := by
  obtain ⟨element, source, -, -, passes, -⟩ := element_of_nextElement read
  rw [Element.octets_eq] at passes
  obtain ⟨middle, headed, -⟩ := passes.split
  -- The one knows where the element ends, the other which signals were given on the way there.
  have handled := handled_nextElement visitor state rfl headed
  have attends := attends visitor reader state
  rw [read] at handled attends
  cases handled with
  | read _ reached =>
      cases attends with
      | complete tells =>
          have costs := tells.costs
          refine ⟨reached, ?_, costs.counted⟩
          cases tells with
          | opened =>
              have taken := costs.two_each
              simp only [startOffsets, Signal.startOffset?, List.filterMap_cons,
                List.length_cons] at taken
              exact Nat.le_trans (by omega) taken

/-- Reads top-level elements until the source is exhausted, but no more than `rounds` times.
There is no result where that is not enough. -/
def processWithin (visitor : Visitor σ) : Nat → Reader → σ →
    Option (Except DecodeError Unit × Reader × σ)
  | 0, _, _ => none
  | rounds + 1, reader, state =>
    match (nextElement visitor).on (reader, state) with
    | (.error error, reader, state) => some (.error error, reader, state)
    | (.ok none, reader, state) => some (.ok (), reader, state)
    | (.ok (some _), reader, state) => processWithin visitor rounds reader state

theorem processWithin_eq_process (visitor : Visitor σ) {rounds : Nat} (reader : Reader) (state : σ)
    (enough : reader.remaining < 2 * rounds) :
    processWithin visitor rounds reader state = some (process visitor reader state) := by
  induction rounds generalizing reader state with
  | zero => omega
  | succ rounds ih =>
      rw [processWithin, process_on]
      rcases read : (nextElement visitor).on (reader, state) with
        ⟨error | none | header, after, state'⟩
      · rfl
      · rfl
      · have lands := lands_of_nextElement read
        exact ih after state' (by omega)

/-- Reading to the end of a source is nothing but reading one element after another. -/
theorem process_follows (visitor : Visitor σ) (reader : Reader) (state : σ) :
    ∃ calls, (process visitor reader state).2.1 = follow reader calls := by
  fun_induction process visitor reader state with
  | case1 reader state error after state' read =>
      exact ⟨[.next visitor state], by rw [follow, follow, Call.after, read]⟩
  | case2 reader state after state' read =>
      exact ⟨[.next visitor state], by rw [follow, follow, Call.after, read]⟩
  | case3 reader state header after state' read ih =>
      obtain ⟨calls, followed⟩ := ih
      exact ⟨.next visitor state :: calls, by rw [follow, Call.after, read, followed]⟩

/-- Whatever calls were made on a reader and however its source fails: what it reads inside an
element ends with the element, so that an element is closed at its declared end and nowhere else.
The element at hand has not been passed, no header is found cut off inside, and the octets that
an error counts are those that stand there. Whoever is told, an element that is read takes two
octets at least, so the octets left in the source bound the steps inside an element and the number
of elements. -/
theorem reading_lands (encoding : TagEncoding) (maxDepth : Nat) (source : Source)
    (calls : List Call) (visitor : Visitor σ) (state : σ) :
    let reader := follow (ofSource encoding maxDepth source) calls
    Lands reader ∧ Attends visitor reader state ((nextElement visitor).on (reader, state)) ∧
      (∀ header after state',
        (nextElement visitor).on (reader, state) = (.ok (some header), after, state') →
          after.offset = header.stop ∧ reader.offset + 2 ≤ after.offset ∧
            after.offset + after.remaining = reader.offset + reader.remaining) ∧
      (∃ more, (process visitor reader state).2.1 = follow reader more) ∧
      processWithin visitor (reader.remaining / 2 + 1) reader state =
        some (process visitor reader state) := by
  intro reader
  have fresh : WithinHand (ofSource encoding maxDepth source) := by
    rintro header ⟨⟩
  refine ⟨(fresh.follow calls).lands, attends visitor reader state, ?_,
    process_follows visitor reader state, ?_⟩
  · exact fun header after state' read => lands_of_nextElement read
  · exact processWithin_eq_process visitor reader state (by omega)

/-- A sequence with a null inside is read. In the string inside the next one the source fails, but
what is left of that sequence can be skipped. -/
theorem reading_lands_before_failure :
    let source : Source :=
      ⟨[.piece 0x30 [0x02, 0x05, 0x00, 0x30], .piece 0x04 [0x04, 0x02], .failure "lost",
        .piece 0x61 [0x62]], .exhausted⟩
    let reader := ofSource .singleOctet 8 source
    (∃ header after events, (nextElement Event.recorder).on (reader, #[]) =
        (.ok (some header), after, events) ∧ after.offset = 4 ∧ header.stop = 4) ∧
      let stuck := follow reader [.next Event.recorder #[], .next Event.recorder #[]]
      (∃ header, stuck.current = some header ∧ header.stop = 10 ∧ stuck.offset ≤ header.stop) ∧
        (skipCurrent.on stuck).1.toOption = some true ∧
          processWithin Event.recorder 6 reader #[] = some (process Event.recorder reader #[]) := by
  intro source reader
  obtain ⟨-, -, landed, -, rounds⟩ :=
    reading_lands .singleOctet 8 source [] Event.recorder #[]
  constructor
  · have whole : ((nextElement Event.recorder).on (reader, #[])).1.toOption =
        some (some ⟨.sequence, 2, 0, [0x30, 0x02]⟩) := by decide +kernel
    rcases read : (nextElement Event.recorder).on (reader, #[]) with
      ⟨error | header?, after, events⟩
    · rw [read] at whole
      cases whole
    · rw [read] at whole
      cases whole
      exact ⟨_, after, events, rfl, (landed _ _ _ read).1, rfl⟩
  · intro stuck
    have hand : stuck.current = some ⟨.sequence, 4, 4, [0x30, 0x04]⟩ := by decide +kernel
    have lands := (reading_lands .singleOctet 8 source
      [.next Event.recorder #[], .next Event.recorder #[]] Event.recorder #[]).1
    have half : reader.remaining / 2 + 1 = 6 := by decide
    exact ⟨⟨_, hand, rfl, (lands.at_hand _ hand).2⟩, by decide +kernel, half ▸ rounds⟩

end Reader

end BerRecords
