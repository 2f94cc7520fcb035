import BerRecords.Proofs.Reader.Counting

/-!
# The top-level element at hand

A reader that fails with the header of a top-level element behind it stands inside that
element, however deep the failure was. So what is left of the element can be skipped.
-/

set_option autoImplicit false

namespace BerRecords.Reader

variable {stop : Nat} {σ : Type} {visitor : Visitor σ}

/-- The open elements end before `stop`, and only the innermost may be primitive. -/
def Contained (stop offset : Nat) : List Open → Prop
  | [] => True
  | top :: outer =>
    top.header.stop ≤ stop ∧
      (top.header.constructed = false → top.valueRead = false →
        offset + top.header.length ≤ stop) ∧
      ∀ element ∈ outer, element.header.stop ≤ stop ∧ element.header.constructed = true

theorem Contained.step {reader after : Reader} {stack rest : List Open} {signal : Signal}
    (step : Step reader stack signal after rest) (contained : Contained stop reader.offset stack) :
    Contained stop after.offset rest := by
  have close {top : Open} {outer : List Open} {offset : Nat}
      (contained : Contained stop offset (top :: outer)) : Contained stop offset outer := by
    cases outer with
    | nil => trivial
    | cons next outer =>
        obtain ⟨ends, constructed⟩ := contained.2.2 next (.head _)
        refine ⟨ends, fun primitive => ?_, fun element member => ?_⟩
        · simp [constructed] at primitive
        · exact contained.2.2 element (.tail _ member)
  cases step with
  | @start top outer heading source constructed within =>
      have ends := Nat.le_trans within contained.1
      refine ⟨ends, fun _ _ => ends, fun element member => ?_⟩
      rcases List.mem_cons.1 member with rfl | member
      · exact ⟨contained.1, constructed⟩
      · exact contained.2.2 element member
  | value => exact ⟨contained.1, fun _ unread => Bool.noConfusion unread, contained.2.2⟩
  | stopBranch => exact close contained
  | stopLeaf => exact close contained

private theorem step_within {top : Open} {outer : List Open} {reader : Reader}
    (contained : Contained stop reader.offset (top :: outer)) (before : reader.offset ≤ stop) :
    ((step top outer).on reader).2.offset ≤ stop := by
  cases constructed : top.header.constructed with
  | true =>
      rcases Nat.lt_or_ge reader.offset top.header.stop with inside | beyond
      · have within := (stays_stepInside constructed outer reader).within
          (within_some.2 (Nat.le_of_lt inside))
        exact Nat.le_trans (within_some.1 within) contained.1
      · rw [step_beyond constructed beyond outer]
        exact before
  | false =>
      cases valueRead : top.valueRead with
      | true =>
          rw [step_read constructed valueRead]
          exact before
      | false =>
          rw [step_value constructed valueRead]
          exact Nat.le_trans (readValue_offset_le _ _) (contained.2.1 constructed valueRead)

/-- However driving ends, the elements that were open are not left behind. -/
theorem drive_within (reader : Reader) (state : σ) (stack : List Open)
    (contained : Contained stop reader.offset stack) (before : reader.offset ≤ stop) :
    (drive visitor reader state stack).2.1.offset ≤ stop := by
  fun_induction drive visitor reader state stack with
  | case1 => exact before
  | case2 reader state top outer error after stuck =>
      have within := step_within contained before
      rwa [stuck] at within
  | case3 reader state top outer signal stack after stepped error state' refused =>
      have within := step_within contained before
      rwa [stepped] at within
  | case4 reader state top outer signal stack after stepped state' accepted ih =>
      have within := step_within contained before
      rw [stepped] at within
      exact ih (contained.step (step_ok_iff.1 stepped)) within

/-- A heading that stands ahead leaves its element at hand, whether the element may stand
there or not. -/
theorem opens_heading {reader : Reader} {heading : Heading reader.encoding} {source : Source}
    (passes : reader.source.Passes heading.octets source) (depth : Nat) :
    let header := heading.header reader.offset
    let opened := atHand none header (reader.between.advance heading.octets.length source)
    (openElement none depth).on reader.between = (.ok (some header), opened) ∨
      ∃ error, (openElement none depth).on reader.between = (.error error, opened) := by
  intro header opened
  have read := @readHeader_of_heading _ heading reader.between source rfl passes
  rw [openElement_on, read]
  dsimp only
  split
  · exact .inr ⟨_, rfl⟩
  · exact .inl rfl

private theorem Completes.ends {encoding : TagEncoding} {limit offset : Nat} {header : Header}
    {octets : Octets} (fresh : header.contentStart = offset)
    (completes : Completes encoding limit offset [⟨header, false⟩] octets) :
    offset + octets.length = header.stop := by
  cases completes with
  | branch _ _ _ ends completes =>
      cases completes
      rwa [List.append_nil]
  | unread _ _ counted completes =>
      cases completes
      rw [List.append_nil, counted, ← fresh]
      rfl
  | read _ valueRead => cases valueRead

/-- How reading the element of a header ends: it has been read, or the reader stands
inside it and has it at hand. -/
inductive Handled (header : Header) : Except DecodeError (Option Header) × Reader × σ → Prop where
  | read {after : Reader} {state : σ} : after.current = none → after.offset = header.stop →
      Handled header (.ok (some header), after, state)
  | stuck {error : DecodeError} {after : Reader} {state : σ} : after.current = some header →
      header.contentStart ≤ after.offset → after.offset ≤ header.stop →
      Handled header (.error error, after, state)

private theorem handled_drive (visitor : Visitor σ) {opened : Reader} {header : Header} (state : σ)
    (hand : opened.current = some header) (contents : header.contentStart = opened.offset) :
    Handled header
      (match drive visitor opened state [⟨header, false⟩] with
        | (.error error, after, state) => (.error error, after, state)
        | (.ok (), after, state) => (.ok (some header), after.between, state)) := by
  have ends : opened.offset + header.length = header.stop := contents ▸ rfl
  have later := drive_later visitor opened state [⟨header, false⟩]
  have led := driven visitor opened state [⟨header, false⟩]
  have onward := (takes_drive visitor opened state [⟨header, false⟩]).offset_le
  have inside := @drive_within header.stop _ visitor opened state
    [⟨header, false⟩] ⟨Nat.le_refl _, fun _ _ => Nat.le_of_eq ends, by simp⟩
    (ends ▸ Nat.le_add_right _ _)
  generalize drive visitor opened state [⟨header, false⟩] = ran at later led inside onward ⊢
  rcases ran with ⟨error | ⟨⟩, after, state'⟩
  · exact .stuck (later.current_eq.trans hand) (contents ▸ onward) inside
  · cases led with
    | finished steps =>
        obtain ⟨octets, completes, -, reached⟩ := steps.completes rfl
        exact .read rfl (reached ▸ completes.ends contents)

/-- Wherever the reading of an element fails, the reader stands inside that element. -/
theorem handled_nextElement (visitor : Visitor σ) {reader : Reader} (state : σ)
    {encoding : TagEncoding} (same : reader.encoding = encoding) {heading : Heading encoding}
    {source : Source} (passes : reader.source.Passes heading.octets source) :
    Handled (heading.header reader.offset) ((nextElement visitor).on (reader, state)) := by
  subst same
  have stuck : ∀ error (state' : σ), Handled (heading.header reader.offset) (.error error,
      atHand none (heading.header reader.offset)
        (reader.between.advance heading.octets.length source), state') :=
    fun _ _ => .stuck rfl (Nat.le_refl _) (Nat.le_add_right _ _)
  rw [nextElement_on]
  rcases opens_heading passes 0 with opened | ⟨error, opened⟩
  · rw [opened]
    dsimp only
    rcases (visitor (.start (heading.header reader.offset))).on state with ⟨error | ⟨⟩, state'⟩
    · exact stuck error state'
    · exact handled_drive visitor state' rfl rfl
  · rw [opened]
    exact stuck error state

theorem nextElement_ok_current {reader after : Reader} {state state' : σ} {header? : Option Header}
    (read : (nextElement visitor).on (reader, state) = (.ok header?, after, state')) :
    after.current = none := by
  cases header? with
  | none =>
      obtain ⟨-, source, -, rfl⟩ := exhausted_of_nextElement read
      rfl
  | some header =>
      obtain ⟨element, source, -, -, -, rfl⟩ := element_of_nextElement read
      rfl

theorem offset_of_nextElement {reader after : Reader} {state state' : σ} {header : Header}
    (read : (nextElement visitor).on (reader, state) = (.ok (some header), after, state')) :
    header.offset = reader.offset := by
  obtain ⟨element, source, -, -, passes, -⟩ := element_of_nextElement read
  rw [Element.octets_eq] at passes
  obtain ⟨middle, headed, -⟩ := passes.split
  have handled := handled_nextElement visitor state rfl headed
  rw [read] at handled
  cases handled with
  | read => rfl

/-- An element is at hand only where a heading stands ahead. -/
theorem heading_of_nextElement {reader after : Reader} {state state' : σ} {header : Header}
    {result : Except DecodeError (Option Header)}
    (read : (nextElement visitor).on (reader, state) = (result, after, state'))
    (hand : after.current = some header) :
    ∃ (heading : Heading reader.encoding) (source : Source),
      reader.source.Passes heading.octets source := by
  have later := (readHeader_advances none).1 reader.between
  rw [nextElement_on, openElement_on] at read
  rcases headed : (readHeader none).on reader.between with ⟨error | none | header, opened⟩
  · rw [headed] at later read
    cases read
    cases hand.symm.trans later.current_eq
  · rw [headed] at later read
    cases read
    cases hand.symm.trans later.current_eq
  · obtain ⟨heading, -, -, source, passes, -⟩ := readHeader_some_iff.1 headed
    exact ⟨heading, source, passes⟩

/-- Where no heading stands ahead no visitor is told anything. -/
theorem nextElement_headless {reader : Reader}
    (headless : ∀ (heading : Heading reader.encoding) source,
      ¬reader.source.Passes heading.octets source) :
    (∃ after, ∀ {σ : Type} (visitor : Visitor σ) (state : σ),
        (nextElement visitor).on (reader, state) = (.ok none, after, state)) ∨
      ∃ error after, after.current = none ∧ ∀ {σ : Type} (visitor : Visitor σ) (state : σ),
        (nextElement visitor).on (reader, state) = (.error error, after, state) := by
  have later := (readHeader_advances none).1 reader.between
  rcases headed : (readHeader none).on reader.between with ⟨error | none | header, after⟩
  · rw [headed] at later
    refine .inr ⟨error, after, later.current_eq, fun visitor state => ?_⟩
    rw [nextElement_on, openElement_on, headed]
  · refine .inl ⟨after, fun visitor state => ?_⟩
    rw [nextElement_on, openElement_on, headed]
  · obtain ⟨heading, -, -, source, passes, -⟩ := readHeader_some_iff.1 headed
    exact absurd passes (headless heading source)

def Headed (stop : Nat) (reader : Reader) : Prop :=
  ∃ (heading : Heading reader.encoding) (source : Source),
    reader.source.Passes heading.octets source ∧ (heading.header reader.offset).stop = stop

/-- Where a heading stands an element is read, to its end unless something fails. -/
theorem Headed.reads_element {reader : Reader} (headed : Headed stop reader)
    (visitor : Visitor σ) (state : σ) :
    (∃ error after state', (nextElement visitor).on (reader, state) = (.error error, after, state') ∧
        after.settings = reader.settings ∧ ∃ header, after.current = some header ∧
          header.stop = stop) ∨
      ∃ header after state', (nextElement visitor).on (reader, state) =
        (.ok (some header), after, state') ∧ after.settings = reader.settings ∧
          after.current = none ∧ after.offset = stop := by
  obtain ⟨heading, source, passes, ends⟩ := headed
  have handled := handled_nextElement visitor state rfl passes
  have kept := (takes_nextElement visitor reader state).settings_eq
  generalize (nextElement visitor).on (reader, state) = ran at handled kept
  cases handled with
  | read idle reached => exact .inr ⟨_, _, _, rfl, kept, idle, reached.trans ends⟩
  | stuck hand => exact .inl ⟨_, _, _, rfl, kept, _, hand, ends⟩

theorem skipCurrent_filled {reader : Reader} {header : Header} {octets : Octets} {source : Source}
    (hand : reader.current = some header) (ends : reader.offset + octets.length = header.stop)
    (passes : reader.source.Passes octets source) :
    skipCurrent.on reader = (.ok true, (reader.advance octets.length source).between) := by
  have count : header.stop - reader.offset = octets.length := by omega
  rw [skipCurrent_inside hand (ends ▸ Nat.le_add_right _ _), count, passes.take]

theorem skipCurrent_short {reader : Reader} {header : Header} {octets : Octets}
    (hand : reader.current = some header) (short : reader.offset + octets.length < header.stop)
    (delivers : reader.source.Delivers octets) :
    skipCurrent.on reader =
      (.ok false, (reader.advance octets.length ⟨[], .exhausted⟩).between) := by
  have count : octets.length < header.stop - reader.offset := by omega
  rw [skipCurrent_inside hand (by omega), delivers.take_short count]

end BerRecords.Reader
