import BerRecords.Proofs.Reader.Acceptance
import BerRecords.Proofs.Source.Holding

/-!
# Octets taken and octets counted

A reader counts every octet of a header when it takes it, and never goes past the end
of the element around. Only a value at which the source fails is taken in part and not
counted.
-/

set_option autoImplicit false

namespace BerRecords.Reader

/-- From one state of a reader to a later one: of the octets taken in between all but
`lost` were counted. -/
structure Takes (lost : Nat) (before after : Reader) : Prop where
  taken : ∃ octets, before.source.held = octets ++ after.source.held ∧
    before.offset + octets.length = after.offset + lost
  offset_le : before.offset ≤ after.offset
  settings_eq : after.settings = before.settings
  faultless : before.source.Faultless → after.source.Faultless ∧ lost = 0

namespace Takes

variable {lost more : Nat} {first second third : Reader}

theorem refl (reader : Reader) : Takes 0 reader reader :=
  ⟨⟨[], rfl, rfl⟩, Nat.le_refl _, rfl, fun faultless => ⟨faultless, rfl⟩⟩

theorem trans (front : Takes lost first second) (back : Takes more second third) :
    Takes (lost + more) first third := by
  obtain ⟨octets, held, counted⟩ := front.taken
  obtain ⟨others, held', counted'⟩ := back.taken
  refine ⟨⟨octets ++ others, ?_, ?_⟩, Nat.le_trans front.offset_le back.offset_le,
    back.settings_eq.trans front.settings_eq, ?_⟩
  · rw [held, held', List.append_assoc]
  · rw [List.length_append]
    omega
  · intro faultless
    obtain ⟨faultless, rfl⟩ := front.faultless faultless
    obtain ⟨faultless, rfl⟩ := back.faultless faultless
    exact ⟨faultless, rfl⟩

end Takes

/-- All octets taken are counted, and the end of the element around is not passed. -/
structure Onward (parent : Option Header) (before after : Reader) : Prop where
  takes : Takes 0 before after
  within : Within parent before.offset → Within parent after.offset

def Stays {α : Type} (parent : Option Header) (reading : Reading α) : Prop :=
  ∀ reader, Onward parent reader (reading.on reader).2

variable {parent : Option Header}

theorem Onward.refl (reader : Reader) : Onward parent reader reader :=
  ⟨.refl reader, id⟩

theorem Onward.trans {first second third : Reader} (front : Onward parent first second)
    (back : Onward parent second third) : Onward parent first third :=
  ⟨front.takes.trans back.takes, back.within ∘ front.within⟩

namespace Stays

variable {α β : Type}

theorem pure (value : α) : Stays parent (Pure.pure value : Reading α) :=
  fun reader => .refl reader

theorem throw (error : DecodeError) : Stays parent (MonadExcept.throw error : Reading α) :=
  fun reader => .refl reader

theorem get : Stays parent (MonadState.get : Reading Reader) :=
  fun reader => .refl reader

theorem bind {first : Reading α} {rest : α → Reading β} (front : Stays parent first)
    (back : ∀ value, Stays parent (rest value)) : Stays parent (first >>= rest) := by
  intro reader
  have onward := front reader
  rw [Attempt.on_bind]
  rcases ran : first.on reader with ⟨error | value, after⟩
  · rw [ran] at onward
    exact onward
  · rw [ran] at onward
    exact onward.trans (back value after)

end Stays

private theorem onward_nextOctet? {reader : Reader} (inside : Within parent (reader.offset + 1)) :
    Onward parent reader (nextOctet?.on reader).2 := by
  have kept := Source.held_next reader.source
  have later : reader.source.Faultless → reader.source.next.rest.Faultless :=
    fun faultless => faultless.next.1
  cases next : reader.source.next with
  | octet octet rest =>
      rw [next] at kept later
      rw [nextOctet?_octet next]
      exact ⟨⟨⟨[octet], kept, rfl⟩, Nat.le_succ _, rfl, fun faultless => ⟨later faultless, rfl⟩⟩,
        fun _ => inside⟩
  | exhausted rest =>
      rw [next] at kept later
      rw [nextOctet?_exhausted next]
      exact ⟨⟨⟨[], kept, rfl⟩, Nat.le_refl _, rfl, fun faultless => ⟨later faultless, rfl⟩⟩, id⟩
  | failed reason rest =>
      rw [next] at kept later
      rw [nextOctet?_failed next]
      exact ⟨⟨⟨[], kept, rfl⟩, Nat.le_refl _, rfl, fun faultless => ⟨later faultless, rfl⟩⟩, id⟩

theorem stays_headerOctet? (start : Nat) (first : Bool) :
    Stays parent (headerOctet? parent start first) := by
  intro reader
  by_cases inside : Within parent (reader.offset + 1)
  · have asked := onward_nextOctet? inside
    rw [headerOctet?_of_within inside, unboundedOctet?, Attempt.on_bind]
    rcases ran : nextOctet?.on reader with ⟨error | octet?, after⟩
    · rw [ran] at asked
      exact asked
    · rw [ran] at asked
      refine asked.trans ?_
      cases octet? with
      | some octet => exact .refl _
      | none =>
          dsimp only
          split
          · exact .refl _
          · exact .refl _
  · cases parent with
    | none => exact absurd (within_none _) inside
    | some parent =>
        rw [within_some, Nat.not_le, Nat.lt_add_one_iff] at inside
        rw [headerOctet?_of_stop_le inside]
        exact .refl _

theorem stays_headerOctet (start : Nat) : Stays parent (headerOctet parent start) := by
  refine (stays_headerOctet? start false).bind fun octet? => ?_
  cases octet? with
  | some octet => exact .pure _
  | none => exact .throw _

theorem stays_readIdentifier (start : Nat) (pending : Identifier.Pending) :
    Stays parent (readIdentifier parent start pending) := by
  induction room : pending.room using Nat.strongRecOn generalizing pending with
  | ind _ ih =>
      rw [readIdentifier]
      refine (stays_headerOctet? start _).bind fun octet? => ?_
      cases octet? with
      | none => exact .pure _
      | some octet =>
          refine Stays.get.bind fun reader => ?_
          dsimp only
          split
          · exact .throw _
          · exact .pure _
          · rename_i later pushed
            exact (ih _ (room ▸ Identifier.Pending.room_push pushed) later rfl).bind
              fun _ => .pure _

theorem stays_headerOctets (start count : Nat) : Stays parent (headerOctets parent start count) := by
  induction count with
  | zero => exact .pure _
  | succ count ih => exact (stays_headerOctet start).bind fun _ => ih.bind fun _ => .pure _

theorem stays_readLength (start : Nat) : Stays parent (readLength parent start) := by
  refine (stays_headerOctet start).bind fun first => ?_
  dsimp only
  split
  · exact .pure _
  · split
    · exact .throw _
    · split
      · exact .throw _
      · exact (stays_headerOctets start _).bind fun _ => .pure _

theorem stays_readHeader : Stays parent (readHeader parent) := by
  refine Stays.get.bind fun reader => ?_
  refine (stays_readIdentifier reader.offset .fresh).bind fun found => ?_
  cases found with
  | none => exact .pure _
  | some found => exact (stays_readLength reader.offset).bind fun _ => .pure _

private theorem Onward.atHand {before after : Reader} (onward : Onward parent before after)
    (around : Option Header) (header : Header) :
    Onward parent before (Reader.atHand around header after) := by
  obtain ⟨⟨taken, offset_le, settings_eq, faultless⟩, within⟩ := onward
  cases around with
  | none => exact ⟨⟨taken, offset_le, settings_eq, faultless⟩, within⟩
  | some around => exact ⟨⟨taken, offset_le, settings_eq, faultless⟩, within⟩

theorem stays_openElement (depth : Nat) : Stays parent (openElement parent depth) := by
  intro reader
  have onward := @stays_readHeader parent reader
  rw [openElement_on]
  rcases read : (readHeader parent).on reader with ⟨error | none | header, after⟩
  · rw [read] at onward
    exact onward
  · rw [read] at onward
    exact onward
  · rw [read] at onward
    dsimp only
    split
    · exact onward.atHand _ _
    · exact onward.atHand _ _

/-- How many octets of a value are taken without being counted: those that come before
the source fails. -/
def cutValue (header : Header) (reader : Reader) : Nat :=
  match (reader.source.take header.length).halt with
  | .failed _ => (reader.source.take header.length).octets.length
  | _ => 0

theorem takes_readValue (header : Header) (reader : Reader) :
    Takes (cutValue header reader) reader ((readValue header).on reader).2 := by
  have kept := Source.held_take header.length reader.source
  have later : reader.source.Faultless → (reader.source.take header.length).rest.Faultless :=
    fun faultless => (faultless.take _).1
  have never : reader.source.Faultless →
      ∀ reason, (reader.source.take header.length).halt ≠ .failed reason :=
    fun faultless => (faultless.take _).2
  simp only [cutValue, Attempt.on, ExceptT.run, StateT.run, readValue]
  cases halt : (reader.source.take header.length).halt with
  | filled =>
      exact ⟨⟨_, kept, rfl⟩, Nat.le_add_right _ _, rfl, fun faultless => ⟨later faultless, rfl⟩⟩
  | exhausted =>
      exact ⟨⟨_, kept, rfl⟩, Nat.le_add_right _ _, rfl, fun faultless => ⟨later faultless, rfl⟩⟩
  | failed reason =>
      exact ⟨⟨_, kept, rfl⟩, Nat.le_refl _, rfl,
        fun faultless => absurd halt (never faultless reason)⟩

theorem readValue_offset_le (header : Header) (reader : Reader) :
    ((readValue header).on reader).2.offset ≤ reader.offset + header.length := by
  have bound := Source.length_take_le header.length reader.source
  simp only [Attempt.on, ExceptT.run, StateT.run, readValue]
  split
  · exact Nat.add_le_add_left bound _
  · exact Nat.add_le_add_left bound _
  · exact Nat.le_add_right _ _

/-- How many octets a step takes without counting them. -/
def uncounted (top : Open) (reader : Reader) : Nat :=
  if top.header.constructed || top.valueRead then 0 else cutValue top.header reader

theorem stays_stepInside {top : Open} (constructed : top.header.constructed = true)
    (outer : List Open) : Stays (some top.header) (step top outer) := by
  rw [step, if_pos constructed]
  refine Stays.get.bind fun reader => ?_
  split
  · refine (stays_openElement _).bind fun child? => ?_
    cases child? with
    | some child => exact .pure _
    | none => exact .throw _
  · split
    · exact .pure _
    · exact .throw _

/-- At the end of an element built of others or beyond it a step asks for nothing. -/
theorem step_beyond {top : Open} (constructed : top.header.constructed = true) {reader : Reader}
    (beyond : top.header.stop ≤ reader.offset) (outer : List Open) :
    ((step top outer).on reader).2 = reader := by
  simp only [step, constructed, ↓reduceIte, Attempt.on_bind, Attempt.on_get, Nat.not_lt.2 beyond]
  split
  · rfl
  · rfl

theorem step_value {top : Open} (primitive : top.header.constructed = false)
    (unread : top.valueRead = false) (outer : List Open) (reader : Reader) :
    ((step top outer).on reader).2 = ((readValue top.header).on reader).2 := by
  simp only [step, primitive, unread, Bool.false_eq_true, ↓reduceIte, Attempt.on_bind]
  rcases (readValue top.header).on reader with ⟨error | value, after⟩
  · rfl
  · rfl

theorem step_read {top : Open} (primitive : top.header.constructed = false)
    (valueRead : top.valueRead = true) (outer : List Open) (reader : Reader) :
    (step top outer).on reader = (.ok (.stop top.header.tag, outer), reader) := by
  simp [step, primitive, valueRead]

theorem takes_step (top : Open) (outer : List Open) (reader : Reader) :
    Takes (uncounted top reader) reader ((step top outer).on reader).2 := by
  rw [uncounted]
  cases constructed : top.header.constructed with
  | true => exact (stays_stepInside constructed outer reader).takes
  | false =>
      cases valueRead : top.valueRead with
      | true =>
          rw [step_read constructed valueRead]
          exact .refl _
      | false =>
          rw [step_value constructed valueRead]
          exact takes_readValue top.header reader

/-- A step that succeeds has counted what it took. -/
theorem uncounted_of_step {top : Open} {outer : List Open} {reader after : Reader}
    {given : Signal × List Open} (stepped : (step top outer).on reader = (.ok given, after)) :
    uncounted top reader = 0 := by
  rcases given with ⟨signal, stack⟩
  rw [uncounted]
  cases step_ok_iff.1 stepped with
  | start constructed => simp [constructed]
  | stopBranch constructed => simp [constructed]
  | stopLeaf constructed valueRead => simp [valueRead]
  | @value _ _ octets source primitive unread counted passes =>
      simp [primitive, unread, cutValue, ← counted, passes.take]

/-- How many octets are taken without being counted while a visitor is driven. Driving
ends where that happens. -/
def swallowed {σ : Type} (visitor : Visitor σ) (reader : Reader) (state : σ) : List Open → Nat
  | [] => 0
  | top :: outer =>
    match _stepped : (step top outer).on reader with
    | (.error _, _) => uncounted top reader
    | (.ok (signal, stack), after) =>
      match (visitor signal).on state with
      | (.error _, _) => 0
      | (.ok (), state) => swallowed visitor after state stack
termination_by stack => work reader stack
decreasing_by exact work_step _stepped

variable {σ : Type} (visitor : Visitor σ)

private theorem swallowed_cons (reader : Reader) (state : σ) (top : Open) (outer : List Open) :
    swallowed visitor reader state (top :: outer) =
      match (step top outer).on reader with
      | (.error _, _) => uncounted top reader
      | (.ok (signal, stack), after) =>
        match (visitor signal).on state with
        | (.error _, _) => 0
        | (.ok (), state) => swallowed visitor after state stack := by
  rw [swallowed]
  split
  · rename_i stuck
    exact stuck ▸ rfl
  · rename_i stepped
    exact stepped ▸ rfl

theorem takes_drive (reader : Reader) (state : σ) (stack : List Open) :
    Takes (swallowed visitor reader state stack) reader (drive visitor reader state stack).2.1 := by
  fun_induction drive visitor reader state stack with
  | case1 =>
      rw [swallowed]
      exact .refl _
  | case2 reader state top outer error after stuck =>
      have takes := takes_step top outer reader
      rw [stuck] at takes
      rw [swallowed_cons, stuck]
      exact takes
  | case3 reader state top outer signal stack after stepped error state' refused =>
      have takes := takes_step top outer reader
      rw [uncounted_of_step stepped, stepped] at takes
      rw [swallowed_cons, stepped]
      simp only [refused]
      exact takes
  | case4 reader state top outer signal stack after stepped state' accepted ih =>
      have takes := takes_step top outer reader
      rw [uncounted_of_step stepped, stepped] at takes
      rw [swallowed_cons, stepped]
      simp only [accepted]
      simpa using takes.trans ih

def uncountedElement (reader : Reader) (state : σ) : Nat :=
  match (openElement none 0).on reader.between with
  | (.ok (some header), opened) =>
    match (visitor (.start header)).on state with
    | (.ok (), state) => swallowed visitor opened state [⟨header, false⟩]
    | (.error _, _) => 0
  | _ => 0

private theorem takes_between (reader : Reader) : Takes 0 reader reader.between :=
  ⟨⟨[], rfl, rfl⟩, Nat.le_refl _, rfl, fun faultless => ⟨faultless, rfl⟩⟩

theorem takes_nextElement (reader : Reader) (state : σ) :
    Takes (uncountedElement visitor reader state) reader
      ((nextElement visitor).on (reader, state)).2.1 := by
  have opening : Takes 0 reader ((openElement none 0).on reader.between).2 :=
    (takes_between reader).trans (@stays_openElement none 0 reader.between).takes
  rw [nextElement_on, uncountedElement]
  generalize (openElement none 0).on reader.between = ran at opening ⊢
  rcases ran with ⟨error | none | header, opened⟩
  · exact opening
  · exact opening
  · dsimp only
    rcases (visitor (.start header)).on state with ⟨error | ⟨⟩, state'⟩
    · exact opening
    · have driving := opening.trans (takes_drive visitor opened state' [⟨header, false⟩])
      rw [Nat.zero_add] at driving
      dsimp only
      generalize drive visitor opened state' [⟨header, false⟩] = ran at driving ⊢
      rcases ran with ⟨error | ⟨⟩, after, state''⟩
      · exact driving
      · exact driving.trans (takes_between after)

theorem skipCurrent_idle {reader : Reader} (idle : reader.current = none) :
    skipCurrent.on reader = (.ok false, reader) := by
  simp [Attempt.on, ExceptT.run, StateT.run, skipCurrent, idle]

theorem skipCurrent_past {reader : Reader} {header : Header}
    (hand : reader.current = some header) (past : header.stop < reader.offset) :
    skipCurrent.on reader = (.ok false, reader.between) := by
  simp [Attempt.on, ExceptT.run, StateT.run, skipCurrent, hand, past, between]

/-- A reader that has not passed the end of the element at hand asks for the octets up to
there, and counts what it gets. -/
theorem skipCurrent_inside {reader : Reader} {header : Header}
    (hand : reader.current = some header) (inside : reader.offset ≤ header.stop) :
    let taken := reader.source.take (header.stop - reader.offset)
    skipCurrent.on reader =
      (match taken.halt with
        | .filled => .ok true
        | .exhausted => .ok false
        | .failed reason => .error (.source reason),
        (reader.advance taken.octets.length taken.rest).between) := by
  simp only [Attempt.on, ExceptT.run, StateT.run, skipCurrent, hand, Nat.not_lt.2 inside, ↓reduceIte]
  cases (reader.source.take (header.stop - reader.offset)).halt with
  | filled => rfl
  | exhausted => rfl
  | failed => rfl

theorem takes_skipCurrent (reader : Reader) : Takes 0 reader (skipCurrent.on reader).2 := by
  cases hand : reader.current with
  | none =>
      rw [skipCurrent_idle hand]
      exact .refl _
  | some header =>
      rcases Nat.lt_or_ge header.stop reader.offset with past | inside
      · rw [skipCurrent_past hand past]
        exact takes_between reader
      · rw [skipCurrent_inside hand inside]
        exact ⟨⟨_, Source.held_take _ _, rfl⟩, Nat.le_add_right _ _, rfl,
          fun faultless => ⟨(faultless.take _).1, rfl⟩⟩

end BerRecords.Reader
