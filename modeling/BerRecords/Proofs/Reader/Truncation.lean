import BerRecords.Proofs.Reader.Acceptance
import BerRecords.Proofs.Wire.Timed

/-!
# Truncated streams

Where a stream that a reader accepts is cut off, the reader says what it says of the whole stream as
far as the octets go. It notices the cut, at the offset of the cut, unless the cut is between two
top-level elements.
-/

set_option autoImplicit false

namespace BerRecords.Reader

open Element

section

variable {parent : Option Header} {start : Nat} {reader : Reader} {front back : Octets}

/-- A reading that finds no more octets says so at the place where it looked for one. -/
def EndsAt {α : Type} (position : Nat) (inside : Option Nat) (reading : Reading α)
    (reader : Reader) : Prop :=
  ∃ after, reading.on reader = (.error (.corrupt position inside "" .unexpectedEnd), after)

theorem EndsAt.bind {α β : Type} {position : Nat} {inside : Option Nat} {first : Reading α}
    {rest : α → Reading β} (ends : EndsAt position inside first reader) :
    EndsAt position inside (first >>= rest) reader := by
  obtain ⟨after, ends⟩ := ends
  exact ⟨after, by rw [Attempt.on_bind, ends]⟩

theorem EndsAt.later {α β : Type} {position : Nat} {inside : Option Nat} {first : Reading α}
    {rest : α → Reading β} {value : α} {middle : Reader}
    (ran : first.on reader = (.ok value, middle))
    (ends : EndsAt position inside (rest value) middle) :
    EndsAt position inside (first >>= rest) reader := by
  obtain ⟨after, ends⟩ := ends
  exact ⟨after, by rw [Attempt.on_bind, ran]; exact ends⟩

private theorem offset_cons (octet : UInt8) (rest : Octets) (middle : Source) :
    (reader.advance 1 middle).offset + rest.length = reader.offset + (octet :: rest).length := by
  simp only [advance_offset, List.length_cons, Nat.add_assoc, Nat.add_comm 1]

theorem headerOctet?_endsAt {first : Bool} (within : Within parent (reader.offset + 1))
    (ended : reader.source.Delivers []) (begun : first = true → parent ≠ none) :
    EndsAt reader.offset (parent.map (·.offset)) (headerOctet? parent start first) reader := by
  refine ⟨reader.advance 0 ⟨[], .exhausted⟩, ?_⟩
  have missed : ¬ (first && parent.isNone) = true := by
    rw [Bool.and_eq_true, Option.isNone_iff_eq_none]
    exact fun ⟨first, top⟩ => begun first top
  rw [headerOctet?_of_within within, unboundedOctet?, Attempt.on_bind,
    nextOctet?_exhausted ended.next_nil]
  simp [missed, Attempt.on_bind]

theorem headerOctet_endsAt (within : Within parent (reader.offset + 1))
    (ended : reader.source.Delivers []) :
    EndsAt reader.offset (parent.map (·.offset)) (headerOctet parent start) reader :=
  (@headerOctet?_endsAt parent start reader false within ended nofun).bind

/-- An identifier that breaks off is not read. Only at the top level may there be none. -/
theorem readIdentifier_endsAt {pending : Identifier.Pending} {tag : Tag}
    (completes : pending.Completes reader.encoding (front ++ back) tag) (cut : back ≠ [])
    (within : Within parent (reader.offset + (front ++ back).length))
    (delivers : reader.source.Delivers front)
    (begun : pending = .fresh → front = [] → parent ≠ none) :
    EndsAt (reader.offset + front.length) (parent.map (·.offset))
      (readIdentifier parent start pending) reader := by
  induction front generalizing pending reader with
  | nil =>
      have room : reader.offset + 1 ≤ reader.offset + back.length :=
        Nat.add_le_add_left (List.length_pos_iff.2 cut) _
      rw [readIdentifier]
      exact (headerOctet?_endsAt (within.mono room) delivers
        fun fresh => begun (of_decide_eq_true fresh) rfl).bind
  | cons octet front ih =>
      obtain ⟨middle, next, delivers⟩ := delivers.next_cons
      have found : (headerOctet? parent start (pending = .fresh)).on reader =
          (.ok (some octet), reader.advance 1 middle) :=
        headerOctet?_some_iff.2 ⟨within.first, middle, next, rfl⟩
      simp only [List.cons_append, Identifier.Pending.Completes] at completes
      rw [EndsAt, readIdentifier_of_octet found]
      cases pushed : pending.push reader.encoding octet with
      | error fault => simp [pushed] at completes
      | ok progress =>
          cases progress with
          | complete whole =>
              simp only [pushed] at completes
              exact absurd (List.append_eq_nil_iff.1 completes.2).2 cut
          | more later =>
              simp only [pushed] at completes
              have unfresh : later ≠ .fresh :=
                fun fresh => Identifier.Pending.push_ne_fresh (fresh ▸ pushed)
              obtain ⟨after, ends⟩ := @ih (reader.advance 1 middle) later completes
                (within_cons.1 within) delivers fun fresh => absurd fresh unfresh
              rw [offset_cons octet] at ends
              refine ⟨after, ?_⟩
              simp only [advance_encoding, pushed, ends]

theorem headerOctets_endsAt {count : Nat} (short : front.length < count)
    (within : Within parent (reader.offset + count)) (delivers : reader.source.Delivers front) :
    EndsAt (reader.offset + front.length) (parent.map (·.offset))
      (headerOctets parent start count) reader := by
  induction count generalizing reader front with
  | zero => cases short
  | succ count ih =>
      rw [headerOctets]
      have inside : Within parent (reader.offset + 1) := within.mono (by omega)
      cases front with
      | nil => exact (headerOctet_endsAt inside delivers).bind
      | cons octet front =>
          obtain ⟨middle, next, delivers⟩ := delivers.next_cons
          have found : (headerOctet parent start).on reader =
              (.ok octet, reader.advance 1 middle) :=
            headerOctet_ok_iff.2 ⟨inside, middle, next, rfl⟩
          have ends := @ih (reader.advance 1 middle) front (Nat.lt_of_succ_lt_succ short)
            (by simpa [Nat.add_assoc, Nat.add_comm 1] using within) delivers
          rw [offset_cons octet] at ends
          exact .later found ends.bind

/-- A length that breaks off is not read. -/
theorem readLength_endsAt {length : Nat} (spells : Length.Spells (front ++ back) length)
    (cut : back ≠ []) (within : Within parent (reader.offset + (front ++ back).length))
    (delivers : reader.source.Delivers front) :
    EndsAt (reader.offset + front.length) (parent.map (·.offset))
      (readLength parent start) reader := by
  rw [readLength]
  cases front with
  | nil =>
      have room : reader.offset + 1 ≤ reader.offset + back.length :=
        Nat.add_le_add_left (List.length_pos_iff.2 cut) _
      exact (headerOctet_endsAt (within.mono room) delivers).bind
  | cons first number =>
      obtain ⟨middle, next, delivers⟩ := delivers.next_cons
      have found : (headerOctet parent start).on reader = (.ok first, reader.advance 1 middle) :=
        headerOctet_ok_iff.2 ⟨within.first, middle, next, rfl⟩
      rw [List.cons_append] at spells
      generalize split : first :: (number ++ back) = octets at spells
      cases spells with
      | short small =>
          cases number with
          | nil => exact absurd (List.cons.inj split).2 cut
          | cons second rest => cases split
      | @long _ whole counted some_octets few =>
          obtain ⟨rfl, rfl⟩ := List.cons.inj split
          have bound := first.toNat_lt
          have count : first.toNat % 128 = (number ++ back).length := by omega
          have short : ¬ first.toNat < 128 := by omega
          have indefinite : (number ++ back).length ≠ 0 := by omega
          have shorter : number.length < (number ++ back).length := by
            rw [List.length_append]
            exact Nat.lt_add_of_pos_right (List.length_pos_iff.2 cut)
          have ends := @headerOctets_endsAt parent start (reader.advance 1 middle)
            number _ shorter (within_cons.1 within) delivers
          rw [offset_cons first] at ends
          refine .later found ?_
          dsimp only
          rw [if_neg short, count, if_neg indefinite, if_neg (Nat.not_lt.2 few)]
          exact ends.bind

/-- Where a text of two parts is cut, the cut is behind the first part or inside it. -/
private theorem split_cases {first second : Octets} (split : first ++ second = front ++ back) :
    (∃ more, front = first ++ more ∧ second = more ++ back) ∨
      ∃ more, more ≠ [] ∧ first = front ++ more ∧ back = more ++ second := by
  rcases List.append_eq_append_iff.1 split with ⟨more, rfl, rfl⟩ | ⟨more, rfl, rfl⟩
  · exact .inl ⟨more, rfl, rfl⟩
  · cases more with
    | nil => exact .inl ⟨[], by simp, by simp⟩
    | cons octet rest => exact .inr ⟨octet :: rest, List.cons_ne_nil _ _, rfl, rfl⟩

/-- A heading that breaks off is not read. Only at the top level may there be none. -/
theorem readHeader_endsAt {heading : Heading reader.encoding}
    (split : heading.octets = front ++ back) (cut : back ≠ [])
    (within : Within parent (heading.header reader.offset).contentStart)
    (delivers : reader.source.Delivers front) (begun : front = [] → parent ≠ none) :
    EndsAt (reader.offset + front.length) (parent.map (·.offset)) (readHeader parent) reader := by
  have within : Within parent
      (reader.offset + (heading.identifier.length + heading.lengthOctets.length)) := by
    simpa [Header.contentStart, Header.size, Heading.header, Heading.octets] using within
  refine .later (Attempt.on_get reader) ?_
  rcases split_cases split with ⟨more, rfl, halved⟩ | ⟨more, some_octets, halved, -⟩
  · obtain ⟨middle, passes, delivers⟩ := delivers.split
    have identified := (@readIdentifier_fresh_iff parent reader.offset reader _ _ _).2
      ⟨heading.identifier_spells, within.mono (by omega), middle, passes, rfl⟩
    have spells := heading.length_spells
    rw [halved] at spells within
    have ends := @readLength_endsAt parent reader.offset
      (reader.advance heading.identifier.length middle) more back _ spells cut
      (by simpa [Nat.add_assoc] using within) delivers
    rw [advance_offset, Nat.add_assoc, ← List.length_append] at ends
    exact .later identified ends.bind
  · have completes := (Identifier.completes_fresh_iff _ _).2 heading.identifier_spells
    rw [halved] at completes within
    exact (readIdentifier_endsAt completes some_octets (within.mono (by omega)) delivers
      fun _ => begun).bind

theorem openElement_endsAt {heading : Heading reader.encoding} {depth : Nat}
    (split : heading.octets = front ++ back) (cut : back ≠ [])
    (within : Within parent (heading.header reader.offset).contentStart)
    (delivers : reader.source.Delivers front) (begun : front = [] → parent ≠ none) :
    EndsAt (reader.offset + front.length) (parent.map (·.offset)) (openElement parent depth)
      reader := by
  obtain ⟨after, ends⟩ := readHeader_endsAt split cut within delivers begun
  exact ⟨after, by rw [openElement_on, ends]⟩

end

/-- After steps that give these signals the reader misses octets at a position. -/
inductive BreaksOff (position : Nat) (reader : Reader) (stack : List Open)
    (signals : List Signal) : Prop where
  | intro {middle after : Reader} {top : Open} {outer : List Open} {inside : Option Nat}
      {cause : Corruption} :
      Steps reader stack signals middle (top :: outer) →
      (step top outer).on middle = (.error (.corrupt position inside "" cause), after) →
      BreaksOff position reader stack signals

theorem BreaksOff.after {position : Nat} {reader middle : Reader} {stack between : List Open}
    {first second : List Signal} (steps : Steps reader stack first middle between)
    (breaks : BreaksOff position middle between second) :
    BreaksOff position reader stack (first ++ second) := by
  obtain ⟨later, stuck⟩ := breaks
  exact ⟨steps.trans later, stuck⟩

variable {encoding : TagEncoding}

/-- A value that breaks off leaves the reader where the source ended. -/
theorem breaksOff_value {reader : Reader} {top : Open} {outer : List Open} {front : Octets}
    (primitive : top.header.constructed = false) (unread : top.valueRead = false)
    (short : front.length < top.header.length) (delivers : reader.source.Delivers front) :
    BreaksOff (reader.offset + front.length) reader (top :: outer) [] := by
  have missed : (readValue top.header).on reader =
      (.error (.corrupt (reader.offset + front.length) top.header.offset "" <|
        .valueCut top.header.length top.header.tag front.length),
        reader.advance front.length ⟨[], .exhausted⟩) := by
    simp only [Attempt.on, ExceptT.run, StateT.run, readValue, delivers.take_short short]
    rfl
  have stuck : (step top outer).on reader =
      (.error (.corrupt (reader.offset + front.length) top.header.offset "" <|
        .valueCut top.header.length top.header.tag front.length),
        reader.advance front.length ⟨[], .exhausted⟩) := by
    rw [step]
    simp only [primitive, unread, Bool.false_eq_true, ↓reduceIte, Attempt.on_bind, missed]
  exact .intro .refl stuck

/-- A heading that breaks off inside an element stops the reader. -/
theorem breaksOff_heading {reader : Reader} {top : Open} {outer : List Open}
    {heading : Heading encoding} {front back : Octets} (same : reader.encoding = encoding)
    (constructed : top.header.constructed = true)
    (within : (heading.header reader.offset).contentStart ≤ top.header.stop)
    (split : heading.octets = front ++ back) (cut : back ≠ [])
    (delivers : reader.source.Delivers front) :
    BreaksOff (reader.offset + front.length) reader (top :: outer) [] := by
  subst same
  have some_octets := List.length_pos_iff.2 heading.octets_ne_nil
  have inside : reader.offset < top.header.stop := by
    simp only [Header.contentStart, Header.size, Heading.header] at within
    omega
  obtain ⟨after, ends⟩ := @openElement_endsAt (some top.header) reader front back heading
    (outer.length + 1) split cut (within_some.2 within) delivers (by simp)
  have stuck : (step top outer).on reader =
      (.error (.corrupt (reader.offset + front.length) top.header.offset "" .unexpectedEnd),
        after) := by
    rw [step]
    simp only [constructed, inside, ↓reduceIte, Attempt.on_bind, Attempt.on_get, ends]
    rfl
  exact .intro .refl stuck

/-- An element inside an open one is read to its end. -/
theorem steps_element (element : Element encoding) (reader : Reader) (top : Open)
    (outer : List Open) {source : Source} (same : reader.encoding = encoding)
    (constructed : top.header.constructed = true) (wellFormed : element.WellFormed)
    (shallow : outer.length + 1 + element.height ≤ reader.maxDepth)
    (within : reader.offset + element.octets.length ≤ top.header.stop)
    (passes : reader.source.Passes element.octets source) :
    Steps reader (top :: outer) (element.signals reader.offset)
      (reader.advance element.octets.length source) (top :: outer) := by
  have read := @steps_all _ [element] reader top outer source same constructed
    (by simpa [WellFormedAll] using wellFormed) (by simpa [heightAll] using shallow)
    (by simpa [octetsAll] using within) (by simpa [octetsAll] using passes)
  simpa [signalsAll, octetsAll] using read

mutual

/-- An element that breaks off in its content is read as far as the content goes. -/
theorem breaksOff_inside (element : Element encoding) (reader : Reader) (outer : List Open)
    {offset : Nat} {front back : Octets} (same : reader.encoding = encoding)
    (wellFormed : element.WellFormed)
    (shallow : outer.length + element.height ≤ reader.maxDepth)
    (stands : reader.offset = offset + element.heading.octets.length)
    (split : element.content = front ++ back) (cut : back ≠ [])
    (delivers : reader.source.Delivers front) :
    BreaksOff (reader.offset + front.length) reader
      (⟨element.heading.header offset, false⟩ :: outer)
      (saidBy (reader.offset + front.length) (element.timedBody offset)) := by
  match element with
  | .leaf heading value =>
      rw [WellFormed] at wellFormed
      rw [content] at split
      have shorter : front.length < value.length := by
        rw [split, List.length_append]
        exact Nat.lt_add_of_pos_right (List.length_pos_iff.2 cut)
      rw [saidBy_of_lt]
      · exact breaksOff_value wellFormed.1 rfl (Nat.lt_of_lt_of_eq shorter wellFormed.2) delivers
      · rw [stands]
        simpa [timedBody, Element.heading] using shorter
  | .branch heading children =>
      rw [WellFormed] at wellFormed
      rw [height] at shallow
      have ends : reader.offset + (octetsAll children).length = (heading.header offset).stop := by
        rw [wellFormed.2.1, stands]
        rfl
      have inner := breaksOff_all children reader ⟨heading.header offset, false⟩ outer same
        wellFormed.1 wellFormed.2.2 (by omega) (Nat.le_of_eq ends) split cut delivers
      rw [stands] at inner ⊢
      exact inner

/-- Elements inside an open one are read as far as the octets go. -/
theorem breaksOff_all (elements : List (Element encoding)) (reader : Reader) (top : Open)
    (outer : List Open) {front back : Octets} (same : reader.encoding = encoding)
    (constructed : top.header.constructed = true) (wellFormed : WellFormedAll elements)
    (shallow : outer.length + 1 + heightAll elements ≤ reader.maxDepth)
    (within : reader.offset + (octetsAll elements).length ≤ top.header.stop)
    (split : octetsAll elements = front ++ back) (cut : back ≠ [])
    (delivers : reader.source.Delivers front) :
    BreaksOff (reader.offset + front.length) reader (top :: outer)
      (saidBy (reader.offset + front.length) (timedAll reader.offset elements)) := by
  match elements with
  | [] =>
      rw [octetsAll] at split
      exact absurd (List.append_eq_nil_iff.1 split.symm).2 cut
  | element :: rest =>
      rw [WellFormedAll] at wellFormed
      rw [heightAll] at shallow
      rw [octetsAll, List.length_append] at within
      rw [octetsAll] at split
      rw [timedAll, saidBy_append]
      rcases split_cases split with ⟨more, rfl, others⟩ | ⟨more, some_octets, own, -⟩
      · obtain ⟨middle, passes, delivers⟩ := delivers.split
        have whole := steps_element element reader top outer same constructed wellFormed.1
          (by omega) (by omega) passes
        have inner := breaksOff_all rest (reader.advance element.octets.length middle) top outer
          same constructed wellFormed.2 (by simp only [advance_maxDepth]; omega)
          (by simp only [advance_offset]; omega) others cut delivers
        rw [saidBy_of_wholly (by rw [List.length_append]; omega), List.length_append,
          ← Nat.add_assoc]
        exact inner.after whole
      · have length : element.octets.length = front.length + more.length := by
          rw [own, List.length_append]
        have some_more := List.length_pos_iff.2 some_octets
        rw [saidBy_of_later (by omega), List.append_nil]
        have ends : (element.heading.header reader.offset).stop =
            reader.offset + element.octets.length := wellFormed.1.stop_eq
        rw [octets_eq] at own
        rcases split_cases own with ⟨inner, rfl, contents⟩ | ⟨inner, some_octets', headed, -⟩
        · obtain ⟨opened, passes, delivers⟩ := delivers.split
          have positive := element.height_pos
          have opening : Step reader (top :: outer)
              (.start (element.heading.header reader.offset))
              (reader.advance element.heading.octets.length opened)
              (⟨element.heading.header reader.offset, false⟩ :: top :: outer) := by
            subst same
            exact .start constructed (by omega) (by omega) passes
          have deeper : (top :: outer).length + element.height ≤ reader.maxDepth := by
            simp only [List.length_cons]
            omega
          have breaks := breaksOff_inside element (reader.advance _ opened) (top :: outer) same
            wellFormed.1 deeper rfl contents some_octets delivers
          rw [advance_offset, Nat.add_assoc, ← List.length_append] at breaks
          rw [saidBy_timed (by rw [List.length_append]; omega) (by omega)]
          exact breaks.after (.single opening)
        · have headed_length : element.heading.octets.length = front.length + inner.length := by
            rw [headed, List.length_append]
          have some_inner := List.length_pos_iff.2 some_octets'
          rw [saidBy_of_unbegun (by omega)]
          have fits : (element.heading.header reader.offset).stop ≤ top.header.stop := by omega
          exact breaksOff_heading same constructed (Nat.le_trans (Nat.le_add_right _ _) fits)
            headed some_octets' delivers

end

/-! ## Whole streams -/

/-- The octets of the first few elements are so many. -/
def Boundary (elements : List (Element encoding)) (count : Nat) : Prop :=
  ∃ done rest, elements = done ++ rest ∧ (octetsAll done).length = count

theorem boundary_zero (elements : List (Element encoding)) : Boundary elements 0 :=
  ⟨[], elements, rfl, rfl⟩

theorem boundary_cons_add {element : Element encoding} {rest : List (Element encoding)}
    {count : Nat} :
    Boundary (element :: rest) (element.octets.length + count) ↔ Boundary rest count := by
  have some_octets := element.length_octets_pos
  constructor
  · rintro ⟨done, others, split, counted⟩
    cases done with
    | nil =>
        simp only [octetsAll, List.length_nil] at counted
        omega
    | cons first done =>
        obtain ⟨rfl, rfl⟩ := List.cons.inj split
        rw [octetsAll, List.length_append] at counted
        exact ⟨done, others, rfl, by omega⟩
  · rintro ⟨done, others, rfl, rfl⟩
    exact ⟨element :: done, others, rfl, by rw [octetsAll, List.length_append]⟩

theorem not_boundary_of_inside {element : Element encoding} {rest : List (Element encoding)}
    {count : Nat} (begun : 0 < count) (unfinished : count < element.octets.length) :
    ¬ Boundary (element :: rest) count := by
  rintro ⟨done, others, split, counted⟩
  cases done with
  | nil =>
      simp only [octetsAll, List.length_nil] at counted
      omega
  | cons first done =>
      obtain ⟨rfl, rfl⟩ := List.cons.inj split
      rw [octetsAll, List.length_append] at counted
      omega

variable {σ : Type} {visitor : Visitor σ} {state state' : σ}

theorem drive_of_breaksOff {position : Nat} {reader : Reader} {stack : List Open}
    {signals : List Signal} (breaks : BreaksOff position reader stack signals)
    (told : (visitor.tell signals).on state = (.ok (), state')) :
    ∃ inside cause after, drive visitor reader state stack =
      (.error (.corrupt position inside "" cause), after, state') := by
  obtain ⟨steps, stuck⟩ := breaks
  exact ⟨_, _, _, by rw [drive_of_steps steps told, drive_cons, stuck]⟩

/-- A top-level element that breaks off behind its first octet is told as far as its octets go. -/
theorem nextElement_of_breaksOff {element : Element encoding} {reader : Reader}
    {front back : Octets} (same : reader.encoding = encoding) (wellFormed : element.WellFormed)
    (shallow : element.height ≤ reader.maxDepth) (split : element.octets = front ++ back)
    (begun : front ≠ []) (cut : back ≠ []) (delivers : reader.source.Delivers front)
    (told : (visitor.tell (saidBy (reader.offset + front.length)
      (element.timed reader.offset))).on state = (.ok (), state')) :
    ∃ inside cause after, (nextElement visitor).on (reader, state) =
      (.error (.corrupt (reader.offset + front.length) inside "" cause), after, state') := by
  have length : element.octets.length = front.length + back.length := by
    rw [split, List.length_append]
  have some_more := List.length_pos_iff.2 cut
  rw [octets_eq] at split
  rcases split_cases split with ⟨more, rfl, contents⟩ | ⟨more, some_octets, headed, -⟩
  · obtain ⟨middle, passes, delivers⟩ := delivers.split
    let opened : Reader := { reader.advance element.heading.octets.length middle with
      current := some (element.heading.header reader.offset) }
    have opens : (openElement none 0).on reader.between =
        (.ok (some (element.heading.header reader.offset)), opened) := by
      subst same
      exact openElement_some_iff.2 ⟨element.heading, rfl, within_none _,
        Nat.lt_of_lt_of_le element.height_pos shallow, middle, passes, rfl⟩
    have breaks := breaksOff_inside element opened [] same wellFormed
      (by simpa [opened] using shallow) rfl contents cut delivers
    have position : opened.offset + more.length =
        reader.offset + (element.heading.octets ++ more).length := by
      simp [opened, Nat.add_assoc]
    rw [position] at breaks
    rw [saidBy_timed (by rw [List.length_append]; omega) (by omega), Visitor.tell_cons] at told
    rw [nextElement_on, opens]
    rcases started : (visitor (.start (element.heading.header reader.offset))).on state with
      ⟨error | ⟨⟩, before⟩
    · simp [started] at told
    · simp only [started] at told
      obtain ⟨inside, cause, after, driven⟩ := drive_of_breaksOff breaks told
      exact ⟨inside, cause, after, by simp only [started, driven]⟩
  · have headed_length : element.heading.octets.length = front.length + more.length := by
      rw [headed, List.length_append]
    have some_octets := List.length_pos_iff.2 some_octets
    rw [saidBy_of_unbegun (by omega)] at told
    cases told
    subst same
    obtain ⟨after, ends⟩ := @openElement_endsAt none reader.between front more element.heading 0
      headed (List.length_pos_iff.1 some_octets) (within_none _) delivers
      fun empty => absurd empty begun
    exact ⟨none, .unexpectedEnd, after, by rw [nextElement_on, ends]; rfl⟩

/-- A cut stream is read to its end if the cut is between two elements. Otherwise reading stops at
the cut. -/
theorem process_of_cut (elements : List (Element encoding)) (reader : Reader) (state : σ)
    {front back : Octets} (same : reader.encoding = encoding)
    (parses : Parses reader.maxDepth (front ++ back) elements)
    (delivers : reader.source.Delivers front)
    (told : (visitor.tell (saidBy (reader.offset + front.length)
      (timedAll reader.offset elements))).on state = (.ok (), state')) :
    ∃ after,
      (Boundary elements front.length ∧ process visitor reader state = (.ok (), after, state')) ∨
        ¬ Boundary elements front.length ∧ ∃ inside cause, process visitor reader state =
          (.error (.corrupt (reader.offset + front.length) inside "" cause), after, state') := by
  obtain ⟨wellFormed, shallow, split⟩ := parses
  induction elements generalizing reader state front with
  | nil =>
      obtain ⟨rfl, -⟩ := List.append_eq_nil_iff.1 split.symm
      cases told
      exact ⟨_, .inl ⟨boundary_zero _, by
        rw [process_on, nextElement_of_exhausted visitor _ delivers.next_nil]⟩⟩
  | cons element rest ih =>
      rw [WellFormedAll] at wellFormed
      rw [heightAll] at shallow
      rw [octetsAll] at split
      rw [timedAll, saidBy_append] at told
      rw [process_on]
      rcases split_cases split with ⟨more, rfl, others⟩ | ⟨more, some_octets, own, -⟩
      · obtain ⟨source, passes, later⟩ := delivers.split
        rw [saidBy_of_wholly (by rw [List.length_append]; omega), Visitor.tell_append,
          Attempt.on_bind] at told
        have first := nextElement_of_element visitor element reader state same wellFormed.1
          (by omega) passes
        rcases accepted : (visitor.tell (element.signals reader.offset)).on state with
          ⟨error | ⟨⟩, before⟩
        · simp [accepted] at told
        · simp only [accepted] at first told
          rw [List.length_append, ← Nat.add_assoc] at told ⊢
          simp only [first]
          rw [boundary_cons_add]
          exact ih (reader.advance element.octets.length source).between before same later told
            wellFormed.2 (by simp only [between, advance_maxDepth]; omega) others
      · have length : element.octets.length = front.length + more.length := by
          rw [own, List.length_append]
        rw [saidBy_of_later (by omega), List.append_nil] at told
        have some_more := List.length_pos_iff.2 some_octets
        cases front with
        | nil =>
            have some_octets := List.length_pos_iff.2 element.heading.octets_ne_nil
            rw [saidBy_of_unbegun (by simpa using some_octets)] at told
            cases told
            exact ⟨_, .inl ⟨boundary_zero _, by
              rw [nextElement_of_exhausted visitor _ delivers.next_nil]⟩⟩
        | cons octet front =>
            obtain ⟨inside, cause, after, stopped⟩ := nextElement_of_breaksOff same wellFormed.1
              (by omega) own (List.cons_ne_nil _ _) some_octets delivers told
            refine ⟨after, .inr ⟨not_boundary_of_inside ?_ (by omega), inside, cause, ?_⟩⟩
            · exact Nat.succ_pos _
            · rw [stopped]

end BerRecords.Reader

namespace BerRecords.Event

open Element

/-- A stream that is recorded to its end is cut off. It is recorded to its end again exactly if the
cut is between two top-level elements, and its structure is broken at the cut otherwise. Either way
the events are those whose octets end at or before the cut. -/
theorem recorded_of_cut {source cut : Source} {octets : Octets} {count : Nat}
    (encoding : TagEncoding) (maxDepth : Nat) (delivers : source.Delivers octets)
    (within : count ≤ octets.length) (short : cut.Delivers (octets.take count))
    (accepted : ((Reader.ofSource encoding maxDepth source).process recorder #[]).1 = .ok ()) :
    let whole := (Reader.ofSource encoding maxDepth source).process recorder #[]
    let ran := (Reader.ofSource encoding maxDepth cut).process recorder #[]
    ∃ elements : List (Element encoding), Parses maxDepth octets elements ∧
      (ran.1 = .ok () ↔ Reader.Boundary elements count) ∧
      (¬ Reader.Boundary elements count →
        ∃ inside cause, ran.1 = .error (.corrupt count inside "" cause)) ∧
      whole.2.2.toList = (timedAll 0 elements).map (·.2.event) ∧
      ran.2.2.toList = ((timedAll 0 elements).filter (·.1 ≤ count)).map (·.2.event) ∧
      ran.2.2.toList <+: whole.2.2.toList := by
  intro whole ran
  obtain ⟨elements, parses⟩ : ∃ elements : List (Element encoding),
      Parses maxDepth octets elements :=
    Reader.parses_of_process recorder (Reader.ofSource encoding maxDepth source) #[] delivers
      accepted
  obtain ⟨after, ended, -⟩ := recorded_of_parses delivers parses
  have events : whole.2.2.toList = (timedAll 0 elements).map (·.2.event) := by
    have signals := map_timedAll 0 elements
    simp only [whole, ended, ← signals, List.map_map]
    rfl
  have counted : (octets.take count).length = count := List.length_take_of_le within
  have said (position : Nat) : (saidBy position (timedAll 0 elements)).map Signal.event =
      ((timedAll 0 elements).filter (·.1 ≤ position)).map (·.2.event) := by
    rw [saidBy, List.map_map]
    rfl
  have beginning : (saidBy count (timedAll 0 elements)).map Signal.event <+: whole.2.2.toList := by
    obtain ⟨rest, whole_signals⟩ := @saidBy_begins count _ (timedAll_sorted 0 elements)
    refine ⟨rest.map Signal.event, ?_⟩
    rw [← List.map_append, whole_signals, List.map_map, events]
    rfl
  obtain ⟨after', outcome⟩ := Reader.process_of_cut elements
    (Reader.ofSource encoding maxDepth cut) #[] rfl
    ((List.take_append_drop count octets).symm ▸ parses) short (tell_recorder _ _)
  have start : (Reader.ofSource encoding maxDepth cut).offset = 0 := rfl
  rw [counted, start, Nat.zero_add] at outcome
  have told : ran.2.2.toList = (saidBy count (timedAll 0 elements)).map Signal.event := by
    rcases outcome with ⟨-, read⟩ | ⟨-, _, _, broken⟩
    · simp only [ran, read, Array.empty_append]
    · simp only [ran, broken, Array.empty_append]
  refine ⟨elements, parses, ?_, ?_, events, told.trans (said count), told ▸ beginning⟩
  · rcases outcome with ⟨between, read⟩ | ⟨inside, _, _, broken⟩
    · exact ⟨fun _ => between, fun _ => congrArg Prod.fst read⟩
    · refine ⟨fun finished => ?_, fun between => absurd between inside⟩
      simp [ran, broken] at finished
  · intro inside
    obtain ⟨element, cause, broken⟩ := (outcome.resolve_left fun read => inside read.1).2
    exact ⟨element, cause, congrArg Prod.fst broken⟩

/-- A sequence of one integer and a null, cut off before the content of the integer. -/
theorem recorded_of_cut_in_integer :
    let octets : Octets := [0x30, 0x03, 0x02, 0x01, 0x05, 0x05, 0x00]
    let whole := (Reader.ofSource .singleOctet 2 (.ofOctets octets)).process recorder #[]
    let ran := (Reader.ofSource .singleOctet 2 (.ofOctets (octets.take 4))).process recorder #[]
    whole.1 = .ok () ∧ 4 ≤ octets.length ∧
      (∃ inside cause, ran.1 = .error (.corrupt 4 inside "" cause)) ∧
      ran.2.2.toList = [.start .sequence 3 true 0, .start .integer 1 false 2] := by
  intro octets whole ran
  let elements : List (Element .singleOctet) :=
    [.branch (.short 0x30 0x03 (by decide) (by decide))
      [.leaf (.short 0x02 0x01 (by decide) (by decide)) [0x05]],
      .leaf (.short 0x05 0x00 (by decide) (by decide)) []]
  have parses : Parses 2 octets elements := by
    refine ⟨?_, ?_, rfl⟩
    · simp only [elements, WellFormedAll, WellFormed]
      decide
    · simp [elements, heightAll, height]
  obtain ⟨after, ended, -⟩ := recorded_of_parses (Source.delivers_ofOctets octets) parses
  have accepted : whole.1 = .ok () := congrArg Prod.fst ended
  obtain ⟨found, parses', -, broken, -, told, -⟩ := recorded_of_cut .singleOctet 2
    (Source.delivers_ofOctets octets) (by decide : 4 ≤ octets.length)
    (Source.delivers_ofOctets (octets.take 4)) accepted
  obtain rfl := parses'.unique parses
  have inside : ¬ Reader.Boundary elements 4 :=
    Reader.not_boundary_of_inside (by decide) (by decide)
  exact ⟨accepted, by decide, broken inside, told.trans (by decide)⟩

end BerRecords.Event
