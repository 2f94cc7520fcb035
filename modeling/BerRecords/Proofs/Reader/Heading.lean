import BerRecords.Element.Reader
import BerRecords.Proofs.Source.Passing
import BerRecords.Proofs.Wire.Unique

/-! A reader takes a header from its source exactly where a heading stands. -/

set_option autoImplicit false

namespace BerRecords.Reader

def advance (count : Nat) (source : Source) (reader : Reader) : Reader :=
  { reader with source := source, offset := reader.offset + count }

section

variable (count : Nat) (source : Source) (reader : Reader)

@[simp] theorem advance_source : (reader.advance count source).source = source := rfl

@[simp] theorem advance_offset : (reader.advance count source).offset = reader.offset + count := rfl

@[simp] theorem advance_encoding : (reader.advance count source).encoding = reader.encoding := rfl

@[simp] theorem advance_maxDepth : (reader.advance count source).maxDepth = reader.maxDepth := rfl

@[simp] theorem advance_current : (reader.advance count source).current = reader.current := rfl

@[simp] theorem advance_advance (more : Nat) (after : Source) :
    (reader.advance count source).advance more after = reader.advance (count + more) after := by
  simp only [advance, Nat.add_assoc]

@[simp] theorem advance_zero : reader.advance 0 reader.source = reader := rfl

end

/-- A position that does not lie beyond the end of the enclosing element, if there is one. -/
def Within (parent : Option Header) (position : Nat) : Prop :=
  ∀ header ∈ parent, position ≤ header.stop

theorem Within.mono {parent : Option Header} {position earlier : Nat}
    (within : Within parent position) (le : earlier ≤ position) : Within parent earlier :=
  fun header member => Nat.le_trans le (within header member)

theorem within_none (position : Nat) : Within none position := by
  simp [Within]

@[simp] theorem within_some {parent : Header} {position : Nat} :
    Within (some parent) position ↔ position ≤ parent.stop := by
  simp [Within]

variable {parent : Option Header} {start : Nat} {reader after : Reader}

theorem within_cons {octet : UInt8} {rest : Octets} {middle : Source} :
    Within parent (reader.offset + (octet :: rest).length) ↔
      Within parent ((reader.advance 1 middle).offset + rest.length) := by
  simp only [advance_offset, List.length_cons, Nat.add_assoc, Nat.add_comm 1]

theorem Within.first {octet : UInt8} {rest : Octets}
    (within : Within parent (reader.offset + (octet :: rest).length)) :
    Within parent (reader.offset + 1) :=
  within.mono (by simp only [List.length_cons]; omega)

theorem nextOctet?_octet {octet : UInt8} {source : Source}
    (next : reader.source.next = .octet octet source) :
    nextOctet?.on reader = (.ok (some octet), reader.advance 1 source) := by
  simp only [Attempt.on, ExceptT.run, StateT.run, nextOctet?, next, advance]

theorem nextOctet?_exhausted {source : Source} (next : reader.source.next = .exhausted source) :
    nextOctet?.on reader = (.ok none, reader.advance 0 source) := by
  simp only [Attempt.on, ExceptT.run, StateT.run, nextOctet?, next, advance, Nat.add_zero]

theorem nextOctet?_failed {reason : String} {source : Source}
    (next : reader.source.next = .failed reason source) :
    nextOctet?.on reader = (.error (.source reason), reader.advance 0 source) := by
  simp only [Attempt.on, ExceptT.run, StateT.run, nextOctet?, next, advance, Nat.add_zero]

theorem headerOctet?_of_within {first : Bool} (within : Within parent (reader.offset + 1)) :
    (headerOctet? parent start first).on reader = (unboundedOctet? parent first).on reader := by
  cases parent with
  | none => rfl
  | some parent =>
      have inside : reader.offset < parent.stop := within_some.1 within
      simp only [headerOctet?, Attempt.on_bind, Attempt.on_get, Nat.not_le.2 inside, ↓reduceIte]

theorem headerOctet?_of_stop_le {first : Bool} {parent : Header}
    (beyond : parent.stop ≤ reader.offset) :
    (headerOctet? (some parent) start first).on reader =
      (.error (.corrupt start parent.offset "" (.headerPastParent parent.length
        (reader.offset - parent.contentStart))), reader) := by
  simp [headerOctet?, Attempt.on_bind, beyond]

private theorem unboundedOctet?_some_iff {first : Bool} {octet : UInt8} :
    (unboundedOctet? parent first).on reader = (.ok (some octet), after) ↔
      ∃ source, reader.source.next = .octet octet source ∧ after = reader.advance 1 source := by
  simp only [unboundedOctet?, Attempt.on_bind]
  cases next : reader.source.next with
  | octet octet source =>
      simp only [nextOctet?_octet next, Attempt.on_pure, Prod.mk.injEq, Except.ok.injEq,
        Option.some.injEq, Source.Next.octet.injEq]
      constructor
      · rintro ⟨rfl, rfl⟩
        exact ⟨source, ⟨rfl, rfl⟩, rfl⟩
      · rintro ⟨_, ⟨rfl, rfl⟩, rfl⟩
        exact ⟨rfl, rfl⟩
  | exhausted source =>
      simp only [nextOctet?_exhausted next, reduceCtorEq, false_and, exists_false, iff_false]
      split <;> simp [Attempt.on_bind]
  | failed reason source => simp [nextOctet?_failed next]

theorem headerOctet?_some_iff {first : Bool} {octet : UInt8} :
    (headerOctet? parent start first).on reader = (.ok (some octet), after) ↔
      Within parent (reader.offset + 1) ∧
        ∃ source, reader.source.next = .octet octet source ∧ after = reader.advance 1 source := by
  by_cases within : Within parent (reader.offset + 1)
  · rw [headerOctet?_of_within within, unboundedOctet?_some_iff]
    simp [within]
  · simp only [within, false_and, iff_false]
    cases parent with
    | none => exact absurd (within_none _) within
    | some parent =>
        rw [within_some, Nat.not_le, Nat.lt_add_one_iff] at within
        simp [headerOctet?_of_stop_le within]

theorem headerOctet_ok_iff {octet : UInt8} :
    (headerOctet parent start).on reader = (.ok octet, after) ↔
      Within parent (reader.offset + 1) ∧
        ∃ source, reader.source.next = .octet octet source ∧ after = reader.advance 1 source := by
  have found := @headerOctet?_some_iff parent start reader after false octet
  rw [← found, headerOctet, Attempt.on_bind]
  rcases (headerOctet? parent start false).on reader with ⟨_ | _ | _, _⟩ <;> simp

theorem readIdentifier_of_octet {pending : Identifier.Pending} {octet : UInt8}
    {middle : Reader}
    (found : (headerOctet? parent start (pending = .fresh)).on reader =
      (.ok (some octet), middle)) :
    (readIdentifier parent start pending).on reader =
      match pending.push middle.encoding octet with
      | .error fault =>
        (.error (.corrupt start (parent.map (·.offset)) "" (.identifier fault)), middle)
      | .ok (.complete tag) => (.ok (some (tag, [octet])), middle)
      | .ok (.more next) =>
        match (readIdentifier parent start next).on middle with
        | (.error error, after) => (.error error, after)
        | (.ok found, after) =>
          (.ok (found.map fun (tag, octets) => (tag, octet :: octets)), after) := by
  rw [readIdentifier, Attempt.on_bind, found]
  dsimp only
  rw [Attempt.on_bind, Attempt.on_get]
  dsimp only
  split
  · rename_i pushed
    simp [pushed]
  · rename_i pushed
    simp [pushed]
  · rename_i next pushed
    rw [Attempt.on_bind]
    simp only [pushed]
    rcases (readIdentifier parent start next).on middle with ⟨_ | _, _⟩ <;> rfl

private theorem readIdentifier_some {pending : Identifier.Pending} {tag : Tag} {octets : Octets}
    (read : (readIdentifier parent start pending).on reader = (.ok (some (tag, octets)), after)) :
    pending.Completes reader.encoding octets tag ∧
      Within parent (reader.offset + octets.length) ∧
        ∃ source, reader.source.Passes octets source ∧
          after = reader.advance octets.length source := by
  induction room : pending.room using Nat.strongRecOn generalizing pending reader octets with
  | ind _ ih =>
      rcases found : (headerOctet? parent start (pending = .fresh)).on reader with
        ⟨error | none | octet, middle⟩
      · rw [readIdentifier, Attempt.on_bind, found] at read
        cases read
      · rw [readIdentifier, Attempt.on_bind, found] at read
        cases read
      · rw [readIdentifier_of_octet found] at read
        obtain ⟨within, source, next, rfl⟩ := headerOctet?_some_iff.1 found
        cases pushed : pending.push reader.encoding octet with
        | error fault => simp [pushed] at read
        | ok progress =>
            cases progress with
            | complete whole =>
                simp only [advance_encoding, pushed, Prod.mk.injEq, Except.ok.injEq,
                  Option.some.injEq] at read
                obtain ⟨⟨rfl, rfl⟩, rfl⟩ := read
                refine ⟨?_, within, source, .cons next .nil, rfl⟩
                simp [Identifier.Pending.Completes, pushed]
            | more later =>
                simp only [advance_encoding, pushed] at read
                rcases tail : (readIdentifier parent start later).on (reader.advance 1 source) with
                  ⟨error | none | ⟨tag', rest⟩, last⟩
                · simp [tail] at read
                · simp [tail] at read
                · simp only [tail, Option.map_some, Prod.mk.injEq, Except.ok.injEq,
                    Option.some.injEq] at read
                  obtain ⟨⟨rfl, rfl⟩, rfl⟩ := read
                  obtain ⟨completes, within', source', passes, rfl⟩ :=
                    ih _ (room ▸ Identifier.Pending.room_push pushed) tail rfl
                  refine ⟨?_, ?_, source', .cons next passes, ?_⟩
                  · simpa [Identifier.Pending.Completes, pushed] using completes
                  · exact within_cons.2 within'
                  · simp [Nat.add_comm]

private theorem readIdentifier_of_completes {pending : Identifier.Pending} {tag : Tag}
    {octets : Octets} {source : Source}
    (completes : pending.Completes reader.encoding octets tag)
    (within : Within parent (reader.offset + octets.length))
    (passes : reader.source.Passes octets source) :
    (readIdentifier parent start pending).on reader =
      (.ok (some (tag, octets)), reader.advance octets.length source) := by
  induction octets generalizing pending reader with
  | nil => exact completes.elim
  | cons octet rest ih =>
      cases passes with
      | @cons _ middle _ _ _ next passes =>
          rw [readIdentifier_of_octet (headerOctet?_some_iff.2 ⟨within.first, middle, next, rfl⟩)]
          simp only [Identifier.Pending.Completes] at completes
          cases pushed : pending.push reader.encoding octet with
          | error fault => simp [pushed] at completes
          | ok progress =>
              cases progress with
              | complete whole =>
                  simp only [pushed] at completes
                  obtain ⟨rfl, rfl⟩ := completes
                  cases passes
                  simp [pushed]
              | more later =>
                  simp only [pushed] at completes
                  have read := @ih (reader.advance 1 middle) later completes
                    (within_cons.1 within) passes
                  simp [pushed, read, Nat.add_comm]

/-- The identifier read is the one that stands at the front of the source. -/
theorem readIdentifier_fresh_iff {tag : Tag} {octets : Octets} :
    (readIdentifier parent start .fresh).on reader = (.ok (some (tag, octets)), after) ↔
      Identifier.Spells reader.encoding octets tag ∧
        Within parent (reader.offset + octets.length) ∧
          ∃ source, reader.source.Passes octets source ∧
            after = reader.advance octets.length source := by
  rw [← Identifier.completes_fresh_iff]
  constructor
  · exact readIdentifier_some
  · rintro ⟨completes, within, source, passes, rfl⟩
    exact readIdentifier_of_completes completes within passes

private theorem headerOctets_ok_iff {count : Nat} {octets : Octets}
    (inside : Within parent reader.offset) :
    (headerOctets parent start count).on reader = (.ok octets, after) ↔
      octets.length = count ∧ Within parent (reader.offset + octets.length) ∧
        ∃ source, reader.source.Passes octets source ∧
          after = reader.advance octets.length source := by
  induction count generalizing reader after octets with
  | zero =>
      simp only [headerOctets, Attempt.on_pure, Prod.mk.injEq, Except.ok.injEq,
        List.length_eq_zero_iff]
      constructor
      · rintro ⟨rfl, rfl⟩
        exact ⟨rfl, inside, reader.source, .nil, rfl⟩
      · rintro ⟨rfl, -, source, passes, rfl⟩
        cases passes
        exact ⟨rfl, rfl⟩
  | succ count ih =>
      rw [headerOctets, Attempt.on_bind]
      constructor
      · intro read
        rcases found : (headerOctet parent start).on reader with ⟨error | octet, middle⟩
        · simp [found] at read
        · obtain ⟨within, source, next, rfl⟩ := headerOctet_ok_iff.1 found
          simp only [found, Attempt.on_bind] at read
          rcases tail : (headerOctets parent start count).on (reader.advance 1 source) with
            ⟨error | rest, last⟩
          · simp [tail] at read
          · simp only [tail, Attempt.on_pure, Prod.mk.injEq, Except.ok.injEq] at read
            obtain ⟨rfl, rfl⟩ := read
            obtain ⟨rfl, within', source', passes, rfl⟩ := (ih within).1 tail
            exact ⟨rfl, within_cons.2 within', source', .cons next passes, by simp [Nat.add_comm]⟩
      · rintro ⟨counted, within, source, passes, rfl⟩
        cases passes with
        | nil => cases counted
        | @cons _ middle _ octet rest next passes =>
            have tail := (@ih (reader.advance 1 middle) _ rest within.first).2
              ⟨Nat.succ.inj counted, within_cons.1 within, source, passes, rfl⟩
            simp [headerOctet_ok_iff.2 ⟨within.first, middle, next, rfl⟩, tail, Attempt.on_map,
              Nat.add_comm]

/-- The length read is the one that stands at the front of the source. -/
theorem readLength_ok_iff {length : Nat} {octets : Octets} :
    (readLength parent start).on reader = (.ok (length, octets), after) ↔
      Length.Spells octets length ∧ Within parent (reader.offset + octets.length) ∧
        ∃ source, reader.source.Passes octets source ∧
          after = reader.advance octets.length source := by
  rw [readLength, Attempt.on_bind]
  constructor
  · intro read
    rcases found : (headerOctet parent start).on reader with ⟨error | first, middle⟩
    · simp [found] at read
    · obtain ⟨within, source, next, rfl⟩ := headerOctet_ok_iff.1 found
      simp only [found] at read
      by_cases short : first.toNat < 128
      · simp only [short, ↓reduceIte, Attempt.on_pure, Prod.mk.injEq, Except.ok.injEq] at read
        obtain ⟨⟨rfl, rfl⟩, rfl⟩ := read
        exact ⟨.short short, within, source, .cons next .nil, rfl⟩
      · by_cases indefinite : first.toNat % 128 = 0
        · simp [short, indefinite] at read
        · by_cases long : Length.maxOctets < first.toNat % 128
          · simp [short, indefinite, long] at read
          · simp only [short, indefinite, long, ↓reduceIte, Attempt.on_bind,
              Attempt.on_pure] at read
            rcases tail : (headerOctets parent start (first.toNat % 128)).on
              (reader.advance 1 source) with ⟨error | number, last⟩
            · simp [tail] at read
            · simp only [tail, Prod.mk.injEq, Except.ok.injEq] at read
              obtain ⟨⟨rfl, rfl⟩, rfl⟩ := read
              obtain ⟨counted, within', source', passes, rfl⟩ :=
                (headerOctets_ok_iff within).1 tail
              have bound := first.toNat_lt
              refine ⟨.long ?_ ?_ ?_, ?_, source', .cons next passes, ?_⟩
              · omega
              · omega
              · omega
              · exact within_cons.2 within'
              · simp [Nat.add_comm]
  · rintro ⟨spells, within, source, passes, rfl⟩
    cases spells with
    | @short octet small =>
        cases passes with
        | cons next passes =>
            cases passes
            simp [headerOctet_ok_iff.2 ⟨within, _, next, rfl⟩, small]
    | @long first number counted some_octets few =>
        cases passes with
        | @cons _ middle _ _ _ next passes =>
            have short : ¬first.toNat < 128 := by omega
            have count : first.toNat % 128 = number.length := by
              have bound := first.toNat_lt
              omega
            have indefinite : number.length ≠ 0 := by omega
            have tail := (@headerOctets_ok_iff parent start (reader.advance 1 middle) _
              number.length number within.first).2
              ⟨rfl, within_cons.1 within, source, passes, rfl⟩
            simp [headerOctet_ok_iff.2 ⟨within.first, middle, next, rfl⟩, short, count, indefinite,
              Nat.not_lt.2 few, Attempt.on_map, tail, Nat.add_comm]

/-- The header read is that of a heading at the front of the source. -/
theorem readHeader_some_iff {header : Header} :
    (readHeader parent).on reader = (.ok (some header), after) ↔
      ∃ heading : Heading reader.encoding, header = heading.header reader.offset ∧
        Within parent header.contentStart ∧
          ∃ source, reader.source.Passes heading.octets source ∧
            after = reader.advance heading.octets.length source := by
  rw [readHeader, Attempt.on_bind, Attempt.on_get]
  dsimp only
  rw [Attempt.on_bind]
  constructor
  · intro read
    rcases identified : (readIdentifier parent reader.offset .fresh).on reader with
      ⟨error | none | ⟨tag, identifier⟩, middle⟩
    · simp [identified] at read
    · simp [identified] at read
    · obtain ⟨names, within, source, passes, rfl⟩ := readIdentifier_fresh_iff.1 identified
      simp only [identified, Attempt.on_bind] at read
      rcases measured : (readLength parent reader.offset).on
        (reader.advance identifier.length source) with ⟨error | ⟨length, octets⟩, last⟩
      · simp [measured] at read
      · simp only [measured, Attempt.on_pure, Prod.mk.injEq, Except.ok.injEq,
          Option.some.injEq] at read
        obtain ⟨rfl, rfl⟩ := read
        obtain ⟨measures, within', source', passes', rfl⟩ := readLength_ok_iff.1 measured
        refine ⟨⟨tag, length, identifier, octets, names, measures⟩, rfl, ?_, source',
          passes.append passes', ?_⟩
        · simpa [Header.contentStart, Header.size, Nat.add_assoc] using within'
        · simp [Heading.octets]
  · rintro ⟨heading, rfl, within, source, passes, rfl⟩
    obtain ⟨middle, front, back⟩ := passes.split
    have within' : Within parent (reader.offset +
        (heading.identifier.length + heading.lengthOctets.length)) := by
      simpa [Header.contentStart, Header.size, Heading.header, Heading.octets] using within
    have identified := (@readIdentifier_fresh_iff parent reader.offset reader _ _ _).2
      ⟨heading.identifier_spells, within'.mono (by omega), middle, front, rfl⟩
    have measured := (@readLength_ok_iff parent reader.offset
      (reader.advance heading.identifier.length middle) _ _ _).2
      ⟨heading.length_spells, within'.mono (by simp [Nat.add_assoc]), source, back, rfl⟩
    simp [identified, measured, Heading.header, Heading.octets, Attempt.on_map]

theorem readHeader_of_heading {encoding : TagEncoding} (heading : Heading encoding)
    {reader : Reader} {source : Source} (same : reader.encoding = encoding)
    (passes : reader.source.Passes heading.octets source) :
    (readHeader none).on reader =
      (.ok (some (heading.header reader.offset)),
        reader.advance heading.octets.length source) := by
  subst same
  exact readHeader_some_iff.2 ⟨heading, rfl, within_none _, source, passes, rfl⟩

theorem headerOctet?_none_iff {first : Bool} :
    (headerOctet? parent start first).on reader = (.ok none, after) ↔
      first = true ∧ parent = none ∧
        ∃ source, reader.source.next = .exhausted source ∧ after = reader.advance 0 source := by
  by_cases within : Within parent (reader.offset + 1)
  · rw [headerOctet?_of_within within, unboundedOctet?, Attempt.on_bind]
    cases next : reader.source.next with
    | octet octet source => simp [nextOctet?_octet next]
    | exhausted source =>
        simp only [nextOctet?_exhausted next]
        cases first <;> cases parent <;> simp [Attempt.on_bind, eq_comm]
    | failed reason source => simp [nextOctet?_failed next]
  · cases parent with
    | none => exact absurd (within_none _) within
    | some parent =>
        rw [within_some, Nat.not_le, Nat.lt_add_one_iff] at within
        simp [headerOctet?_of_stop_le within]

private theorem readIdentifier_none_iff {pending : Identifier.Pending} :
    (readIdentifier parent start pending).on reader = (.ok none, after) ↔
      pending = .fresh ∧ parent = none ∧
        ∃ source, reader.source.next = .exhausted source ∧ after = reader.advance 0 source := by
  induction room : pending.room using Nat.strongRecOn generalizing pending reader after with
  | ind _ ih =>
      rcases found : (headerOctet? parent start (pending = .fresh)).on reader with
        ⟨error | none | octet, middle⟩
      · rw [readIdentifier, Attempt.on_bind, found]
        constructor
        · rintro ⟨⟩
        · rintro ⟨rfl, rfl, source, next, rfl⟩
          rw [headerOctet?_none_iff.2 ⟨by simp, rfl, source, next, rfl⟩] at found
          cases found
      · rw [readIdentifier, Attempt.on_bind, found]
        obtain ⟨fresh, rfl, source, next, rfl⟩ := headerOctet?_none_iff.1 found
        simp only [decide_eq_true_eq] at fresh
        simp [fresh, next, eq_comm]
      · obtain ⟨within, source, next, rfl⟩ := headerOctet?_some_iff.1 found
        rw [readIdentifier_of_octet found]
        simp only [next, reduceCtorEq, false_and, exists_false, and_false, iff_false]
        cases pushed : pending.push reader.encoding octet with
        | error fault => simp [pushed]
        | ok progress =>
            cases progress with
            | complete whole => simp [pushed]
            | more later =>
                rcases ended : (readIdentifier parent start later).on (reader.advance 1 source) with
                  ⟨error | none | found, last⟩
                · simp [pushed, ended]
                · obtain ⟨rfl, -⟩ :=
                    (ih _ (room ▸ Identifier.Pending.room_push pushed) rfl).1 ended
                  exact absurd pushed Identifier.Pending.push_ne_fresh
                · simp [pushed, ended]

/-- There is no header only where the source ends between top-level elements. -/
theorem readHeader_none_iff :
    (readHeader parent).on reader = (.ok none, after) ↔
      parent = none ∧
        ∃ source, reader.source.next = .exhausted source ∧ after = reader.advance 0 source := by
  have absent := @readIdentifier_none_iff parent reader.offset reader after .fresh
  simp only [true_and] at absent
  rw [← absent, readHeader, Attempt.on_bind, Attempt.on_get]
  dsimp only
  rw [Attempt.on_bind]
  rcases (readIdentifier parent reader.offset .fresh).on reader with
    ⟨error | none | ⟨tag, identifier⟩, middle⟩
  · simp
  · simp
  · simp only [Attempt.on_bind]
    rcases (readLength parent reader.offset).on middle with ⟨_ | _, _⟩ <;> simp

def atHand (parent : Option Header) (header : Header) (reader : Reader) : Reader :=
  if parent.isNone then { reader with current := some header } else reader

def misplaced? (parent : Option Header) (limit depth : Nat) (header : Header) :
    Option DecodeError :=
  (overrun? parent header).or (tooDeep? parent limit depth header)

theorem misplaced?_eq_none_iff {limit depth : Nat} {header : Header} :
    misplaced? parent limit depth header = none ↔ Within parent header.stop ∧ depth < limit := by
  cases parent with
  | none => simp [misplaced?, overrun?, tooDeep?, within_none]
  | some parent => simp [misplaced?, overrun?, tooDeep?]

theorem openElement_on {depth : Nat} :
    (openElement parent depth).on reader =
      match (readHeader parent).on reader with
      | (.error error, after) => (.error error, after)
      | (.ok none, after) => (.ok none, after)
      | (.ok (some header), after) =>
        match misplaced? parent after.maxDepth depth header with
        | some error => (.error error, atHand parent header after)
        | none => (.ok (some header), atHand parent header after) := by
  rw [openElement, Attempt.on_bind]
  rcases (readHeader parent).on reader with ⟨error | none | header, after⟩
  · rfl
  · rfl
  · cases parent with
    | none =>
        simp only [Option.isNone_none, ↓reduceIte, Attempt.on_bind, Attempt.on_modify,
          Attempt.on_get, atHand, misplaced?]
        cases (overrun? none header).or (tooDeep? none after.maxDepth depth header) with
        | none | some => rfl
    | some parent =>
        simp only [Option.isNone_some, Bool.false_eq_true, ↓reduceIte, Attempt.on_bind,
          Attempt.on_get, atHand, misplaced?]
        cases (overrun? parent header).or (tooDeep? parent after.maxDepth depth header) with
        | none | some => rfl

/-- An element opens exactly where a heading stands that fits its place. -/
theorem openElement_some_iff {depth : Nat} {header : Header} :
    (openElement parent depth).on reader = (.ok (some header), after) ↔
      ∃ heading : Heading reader.encoding, header = heading.header reader.offset ∧
        Within parent header.stop ∧ depth < reader.maxDepth ∧
          ∃ source, reader.source.Passes heading.octets source ∧
            after = atHand parent header (reader.advance heading.octets.length source) := by
  rw [openElement_on]
  constructor
  · intro opened
    rcases read : (readHeader parent).on reader with ⟨error | none | found, middle⟩
    · simp [read] at opened
    · simp [read] at opened
    · obtain ⟨heading, rfl, -, source, passes, rfl⟩ := readHeader_some_iff.1 read
      cases placed : misplaced? parent reader.maxDepth depth (heading.header reader.offset) with
      | some error => simp [read, placed] at opened
      | none =>
          simp only [read, advance_maxDepth, placed, Prod.mk.injEq, Except.ok.injEq,
            Option.some.injEq] at opened
          obtain ⟨rfl, rfl⟩ := opened
          obtain ⟨within, shallow⟩ := misplaced?_eq_none_iff.1 placed
          exact ⟨heading, rfl, within, shallow, source, passes, rfl⟩
  · rintro ⟨heading, rfl, within, shallow, source, passes, rfl⟩
    have read := (@readHeader_some_iff parent reader _ _).2
      ⟨heading, rfl, within.mono (Nat.le_add_right _ _), source, passes, rfl⟩
    simp [read, misplaced?_eq_none_iff.2 ⟨within, shallow⟩]

theorem openElement_none_iff {depth : Nat} :
    (openElement parent depth).on reader = (.ok none, after) ↔
      parent = none ∧
        ∃ source, reader.source.next = .exhausted source ∧ after = reader.advance 0 source := by
  rw [← readHeader_none_iff, openElement_on]
  rcases (readHeader parent).on reader with ⟨error | none | header, middle⟩
  · simp
  · simp
  · dsimp only
    split <;> simp

end BerRecords.Reader
