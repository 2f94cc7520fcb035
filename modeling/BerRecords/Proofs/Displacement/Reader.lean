import BerRecords.Proofs.Displacement
import BerRecords.Proofs.Linked
import BerRecords.Proofs.Reader.Trace

/-!
# A reader further on in a longer stream

A reader whose source holds more octets beyond a position reads the same as one whose
source ends there, as long as it stays before that position. Bounds keep it there.
-/

set_option autoImplicit false

namespace BerRecords.Reader

/-- The source of `near` ends at `stop`. `far` has read more before, as much as
`distance`, and its source goes on with the octets `beyond`. -/
structure Beside (distance : Nat) (beyond : Octets) (stop : Nat) (near far : Reader) : Prop where
  ahead : ∃ ahead, near.source.Delivers ahead ∧ far.source.Delivers (ahead ++ beyond) ∧
    near.offset + ahead.length = stop
  offset_eq : far.offset = near.offset + distance
  encoding_eq : far.encoding = near.encoding
  maxDepth_eq : far.maxDepth = near.maxDepth
  current_eq : far.current = near.current.map (Header.displace distance)

abbrev Reads {α : Type} (distance : Nat) (beyond : Octets) (stop : Nat) (move : α → α) :
    Except DecodeError α × Reader → Except DecodeError α × Reader → Prop :=
  Attempt.Linked
    (fun error near error' far =>
      error' = error.displace distance ∧ Beside distance beyond stop near far)
    (fun value near value' far => value' = move value ∧ Beside distance beyond stop near far)

/-- Nothing is beyond, or the element around ends before. -/
def Bounded (beyond : Octets) (stop : Nat) (parent : Option Header) : Prop :=
  beyond = [] ∨ ∃ header ∈ parent, header.stop ≤ stop

variable {distance stop : Nat} {beyond : Octets} {near far : Reader}

theorem Reads.bind {α β : Type} {first first' : Reading α} {rest rest' : α → Reading β}
    {move : α → α} {after : β → β}
    (reads : Reads distance beyond stop move (first.on near) (first'.on far))
    (later : ∀ value near far, Beside distance beyond stop near far →
      Reads distance beyond stop after ((rest value).on near) ((rest' (move value)).on far)) :
    Reads distance beyond stop after ((first >>= rest).on near) ((first' >>= rest').on far) := by
  refine Attempt.Linked.bind reads ?_
  rintro value near _ far ⟨rfl, beside⟩
  exact later value near far beside

theorem Reads.get {α : Type} {rest rest' : Reader → Reading α} {move : α → α}
    (later : Reads distance beyond stop move ((rest near).on near) ((rest' far).on far)) :
    Reads distance beyond stop move ((MonadState.get >>= rest).on near)
      ((MonadState.get >>= rest').on far) := by
  rw [Attempt.on_bind, Attempt.on_bind]
  exact later

theorem Beside.advance {source source' : Source} {octets rest : Octets}
    (beside : Beside distance beyond stop near far) (delivers : source.Delivers rest)
    (delivers' : source'.Delivers (rest ++ beyond))
    (counted : near.offset + octets.length + rest.length = stop) :
    Beside distance beyond stop (near.advance octets.length source)
      (far.advance octets.length source') := by
  refine ⟨⟨rest, delivers, delivers', counted⟩, ?_, beside.encoding_eq, beside.maxDepth_eq,
    beside.current_eq⟩
  rw [advance_offset, advance_offset, beside.offset_eq, Nat.add_right_comm]

theorem reads_nextOctet? (beside : Beside distance beyond stop near far)
    (bounded : beyond = [] ∨ near.offset < stop) :
    Reads distance beyond stop id (nextOctet?.on near) (nextOctet?.on far) := by
  obtain ⟨ahead, delivers, delivers', counted⟩ := beside.ahead
  cases ahead with
  | nil =>
      have nothing : beyond = [] := by
        rcases bounded with nothing | before
        · exact nothing
        · simp only [List.length_nil] at counted
          omega
      subst nothing
      rw [nextOctet?_exhausted delivers.next_nil, nextOctet?_exhausted delivers'.next_nil]
      have ended := @Beside.advance distance stop [] near far _ _ [] [] beside Source.delivers_nil
        Source.delivers_nil counted
      exact .ok ⟨rfl, ended⟩
  | cons octet ahead =>
      obtain ⟨source, next, rest⟩ := delivers.next_cons
      obtain ⟨source', next', rest'⟩ := delivers'.next_cons
      rw [nextOctet?_octet next, nextOctet?_octet next']
      have moved := @Beside.advance distance stop beyond near far _ _ [octet] ahead beside rest rest'
        (by simpa [Nat.add_assoc, Nat.add_comm 1] using counted)
      exact .ok ⟨rfl, moved⟩

variable {parent : Option Header}

private theorem reads_unboundedOctet? (beside : Beside distance beyond stop near far)
    (bounded : beyond = [] ∨ near.offset < stop) (first : Bool) :
    Reads distance beyond stop id ((unboundedOctet? parent first).on near)
      ((unboundedOctet? (parent.map (Header.displace distance)) first).on far) := by
  refine (reads_nextOctet? beside bounded).bind fun found near far beside => ?_
  have cut : DecodeError.corrupt far.offset
      ((parent.map (Header.displace distance)).map (·.offset)) "" .unexpectedEnd =
        (DecodeError.corrupt near.offset (parent.map (·.offset)) "" .unexpectedEnd).displace
          distance := by
    cases parent <;> simp [DecodeError.displace, beside.offset_eq]
  cases found with
  | some octet => exact .ok ⟨rfl, beside⟩
  | none =>
      simp only [id, Option.isNone_map]
      cases first && parent.isNone with
      | true => exact .ok ⟨rfl, beside⟩
      | false => exact .error ⟨cut, beside⟩

theorem reads_headerOctet? (beside : Beside distance beyond stop near far)
    (bounded : Bounded beyond stop parent) (start : Nat) (first : Bool) :
    Reads distance beyond stop id ((headerOctet? parent start first).on near)
      ((headerOctet? (parent.map (Header.displace distance)) (start + distance) first).on far) := by
  cases parent with
  | none =>
      have nothing : beyond = [] := by simpa [Bounded] using bounded
      exact reads_unboundedOctet? beside (.inl nothing) first
  | some parent =>
      rcases Nat.lt_or_ge near.offset parent.stop with inside | past
      · have inside' : far.offset < (parent.displace distance).stop := by
          simp [beside.offset_eq, inside]
        have before : beyond = [] ∨ near.offset < stop := by
          have before : beyond = [] ∨ parent.stop ≤ stop := by simpa [Bounded] using bounded
          exact before.imp_right (Nat.lt_of_lt_of_le inside)
        rw [headerOctet?_of_within (within_some.2 inside), Option.map_some,
          headerOctet?_of_within (within_some.2 inside')]
        exact reads_unboundedOctet? beside before first
      · have past' : (parent.displace distance).stop ≤ far.offset := by
          simp [beside.offset_eq, past]
        rw [headerOctet?_of_stop_le past, Option.map_some, headerOctet?_of_stop_le past']
        refine .error ⟨?_, beside⟩
        simp [DecodeError.displace, beside.offset_eq, Nat.add_sub_add_right]

theorem reads_headerOctet (beside : Beside distance beyond stop near far)
    (bounded : Bounded beyond stop parent) (start : Nat) :
    Reads distance beyond stop id ((headerOctet parent start).on near)
      ((headerOctet (parent.map (Header.displace distance)) (start + distance)).on far) := by
  refine (reads_headerOctet? beside bounded start false).bind fun found near far beside => ?_
  cases found with
  | some octet => exact .ok ⟨rfl, beside⟩
  | none => exact .error ⟨by cases parent <;> rfl, beside⟩

theorem reads_readIdentifier (beside : Beside distance beyond stop near far)
    (bounded : Bounded beyond stop parent) (start : Nat) (pending : Identifier.Pending) :
    Reads distance beyond stop id ((readIdentifier parent start pending).on near)
      ((readIdentifier (parent.map (Header.displace distance)) (start + distance) pending).on
        far) := by
  induction room : pending.room using Nat.strongRecOn generalizing pending near far with
  | ind _ ih =>
      have first := reads_headerOctet? beside bounded start (pending = .fresh)
      generalize found : (headerOctet? _ _ _).on near = ran at first
      generalize found' : (headerOctet? _ _ _).on far = ran' at first
      cases first with
      | error related =>
          rw [readIdentifier, readIdentifier, Attempt.on_bind, Attempt.on_bind, found, found']
          exact .error related
      | @ok _ near octet? far related =>
          obtain ⟨rfl, beside⟩ := related
          cases octet? with
          | none =>
              rw [readIdentifier, readIdentifier, Attempt.on_bind, Attempt.on_bind, found, found']
              exact .ok ⟨rfl, beside⟩
          | some octet =>
              rw [readIdentifier_of_octet found, readIdentifier_of_octet found',
                beside.encoding_eq]
              cases pushed : pending.push near.encoding octet with
              | error fault => exact .error ⟨by cases parent <;> rfl, beside⟩
              | ok progress =>
                  cases progress with
                  | complete tag => exact .ok ⟨rfl, beside⟩
                  | more later =>
                      have rest := ih _ (room ▸ Identifier.Pending.room_push pushed) beside later rfl
                      simp only
                      generalize (readIdentifier _ _ later).on near = ran at rest ⊢
                      generalize (readIdentifier _ _ later).on far = ran' at rest ⊢
                      cases rest with
                      | error related => exact .error related
                      | ok related => exact .ok ⟨by rw [related.1]; rfl, related.2⟩

theorem reads_headerOctets (beside : Beside distance beyond stop near far)
    (bounded : Bounded beyond stop parent) (start count : Nat) :
    Reads distance beyond stop id ((headerOctets parent start count).on near)
      ((headerOctets (parent.map (Header.displace distance)) (start + distance) count).on far) := by
  induction count generalizing near far with
  | zero => exact .ok ⟨rfl, beside⟩
  | succ count ih =>
      refine (reads_headerOctet beside bounded start).bind fun octet near far beside => ?_
      refine (ih beside).bind fun octets near far beside => ?_
      exact .ok ⟨rfl, beside⟩

theorem reads_readLength (beside : Beside distance beyond stop near far)
    (bounded : Bounded beyond stop parent) (start : Nat) :
    Reads distance beyond stop id ((readLength parent start).on near)
      ((readLength (parent.map (Header.displace distance)) (start + distance)).on far) := by
  have element : (parent.map (Header.displace distance)).map (·.offset) =
      (parent.map (·.offset)).map (· + distance) := by
    cases parent <;> rfl
  refine (reads_headerOctet beside bounded start).bind fun first near far beside => ?_
  simp only [id, element]
  split
  · exact .ok ⟨rfl, beside⟩
  · split
    · exact .error ⟨rfl, beside⟩
    · split
      · exact .error ⟨rfl, beside⟩
      · refine (reads_headerOctets beside bounded start _).bind fun octets near far beside => ?_
        exact .ok ⟨rfl, beside⟩

theorem reads_readHeader (beside : Beside distance beyond stop near far)
    (bounded : Bounded beyond stop parent) :
    Reads distance beyond stop (Option.map (Header.displace distance))
      ((readHeader parent).on near)
      ((readHeader (parent.map (Header.displace distance))).on far) := by
  rw [readHeader, readHeader]
  refine Reads.get ?_
  rw [beside.offset_eq]
  refine (reads_readIdentifier beside bounded near.offset .fresh).bind
    fun found near' far' beside => ?_
  cases found with
  | none => exact .ok ⟨rfl, beside⟩
  | some found =>
      refine (reads_readLength beside bounded near.offset).bind fun length near far beside => ?_
      exact .ok ⟨rfl, beside⟩

/-- A top-level header is read the same whatever is beyond, if its heading is ahead. -/
theorem reads_readHeader_of_heading {encoding : TagEncoding} (heading : Heading encoding)
    {source : Source} (beside : Beside distance beyond stop near far)
    (same : near.encoding = encoding) (passes : near.source.Passes heading.octets source) :
    Reads distance beyond stop (Option.map (Header.displace distance))
      ((readHeader none).on near) ((readHeader none).on far) := by
  obtain ⟨ahead, delivers, delivers', counted⟩ := beside.ahead
  obtain ⟨rest, rfl, left⟩ := delivers.rest passes
  rw [List.append_assoc] at delivers'
  obtain ⟨source', passes', left'⟩ := delivers'.split
  rw [readHeader_of_heading heading same passes,
    readHeader_of_heading heading (beside.encoding_eq.trans same) passes']
  refine .ok ⟨?_, beside.advance left left' ?_⟩
  · simp [Header.displace, Heading.header, beside.offset_eq]
  · simpa [Nat.add_assoc] using counted

theorem misplaced?_displace (parent : Option Header) (limit depth : Nat) (header : Header) :
    misplaced? (parent.map (Header.displace distance)) limit depth (header.displace distance) =
      (misplaced? parent limit depth header).map (DecodeError.displace distance) := by
  have deep : tooDeep? (parent.map (Header.displace distance)) limit depth
      (header.displace distance) =
        (tooDeep? parent limit depth header).map (DecodeError.displace distance) := by
    rw [tooDeep?, tooDeep?]
    split
    · cases parent <;> rfl
    · rfl
  have long : overrun? (parent.map (Header.displace distance)) (header.displace distance) =
      (overrun? parent header).map (DecodeError.displace distance) := by
    cases parent with
    | none => rfl
    | some parent =>
        simp only [overrun?, Option.map_some, Header.displace_stop, Header.displace_contentStart,
          Nat.add_lt_add_iff_right, Nat.add_sub_add_right]
        split
        · rfl
        · rfl
  rw [misplaced?, misplaced?, deep, long]
  cases overrun? parent header <;> rfl

theorem Beside.atHand (beside : Beside distance beyond stop near far) (parent : Option Header)
    (header : Header) :
    Beside distance beyond stop (atHand parent header near)
      (atHand (parent.map (Header.displace distance)) (header.displace distance) far) := by
  obtain ⟨ahead, offset_eq, encoding_eq, maxDepth_eq, current_eq⟩ := beside
  cases parent with
  | none => exact ⟨ahead, offset_eq, encoding_eq, maxDepth_eq, rfl⟩
  | some parent => exact ⟨ahead, offset_eq, encoding_eq, maxDepth_eq, current_eq⟩

/-- An element opens the same if its header is read the same. -/
theorem reads_openElement {depth : Nat}
    (reads : Reads distance beyond stop (Option.map (Header.displace distance))
      ((readHeader parent).on near)
      ((readHeader (parent.map (Header.displace distance))).on far)) :
    Reads distance beyond stop (Option.map (Header.displace distance))
      ((openElement parent depth).on near)
      ((openElement (parent.map (Header.displace distance)) depth).on far) := by
  rw [openElement_on, openElement_on]
  generalize (readHeader parent).on near = ran at reads ⊢
  generalize (readHeader (parent.map _)).on far = ran' at reads ⊢
  cases reads with
  | error related => exact .error related
  | @ok header? near _ far related =>
      obtain ⟨rfl, beside⟩ := related
      cases header? with
      | none => exact .ok ⟨rfl, beside⟩
      | some header =>
          simp only [Option.map_some, misplaced?_displace, beside.maxDepth_eq]
          cases misplaced? parent near.maxDepth depth header with
          | none => exact .ok ⟨rfl, beside.atHand parent header⟩
          | some error => exact .error ⟨rfl, beside.atHand parent header⟩

theorem reads_readValue {header : Header} (beside : Beside distance beyond stop near far)
    (bounded : beyond = [] ∨ near.offset + header.length ≤ stop) :
    Reads distance beyond stop id ((readValue header).on near)
      ((readValue (header.displace distance)).on far) := by
  obtain ⟨ahead, delivers, delivers', counted⟩ := beside.ahead
  rcases Nat.lt_or_ge ahead.length header.length with short | enough
  · have nothing : beyond = [] := bounded.resolve_right (by omega)
    subst nothing
    rw [List.append_nil] at delivers'
    have ended := @Beside.advance distance stop [] near far _ _ ahead [] beside Source.delivers_nil
      Source.delivers_nil counted
    simp only [Attempt.on, ExceptT.run, StateT.run, readValue, delivers.take_short short,
      Header.displace_length, delivers'.take_short short]
    refine .error ⟨?_, ended⟩
    simp [DecodeError.displace, beside.offset_eq, Nat.add_right_comm]
  · obtain ⟨value, rest, rfl, length⟩ : ∃ value rest, ahead = value ++ rest ∧
        value.length = header.length :=
      ⟨ahead.take header.length, ahead.drop header.length, by simp,
        List.length_take_of_le enough⟩
    obtain ⟨source, passes, left⟩ := delivers.split
    rw [List.append_assoc] at delivers'
    obtain ⟨source', passes', left'⟩ := delivers'.split
    rw [readValue_ok_iff.2 ⟨length, source, passes, rfl⟩,
      (@readValue_ok_iff (header.displace distance) far _ _).2 ⟨length, source', passes', rfl⟩]
    exact .ok ⟨rfl, beside.advance left left' (by simpa [Nat.add_assoc] using counted)⟩

end BerRecords.Reader
