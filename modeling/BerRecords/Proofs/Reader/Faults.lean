import BerRecords.Proofs.Reader.Heading

/-!
# Why a reader fails

Everything that can go wrong in one step of a reader, with the place that the reader has come to
by then. What is said about the errors of a reader is read off from here.
-/

set_option autoImplicit false

namespace BerRecords.Reader

/-- Why no header that starts at `start` can be read inside `parent`, when the reader has come to
`position` by then. -/
inductive HeaderFault (parent : Option Header) (start position : Nat) : DecodeError → Prop where
  | source (reason : String) : HeaderFault parent start position (.source reason)
  | ended : HeaderFault parent start position
      (.corrupt position (parent.map (·.offset)) "" .unexpectedEnd)
  | past {outer : Header} : outer ∈ parent → outer.stop ≤ position →
      HeaderFault parent start position (.corrupt start outer.offset "" <|
        .headerPastParent outer.length (position - outer.contentStart))
  | identifier (fault : IdentifierError) : HeaderFault parent start position
      (.corrupt start (parent.map (·.offset)) "" (.identifier fault))
  | indefinite : HeaderFault parent start position
      (.corrupt start (parent.map (·.offset)) "" .indefiniteLength)
  | long (count : Nat) : HeaderFault parent start position
      (.corrupt start (parent.map (·.offset)) "" (.longLength count))

def HeaderFaults {α : Type} (parent : Option Header) (start : Nat) (reading : Reading α) : Prop :=
  ∀ reader error after, reading.on reader = (.error error, after) →
    HeaderFault parent start after.offset error

namespace HeaderFaults

variable {α β : Type} {parent : Option Header} {start : Nat}

theorem pure (value : α) : HeaderFaults parent start (Pure.pure value : Reading α) := by
  intro reader error after failed
  cases failed

theorem get : HeaderFaults parent start (MonadState.get : Reading Reader) := by
  intro reader error after failed
  cases failed

theorem throw {error : DecodeError} (fault : ∀ position, HeaderFault parent start position error) :
    HeaderFaults parent start (MonadExcept.throw error : Reading α) := by
  intro reader error after failed
  cases failed
  exact fault _

theorem bind {first : Reading α} {rest : α → Reading β} (front : HeaderFaults parent start first)
    (back : ∀ value, HeaderFaults parent start (rest value)) :
    HeaderFaults parent start (first >>= rest) := by
  intro reader error after failed
  rw [Attempt.on_bind] at failed
  rcases ran : first.on reader with ⟨error' | value, middle⟩
  · rw [ran] at failed
    cases failed
    exact front _ _ _ ran
  · rw [ran] at failed
    exact back value _ _ _ failed

theorem headerOctet? (first : Bool) :
    HeaderFaults parent start (headerOctet? parent start first) := by
  intro reader error after failed
  by_cases inside : Within parent (reader.offset + 1)
  · rw [headerOctet?_of_within inside, unboundedOctet?, Attempt.on_bind] at failed
    cases next : reader.source.next with
    | octet octet rest =>
        rw [nextOctet?_octet next] at failed
        cases failed
    | exhausted rest =>
        rw [nextOctet?_exhausted next] at failed
        dsimp only at failed
        split at failed
        · cases failed
        · cases failed
          exact .ended
    | failed reason rest =>
        rw [nextOctet?_failed next] at failed
        cases failed
        exact .source reason
  · cases parent with
    | none => exact absurd (within_none _) inside
    | some parent =>
        rw [within_some, Nat.not_le, Nat.lt_add_one_iff] at inside
        rw [headerOctet?_of_stop_le inside] at failed
        cases failed
        exact .past rfl inside

/-- Inside a header there always is an octet, or an error that says why there is none. -/
theorem headerOctet : HeaderFaults parent start (headerOctet parent start) := by
  intro reader error after failed
  rw [Reader.headerOctet, Attempt.on_bind] at failed
  rcases asked : (Reader.headerOctet? parent start false).on reader with
    ⟨error' | none | octet, middle⟩
  · rw [asked] at failed
    cases failed
    exact headerOctet? false _ _ _ asked
  · cases (headerOctet?_none_iff.1 asked).1
  · rw [asked] at failed
    cases failed

theorem readIdentifier (pending : Identifier.Pending) :
    HeaderFaults parent start (readIdentifier parent start pending) := by
  induction room : pending.room using Nat.strongRecOn generalizing pending with
  | ind _ ih =>
      rw [Reader.readIdentifier]
      refine (headerOctet? _).bind fun octet? => ?_
      cases octet? with
      | none => exact .pure _
      | some octet =>
          refine HeaderFaults.get.bind fun reader => ?_
          dsimp only
          split
          · exact .throw fun _ => .identifier _
          · exact .pure _
          · rename_i later pushed
            exact (ih _ (room ▸ Identifier.Pending.room_push pushed) later rfl).bind
              fun _ => .pure _

theorem headerOctets (count : Nat) :
    HeaderFaults parent start (headerOctets parent start count) := by
  induction count with
  | zero => exact .pure _
  | succ count ih => exact headerOctet.bind fun _ => ih.bind fun _ => .pure _

theorem readLength : HeaderFaults parent start (readLength parent start) := by
  refine headerOctet.bind fun first => ?_
  dsimp only
  split
  · exact .pure _
  · split
    · exact .throw fun _ => .indefinite
    · split
      · exact .throw fun _ => .long _
      · exact (headerOctets _).bind fun _ => .pure _

end HeaderFaults

variable {parent : Option Header} {reader after : Reader} {error : DecodeError}

theorem headerFault
    (failed : (readHeader parent).on reader = (.error error, after)) :
    HeaderFault parent reader.offset after.offset error := by
  rw [readHeader, Attempt.on_bind, Attempt.on_get] at failed
  refine (HeaderFaults.readIdentifier .fresh).bind (fun found => ?_) _ _ _ failed
  cases found with
  | none => exact .pure _
  | some found => exact HeaderFaults.readLength.bind fun _ => .pure _

/-- Why no element can be opened inside `parent` by a reader that stood at `start` before and
stands at `position` now. -/
inductive OpeningFault (parent : Option Header) (start position : Nat) : DecodeError → Prop where
  | header {error : DecodeError} :
      HeaderFault parent start position error → OpeningFault parent start position error
  | overrun {outer child : Header} : outer ∈ parent → child.offset = start →
      child.contentStart = position → start < position → outer.stop < child.stop →
      OpeningFault parent start position (.corrupt start outer.offset "" <|
        .childrenMisfit outer.length (child.stop - outer.contentStart))
  | tooDeep (limit : Nat) : OpeningFault parent start position
      (.corrupt start (parent.map (·.offset)) "" (.tooDeep limit))

private theorem openingFault_of_misplaced {limit depth : Nat} {header : Header}
    (longer : header.offset < header.contentStart)
    (found : misplaced? parent limit depth header = some error) :
    OpeningFault parent header.offset header.contentStart error := by
  rw [misplaced?, Option.or_eq_some_iff] at found
  rcases found with long | ⟨-, deep⟩
  · cases parent with
    | none => cases long
    | some outer =>
        simp only [overrun?] at long
        split at long
        · rename_i beyond
          cases long
          exact .overrun rfl rfl rfl longer beyond
        · cases long
  · rw [tooDeep?] at deep
    split at deep
    · cases deep
      exact .tooDeep limit
    · cases deep

theorem openingFault {depth : Nat}
    (failed : (openElement parent depth).on reader = (.error error, after)) :
    OpeningFault parent reader.offset after.offset error := by
  rw [openElement_on] at failed
  rcases read : (readHeader parent).on reader with ⟨error' | none | header, middle⟩
  · rw [read] at failed
    cases failed
    exact .header (headerFault read)
  · rw [read] at failed
    cases failed
  · obtain ⟨heading, rfl, -, source, -, rfl⟩ := readHeader_some_iff.1 read
    have longer : reader.offset < reader.offset + heading.octets.length :=
      Nat.lt_add_of_pos_right (List.length_pos_iff.2 heading.octets_ne_nil)
    have stands : (atHand parent (heading.header reader.offset)
        (reader.advance heading.octets.length source)).offset =
          (heading.header reader.offset).contentStart := by
      cases parent <;> rfl
    rw [read] at failed
    dsimp only at failed
    split at failed
    · rename_i found
      cases failed
      rw [stands]
      exact openingFault_of_misplaced longer found
    · cases failed

/-- Why a reader that stood at `start` inside `top`, and stands at `position` now, gives no
signal. -/
inductive StepFault (top : Open) (start position : Nat) : DecodeError → Prop where
  | opening {error : DecodeError} : top.header.constructed = true → start < top.header.stop →
      OpeningFault (some top.header) start position error → StepFault top start position error
  | astray : top.header.constructed = true → top.header.stop < start →
      StepFault top start position (.corrupt start top.header.offset "" <|
        .childrenMisfit top.header.length (start - top.header.contentStart))
  | valueCut (found : Nat) : StepFault top start position (.corrupt position top.header.offset "" <|
      .valueCut top.header.length top.header.tag found)
  | source (reason : String) : StepFault top start position (.source reason)

private theorem stepFault_of_readValue {top : Open}
    (failed : (readValue top.header).on reader = (.error error, after)) :
    StepFault top reader.offset after.offset error := by
  simp only [Attempt.on, ExceptT.run, StateT.run, readValue] at failed
  split at failed
  · cases failed
  · cases failed
    exact .valueCut _
  · cases failed
    exact .source _

theorem stepFault {top : Open} {outer : List Open}
    (failed : (step top outer).on reader = (.error error, after)) :
    StepFault top reader.offset after.offset error := by
  rw [step] at failed
  cases constructed : top.header.constructed with
  | true =>
      simp only [constructed, ↓reduceIte, Attempt.on_bind, Attempt.on_get] at failed
      split at failed
      · rename_i inside
        rw [Attempt.on_bind] at failed
        rcases opened : (openElement (some top.header) (outer.length + 1)).on reader with
          ⟨error' | none | child, middle⟩
        · rw [opened] at failed
          cases failed
          exact .opening constructed inside (openingFault opened)
        · -- That there is no header at all happens between top-level elements only.
          cases (openElement_none_iff.1 opened).1
        · rw [opened] at failed
          cases failed
      · split at failed
        · cases failed
        · cases failed
          exact .astray constructed (by omega)
  | false =>
      simp only [constructed, Bool.false_eq_true, ↓reduceIte] at failed
      split at failed
      · cases failed
      · rw [Attempt.on_bind] at failed
        rcases read : (readValue top.header).on reader with ⟨error' | octets, middle⟩
        · rw [read] at failed
          cases failed
          exact stepFault_of_readValue read
        · rw [read] at failed
          cases failed

end BerRecords.Reader
