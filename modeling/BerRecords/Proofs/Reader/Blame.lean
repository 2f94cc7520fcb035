import BerRecords.Proofs.Reader.AtHand
import BerRecords.Proofs.Reader.Faults

/-!
# Where errors lie

Whatever a reader cannot make sense of, the offset that it blames lies between the place
where it began to read and the place that it has come to. A top-level element that fails
has cost it at least one octet, unless the source failed first.
-/

set_option autoImplicit false

namespace BerRecords.Reader

variable {α : Type} {start : Nat}

/-- The error of a reading lies between where it began and where it ended. -/
def Blamed (start : Nat) (ran : Except DecodeError α × Reader) : Prop :=
  ∀ error, ran.1 = .error error →
    ∀ offset ∈ error.offset?, start ≤ offset ∧ offset ≤ ran.2.offset

theorem HeaderFault.offset?_eq {parent : Option Header} {position : Nat} {error : DecodeError}
    (fault : HeaderFault parent start position error) :
    ∀ offset ∈ error.offset?, offset = start ∨ offset = position := by
  cases fault with
  | source => rintro offset ⟨⟩
  | ended =>
      rintro offset ⟨⟩
      exact .inr rfl
  | past | identifier | indefinite | long =>
      rintro offset ⟨⟩
      exact .inl rfl

theorem OpeningFault.offset?_eq {parent : Option Header} {position : Nat} {error : DecodeError}
    (fault : OpeningFault parent start position error) :
    ∀ offset ∈ error.offset?, offset = start ∨ offset = position := by
  cases fault with
  | header fault => exact fault.offset?_eq
  | overrun | tooDeep =>
      rintro offset ⟨⟩
      exact .inl rfl

theorem StepFault.offset?_eq {top : Open} {position : Nat} {error : DecodeError}
    (fault : StepFault top start position error) :
    ∀ offset ∈ error.offset?, offset = start ∨ offset = position := by
  cases fault with
  | opening _ _ fault => exact fault.offset?_eq
  | astray =>
      rintro offset ⟨⟩
      exact .inl rfl
  | valueCut =>
      rintro offset ⟨⟩
      exact .inr rfl
  | source => rintro offset ⟨⟩

private theorem blamed_of_eq {ran : Except DecodeError α × Reader} (onward : start ≤ ran.2.offset)
    (ends : ∀ error, ran.1 = .error error →
      ∀ offset ∈ error.offset?, offset = start ∨ offset = ran.2.offset) : Blamed start ran := by
  intro error failed offset blamed
  rcases ends error failed offset blamed with rfl | rfl
  · exact ⟨Nat.le_refl _, onward⟩
  · exact ⟨onward, Nat.le_refl _⟩

theorem blamed_openElement (parent : Option Header) (depth : Nat) (reader : Reader) :
    Blamed reader.offset ((openElement parent depth).on reader) :=
  blamed_of_eq (stays_openElement depth reader).takes.offset_le
    fun _ failed => (openingFault (Prod.ext failed rfl)).offset?_eq

theorem blamed_step (top : Open) (outer : List Open) (reader : Reader) :
    Blamed reader.offset ((step top outer).on reader) :=
  blamed_of_eq (takes_step top outer reader).offset_le
    fun _ failed => (stepFault (Prod.ext failed rfl)).offset?_eq

private theorem readIdentifier_lt {reader : Reader} {octet : UInt8} {source : Source}
    (next : reader.source.next = .octet octet source) :
    reader.offset < ((readIdentifier none start .fresh).on reader).2.offset := by
  have found : (headerOctet? none start (Identifier.Pending.fresh = .fresh)).on reader =
      (.ok (some octet), reader.advance 1 source) :=
    headerOctet?_some_iff.2 ⟨within_none _, source, next, rfl⟩
  rw [readIdentifier_of_octet found]
  split
  · exact Nat.lt_succ_self _
  · exact Nat.lt_succ_self _
  · rename_i later _
    have onward := (@stays_readIdentifier none start later (reader.advance 1 source)).takes.offset_le
    split
    · rename_i ran
      rw [ran] at onward
      exact onward
    · rename_i ran
      rw [ran] at onward
      exact onward

private theorem readHeader_error_lt {reader after : Reader} {error : DecodeError}
    (faultless : reader.source.Faultless)
    (failed : (readHeader none).on reader = (.error error, after)) :
    reader.offset < after.offset := by
  cases next : reader.source.next with
  | octet octet source =>
      have first := @readIdentifier_lt reader.offset _ _ _ next
      rw [readHeader, Attempt.on_bind, Attempt.on_get] at failed
      dsimp only at failed
      rw [Attempt.on_bind] at failed
      rcases identified : (readIdentifier none reader.offset .fresh).on reader with
        ⟨error' | none | found, middle⟩
      · rw [identified] at first failed
        cases failed
        exact first
      · rw [identified] at failed
        cases failed
      · have onward := (@stays_readLength none reader.offset middle).takes.offset_le
        rw [identified] at first failed
        dsimp only at failed
        rw [Attempt.on_bind] at failed
        rcases measured : (readLength none reader.offset).on middle with ⟨error' | length, last⟩
        · rw [measured] at failed onward
          cases failed
          exact Nat.lt_of_lt_of_le first onward
        · rw [measured] at failed
          cases failed
  | exhausted source =>
      cases failed.symm.trans (readHeader_none_iff.2 ⟨rfl, source, next, rfl⟩)
  | failed reason source => exact absurd next (faultless.next.2 reason source)

/-- A top-level element that fails has cost the reader an octet, if the source never fails. -/
theorem nextElement_error_lt {σ : Type} {visitor : Visitor σ} {reader after : Reader}
    {state state' : σ} {error : DecodeError} (faultless : reader.source.Faultless)
    (failed : (nextElement visitor).on (reader, state) = (.error error, after, state')) :
    reader.offset < after.offset := by
  rcases headed : (readHeader none).on reader.between with ⟨error' | none | header, opened⟩
  · rw [nextElement_on, openElement_on, headed] at failed
    cases failed
    exact @readHeader_error_lt reader.between _ _ faultless headed
  · rw [nextElement_on, openElement_on, headed] at failed
    cases failed
  · obtain ⟨heading, -, -, source, passes, -⟩ := readHeader_some_iff.1 headed
    have handled := @handled_nextElement _ visitor reader state _ rfl heading source passes
    rw [failed] at handled
    cases handled with
    | stuck _ started =>
        have some_octets := List.length_pos_iff.2 heading.octets_ne_nil
        have reached : reader.offset + heading.octets.length ≤ after.offset := started
        exact Nat.lt_of_lt_of_le (Nat.lt_add_of_pos_right some_octets) reached

end BerRecords.Reader
