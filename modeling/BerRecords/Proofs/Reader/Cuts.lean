import BerRecords.Proofs.Displacement.Drive
import BerRecords.Proofs.Reader.Resynchronisation
import BerRecords.Proofs.Source.Calls

/-!
# Where a source is cut does not show

A reader asks for header octets, for values and for what is to be skipped in three loops of
read calls. All three get what the source holds, wherever its pieces end and however often it
asks to be asked again. So readers whose sources hold the same octets stay alike.
-/

set_option autoImplicit false

namespace BerRecords

/-! ## Displacement by nothing -/

theorem DecodeError.displace_zero (error : DecodeError) : error.displace 0 = error := by
  cases error with
  | corrupt offset element path cause => cases element <;> rfl
  | mismatch | unbalanced | schema | source => rfl

theorem Attempt.displace_zero {σ α : Type} (ran : Except DecodeError α × σ) :
    Attempt.displace 0 id ran = ran := by
  obtain ⟨error | value, state⟩ := ran
  · rw [Attempt.displace, DecodeError.displace_zero]
    rfl
  · rfl

theorem Visitor.moves_zero {σ : Type} (visitor : Visitor σ) : visitor.Moves 0 id := by
  intro signal state
  rw [Attempt.displace_zero]
  cases signal with
  | start | value | stop => rfl

namespace Reader

variable {σ : Type} {reader near far : Reader} {header : Header} {taken : Source.Taken}

/-! ## The loops -/

def octetByCall? : Reading (Option UInt8) := fun reader =>
  match reader.source.readSome 1 with
  | (.ok octets, rest) => (.ok octets.head?, reader.advance octets.length rest)
  | (.error reason, rest) => (.error (.source reason), { reader with source := rest })

/-- What a reader makes of the octets that came for a value. They are counted when the
source did not fail, and are a value if there are enough of them. -/
def valueOf (header : Header) (taken : Source.Taken) : Reading Octets := fun reader =>
  match taken.halt with
  | .failed reason => (.error (.source reason), { reader with source := taken.rest })
  | _ =>
    let reader := reader.advance taken.octets.length taken.rest
    if taken.octets.length < header.length then
      (.error (.corrupt reader.offset header.offset "" <|
        .valueCut header.length header.tag taken.octets.length), reader)
    else (.ok taken.octets, reader)

/-- A value, by read calls up to its end or the end of the source. -/
def ReadsValue (header : Header) (reader : Reader) (ran : Except DecodeError Octets × Reader) :
    Prop :=
  ∃ taken, Source.ReadsToEnd header.length reader.source taken ∧
    (valueOf header taken).on reader = ran

def discardByCalls (buffer remaining : Nat) : Reading Bool := fun reader =>
  if remaining = 0 then (.ok true, reader)
  else
    match reader.source.readSome (min remaining buffer) with
    | (.error reason, rest) => (.error (.source reason), { reader with source := rest })
    | (.ok octets, rest) =>
      let reader := reader.advance octets.length rest
      if octets.length = 0 then (.ok false, reader)
      else discardByCalls buffer (remaining - octets.length) reader
termination_by remaining

def skipBuffer : Nat := 64 * 1024

def skipByCalls : Reading Bool := fun reader =>
  match reader.current with
  | none => (.ok false, reader)
  | some header =>
    let reader := reader.between
    if header.stop < reader.offset then (.ok false, reader)
    else
      let remaining := header.stop - reader.offset
      (discardByCalls (min skipBuffer remaining) remaining).on reader

theorem nextOctet?_eq_octetByCall? (reader : Reader) :
    nextOctet?.on reader = octetByCall?.on reader := by
  simp only [Attempt.on, ExceptT.run, StateT.run, nextOctet?, octetByCall?, Source.readSome_one]
  cases reader.source.next with
  | octet | exhausted | failed => rfl

theorem valueOf_take (header : Header) (reader : Reader) :
    (valueOf header (reader.source.take header.length)).on reader =
      (readValue header).on reader := by
  simp only [Attempt.on, ExceptT.run, StateT.run, valueOf, readValue]
  cases halt : (reader.source.take header.length).halt with
  | failed => rfl
  | filled =>
      have whole := (Source.passes_take halt).2
      simp only [whole, Nat.lt_irrefl, ↓reduceIte]
      rfl
  | exhausted =>
      have short := Source.length_lt_of_exhausted halt
      simp only [short, ↓reduceIte]
      rfl

/-- However many octets the calls ask for, the same value comes of them. -/
theorem readsValue_iff {ran : Except DecodeError Octets × Reader} :
    ReadsValue header reader ran ↔ ran = (readValue header).on reader := by
  rw [← valueOf_take]
  constructor
  · rintro ⟨taken, reads, rfl⟩
    rw [Source.readsToEnd_iff.1 reads]
  · rintro rfl
    exact ⟨_, Source.readsToEnd_iff.2 rfl, rfl⟩

/-- Discarding takes the octets that a request for as many takes. -/
theorem discardByCalls_eq {buffer remaining : Nat} (roomy : 0 < remaining → 0 < buffer)
    (reader : Reader) :
    let taken := reader.source.take remaining
    (discardByCalls buffer remaining).on reader =
      (match taken.halt with
        | .filled => .ok true
        | .exhausted => .ok false
        | .failed reason => .error (.source reason),
        reader.advance taken.octets.length taken.rest) := by
  induction remaining using Nat.strongRecOn generalizing reader with
  | ind remaining ih =>
      simp only [Attempt.on, ExceptT.run, StateT.run] at ih ⊢
      rw [discardByCalls]
      rcases Nat.eq_zero_or_pos remaining with rfl | left
      · rfl
      · have asked : 0 < min remaining buffer := Nat.lt_min.2 ⟨left, roomy left⟩
        have gives := Source.gives_readSome asked reader.source
        rw [if_neg (Nat.ne_of_gt left)]
        generalize reader.source.readSome (min remaining buffer) = given at gives
        cases gives with
        | none ends => simp [Source.take_of_exhausted left ends]
        | failed fails =>
            simp only [Source.take_of_failed left fails]
            rfl
        | some nonempty few passes =>
            rename_i octets rest
            have length := List.length_pos_iff.2 nonempty
            have later := ih (remaining - octets.length) (by omega) (fun _ => roomy left)
              (reader.advance octets.length rest)
            simp only [Nat.ne_of_gt length, ↓reduceIte, later, advance_source,
              passes.take_eq (Nat.le_trans few (Nat.min_le_left _ _)), advance_advance,
              List.length_append]

theorem skipCurrent_eq_skipByCalls (reader : Reader) :
    skipCurrent.on reader = skipByCalls.on reader := by
  cases hand : reader.current with
  | none =>
      rw [skipCurrent_idle hand]
      simp only [Attempt.on, ExceptT.run, StateT.run, skipByCalls, hand]
  | some header =>
      rcases Nat.lt_or_ge header.stop reader.offset with past | inside
      · rw [skipCurrent_past hand past]
        have past' : header.stop < reader.between.offset := past
        simp only [Attempt.on, ExceptT.run, StateT.run, skipByCalls, hand, past', ↓reduceIte]
      · rw [skipCurrent_inside hand inside]
        have inside' : ¬header.stop < reader.between.offset := Nat.not_lt.2 inside
        have discarded := @discardByCalls_eq (min skipBuffer (header.stop - reader.offset)) _
          (fun left => Nat.lt_min.2 ⟨by decide, left⟩) reader.between
        simp only [Attempt.on, ExceptT.run, StateT.run, skipByCalls, hand, inside', ↓reduceIte]
        exact discarded.symm

/-! ## Readers whose sources hold the same -/

def Twins (near far : Reader) : Prop :=
  ∃ stop, Beside 0 [] stop near far

theorem twins_ofSource (encoding : TagEncoding) (maxDepth : Nat) {source source' : Source}
    {octets : Octets} (delivers : source.Delivers octets) (delivers' : source'.Delivers octets) :
    Twins (ofSource encoding maxDepth source) (ofSource encoding maxDepth source') := by
  refine ⟨octets.length, ⟨octets, delivers, ?_, Nat.zero_add _⟩, rfl, rfl, rfl, rfl⟩
  rw [List.append_nil]
  exact delivers'

/-- What a client sees of a run: what it gave, the state of the visitor, how far the reader
has counted and which element is at hand. -/
def seen {α : Type} (ran : α × Reader × σ) : α × σ × Nat × Option Header :=
  (ran.1, ran.2.2, ran.2.1.offset, ran.2.1.current)

theorem Twins.seen_eq {α : Type} {ran ran' : α × Reader × σ} (twins : Twins ran.2.1 ran'.2.1)
    (result_eq : ran'.1 = ran.1) (state_eq : ran'.2.2 = ran.2.2) : seen ran = seen ran' := by
  obtain ⟨stop, beside⟩ := twins
  have current_eq := beside.current_eq
  rw [show Header.displace 0 = id from rfl, Option.map_id] at current_eq
  rw [seen, seen, result_eq, state_eq, beside.offset_eq, current_eq]
  rfl

theorem twins_nextElement (twins : Twins near far) (visitor : Visitor σ) (state : σ) :
    let ran := (nextElement visitor).on (near, state)
    let ran' := (nextElement visitor).on (far, state)
    ran'.1 = ran.1 ∧ ran'.2.2 = ran.2.2 ∧ Twins ran.2.1 ran'.2.1 := by
  obtain ⟨stop, beside⟩ := twins
  have read := drives_nextElement visitor.moves_zero state beside (.inl rfl)
  dsimp only [id] at read ⊢
  generalize (nextElement visitor).on (near, state) = ran at read ⊢
  generalize (nextElement visitor).on (far, state) = ran' at read ⊢
  cases read with
  | error related =>
      obtain ⟨rfl, beside, same⟩ := related
      exact ⟨by rw [DecodeError.displace_zero], same, stop, beside⟩
  | ok related =>
      obtain ⟨rfl, beside, same⟩ := related
      refine ⟨?_, same, stop, beside⟩
      rw [show Header.displace 0 = id from rfl, Option.map_id]
      rfl

theorem twins_skipCurrent (twins : Twins near far) :
    (skipCurrent.on far).1 = (skipCurrent.on near).1 ∧
      Twins (skipCurrent.on near).2 (skipCurrent.on far).2 := by
  obtain ⟨stop, beside⟩ := twins
  have skipped := reads_skipCurrent beside (.inl rfl)
  generalize skipCurrent.on near = ran at skipped ⊢
  generalize skipCurrent.on far = ran' at skipped ⊢
  cases skipped with
  | error related => exact ⟨by rw [related.1, DecodeError.displace_zero], stop, related.2⟩
  | ok related => exact ⟨by rw [related.1]; rfl, stop, related.2⟩

theorem twins_process (twins : Twins near far) (visitor : Visitor σ) (state : σ) :
    let ran := process visitor near state
    let ran' := process visitor far state
    ran'.1 = ran.1 ∧ ran'.2.2 = ran.2.2 ∧ Twins ran.2.1 ran'.2.1 := by
  induction bound : near.remaining using Nat.strongRecOn generalizing near far state with
  | ind _ ih =>
      have first := twins_nextElement twins visitor state
      rw [process_on visitor near, process_on visitor far]
      dsimp only at first ⊢
      rcases read : (nextElement visitor).on (near, state) with ⟨result, near', state'⟩
      rcases read' : (nextElement visitor).on (far, state) with ⟨result', far', state''⟩
      rw [read, read'] at first
      obtain ⟨same, same', twins'⟩ := first
      dsimp only at same same' twins'
      subst same same'
      match result' with
      | .error error => exact ⟨rfl, rfl, twins'⟩
      | .ok none => exact ⟨rfl, rfl, twins'⟩
      | .ok (some header) => exact ih _ (bound ▸ nextElement_some read) twins' _ rfl

theorem Twins.follow (twins : Twins near far) (calls : List Call) :
    Twins (follow near calls) (follow far calls) := by
  induction calls generalizing near far with
  | nil => exact twins
  | cons call calls ih =>
      refine ih ?_
      cases call with
      | next visitor state => exact (twins_nextElement twins visitor state).2.2
      | skip => exact (twins_skipCurrent twins).2

end Reader

end BerRecords
