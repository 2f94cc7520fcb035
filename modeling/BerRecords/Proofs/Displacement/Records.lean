import BerRecords.Proofs.Displacement.Assembler
import BerRecords.Proofs.Displacement.Drive
import BerRecords.Proofs.Displacement.Walk

/-! Decoding further on in a longer stream, after other elements. -/

set_option autoImplicit false

namespace BerRecords.Records

variable {σ β : Type} {distance count stop : Nat} {beyond : Octets} {move : σ → σ} {shift : β → β}
  {schema : Schema} {assembler : Assembler σ β} {options : DecodeOptions} {near far : Records σ}

/-- The source of `near` ends at `stop`. `far` has `count` elements before, and its source
goes on with the octets `beyond`. -/
structure Alike (distance count : Nat) (beyond : Octets) (stop : Nat) (move : σ → σ)
    (near far : Records σ) : Prop where
  reader : Reader.Beside distance beyond stop near.reader far.reader
  walk_eq : far.walk = near.walk.displace distance (Recording.displace distance move)
  index_eq : far.index = near.index + count
  done_eq : far.done = near.done

theorem alike_giveUp (moves : assembler.Moves distance move shift)
    (alike : Alike distance count beyond stop move near far)
    (bounded : beyond = [] ∨ ∀ header ∈ near.reader.current, header.stop ≤ stop)
    (index offset : Nat) (error : DecodeError) :
    let given := giveUp assembler options index offset error near
    let given' := giveUp assembler options (index + count) (offset + distance)
      (error.displace distance) far
    given'.1 = given.1.displace distance count shift ∧
      Alike distance count beyond stop move given.2 given'.2 := by
  obtain ⟨beside, walk_eq, index_eq, done_eq⟩ := alike
  have path : far.walk.path = near.walk.path := by rw [walk_eq]; rfl
  have fresh : (Walk.start ⟨assembler.discard far.walk.sink.inner, #[]⟩ : Walk (Recording σ)) =
      (Walk.start ⟨assembler.discard near.walk.sink.inner, #[]⟩ : Walk (Recording σ)).displace
        distance (Recording.displace distance move) := by
    simp [walk_eq, Walk.displace, Walk.start, Recording.displace, moves.discard]
  simp only [giveUp, path, DecodeError.displace_withPath, DecodeError.displace_isFatal, fresh]
  split
  · exact ⟨rfl, beside, rfl, index_eq, rfl⟩
  · have skipped := Reader.reads_skipCurrent beside bounded
    generalize Reader.skipCurrent.on near.reader = ran at skipped ⊢
    generalize Reader.skipCurrent.on far.reader = ran' at skipped ⊢
    cases skipped with
    | error related => exact ⟨rfl, related.2, rfl, index_eq, rfl⟩
    | @ok _ _ found _ related =>
        obtain ⟨rfl, beside⟩ := related
        cases found with
        | true => exact ⟨rfl, beside, rfl, index_eq, done_eq⟩
        | false => exact ⟨rfl, beside, rfl, index_eq, rfl⟩

theorem alike_next (moves : assembler.Moves distance move shift)
    (alike : Alike distance count beyond stop move near far)
    (headed : beyond = [] ∨ Reader.Headed stop near.reader) :
    let given := next schema assembler options near
    let given' := next schema assembler options far
    given'.1 = given.1.map (Outcome.displace distance count shift) ∧
      Alike distance count beyond stop move given.2 given'.2 := by
  obtain ⟨beside, walk_eq, index_eq, done_eq⟩ := alike
  simp only [next, done_eq]
  cases done : near.done with
  | true => exact ⟨rfl, beside, walk_eq, index_eq, done_eq⟩
  | false =>
      have visits := @Walk.moves_visitor _ _ _ (rules schema options) _
        (Recording.moves_sink moves.sink)
      have read := Reader.drives_nextElement visits near.walk beside headed
      have bounded : beyond = [] ∨ ∀ header ∈ ((Reader.nextElement (Walk.visitor
          (rules schema options) (Recording.sink assembler.sink))).on
            (near.reader, near.walk)).2.1.current, header.stop ≤ stop := by
        refine headed.imp_right fun headed => ?_
        rcases headed.reads_element (Walk.visitor (rules schema options)
          (Recording.sink assembler.sink)) near.walk with
          ⟨error, after, walk, ran, -, header, hand, ends⟩ | ⟨header, after, walk, ran, -, idle, -⟩
        · rw [ran, hand]
          simp [ends]
        · rw [ran, idle]
          simp
      rw [walk_eq, index_eq, beside.offset_eq]
      simp only [Bool.false_eq_true, ↓reduceIte]
      generalize (Reader.nextElement _).on (near.reader, near.walk) = ran at read bounded ⊢
      generalize (Reader.nextElement _).on (far.reader, _) = ran' at read ⊢
      have next_index : near.index + count + 1 = near.index + 1 + count := Nat.add_right_comm _ _ _
      cases read with
      | @error error left _ left' related =>
          obtain ⟨reader, walk⟩ := left
          obtain ⟨reader', walk'⟩ := left'
          obtain ⟨rfl, beside', rfl⟩ := related
          have failed : Alike distance count beyond stop move
              ⟨reader, walk, near.index + 1, false⟩ ⟨reader', _, near.index + count + 1, false⟩ :=
            ⟨beside', rfl, next_index, rfl⟩
          have given := @alike_giveUp _ _ _ _ _ _ _ _ _ options _ _ moves failed bounded
            near.index near.reader.offset error
          exact ⟨congrArg some given.1, given.2⟩
      | @ok header? left _ left' related =>
          obtain ⟨reader, walk⟩ := left
          obtain ⟨reader', walk'⟩ := left'
          obtain ⟨rfl, beside', rfl⟩ := related
          cases header? with
          | none => exact ⟨rfl, beside', rfl, rfl, rfl⟩
          | some header =>
              simp only [Option.map_some]
              have finished := moves.finish walk.sink.inner
              simp only [Walk.displace, Recording.displace, finished]
              rcases assembler.finish walk.sink.inner with ⟨_ | content, inner⟩
              · have failed : Alike distance count beyond stop move
                    ⟨reader, { walk with sink := ⟨inner, #[]⟩ }, near.index + 1, false⟩
                    ⟨reader', { walk.displace distance (Recording.displace distance move) with
                      sink := ⟨move inner, #[]⟩ }, near.index + count + 1, false⟩ :=
                  ⟨beside', by simp [Walk.displace, Recording.displace], next_index, rfl⟩
                have given := @alike_giveUp _ _ _ _ _ _ _ _ _ options _ _ moves failed bounded
                  near.index near.reader.offset (.unbalanced "" .noRecord)
                exact ⟨congrArg some given.1, given.2⟩
              · refine ⟨?_, beside', ?_, next_index, rfl⟩
                · simp [Outcome.displace]
                · simp [Walk.displace, Recording.displace]

private theorem finishFrom_eq (steps : Array (Step β)) (records : Records σ) :
    (finishFrom schema assembler options steps records).1.toList =
      steps.toList ++ (finishFrom schema assembler options #[] records).1.toList := by
  induction bound : records.ahead using Nat.strongRecOn generalizing steps records with
  | ind _ ih =>
      rw [finishFrom, finishFrom]
      split
      · simp
      · rename_i given
        have fewer := bound ▸ ahead_next given
        rw [ih _ fewer _ _ rfl, ih _ fewer (#[].push _) _ rfl]
        simp

/-- The outcomes of a decoding are the next one and those after it. -/
theorem finish_eq (records : Records σ) :
    (finish schema assembler options records).1 =
      match next schema assembler options records with
      | (none, _) => []
      | (some outcome, after) =>
        ⟨outcome, after.reader.offset⟩ :: (finish schema assembler options after).1 := by
  show (finishFrom schema assembler options #[] records).1.toList = _
  rw [finishFrom]
  split
  · rename_i given
    rw [given]
  · rename_i given
    rw [given, finishFrom_eq]
    rfl

/-- Further on, a stream has the same outcomes, only further on. -/
theorem finish_displace (moves : assembler.Moves distance move shift)
    (alike : Alike distance count [] stop move near far) :
    (finish schema assembler options far).1 =
      (finish schema assembler options near).1.map (Step.displace distance count shift) := by
  induction bound : near.ahead using Nat.strongRecOn generalizing near far with
  | ind _ ih =>
      obtain ⟨same, alike⟩ :=
        @alike_next _ _ _ _ _ _ _ _ schema _ options _ _ moves alike (.inl rfl)
      rw [finish_eq far, finish_eq near]
      rcases given : next schema assembler options near with ⟨_ | outcome, after⟩
      · rw [given] at same
        rcases given' : next schema assembler options far with ⟨_ | outcome', after'⟩
        · rfl
        · rw [given'] at same
          cases same
      · rw [given] at same alike
        rcases given' : next schema assembler options far with ⟨_ | outcome', after'⟩
        · rw [given'] at same
          cases same
        · rw [given'] at same alike
          cases same
          have later := ih _ (bound ▸ ahead_next given) alike rfl
          have reached : after'.reader.offset = after.reader.offset + distance :=
            alike.reader.offset_eq
          simp only [List.map_cons, later, reached, Step.displace]

end BerRecords.Records
