import BerRecords.Records

/-!
# Whole streams

Decoding a stream to its end. Every outcome but the last takes octets from the
source, so a finite source has finitely many outcomes.
-/

set_option autoImplicit false

namespace BerRecords

namespace Records

variable {σ β : Type}

/-- Giving up ends the decoding or finds the end of an element at hand. -/
theorem giveUp_later (assembler : Assembler σ β) (options : DecodeOptions) (index offset : Nat)
    (error : DecodeError) (records : Records σ) :
    (giveUp assembler options index offset error records).2.done = true ∨
      records.reader.current ≠ none ∧
        (giveUp assembler options index offset error records).2.reader.remaining ≤
          records.reader.remaining := by
  simp only [giveUp]
  split
  · exact .inl rfl
  · split
    · rename_i reader skipped
      have later := Reader.skipCurrent_later skipped
      exact .inr ⟨later.2 rfl, later.1⟩
    · exact .inl rfl

theorem next_some {schema : Schema} {assembler : Assembler σ β} {options : DecodeOptions}
    {records after : Records σ} {outcome : Outcome β}
    (given : next schema assembler options records = (some outcome, after)) :
    records.done = false ∧
      (after.done = true ∨ after.reader.remaining < records.reader.remaining) := by
  simp only [next] at given
  split at given
  · cases given
  · rename_i going
    refine ⟨by simpa using going, ?_⟩
    split at given
    · cases given
    · rename_i error reader walk failed
      have hand := Reader.nextElement_current failed
      cases given
      rcases giveUp_later assembler options records.index records.reader.offset error
        ⟨reader, walk, records.index + 1, false⟩ with ended | ⟨current, bound⟩
      · exact .inl ended
      · exact .inr (Nat.lt_of_le_of_lt bound (hand current))
    · rename_i header reader walk read
      have fewer := Reader.nextElement_some read
      split at given
      · cases given
        exact .inr fewer
      · rename_i inner none_finished
        cases given
        rcases giveUp_later assembler options records.index records.reader.offset
          (.unbalanced "" .noRecord)
          ⟨reader, { walk with sink := ⟨inner, #[]⟩ }, records.index + 1, false⟩ with
          ended | ⟨-, bound⟩
        · exact .inl ended
        · exact .inr (Nat.lt_of_le_of_lt bound fewer)

def ahead (records : Records σ) : Nat :=
  if records.done then 0 else records.reader.remaining + 1

theorem ahead_next {schema : Schema} {assembler : Assembler σ β} {options : DecodeOptions}
    {records after : Records σ} {outcome : Outcome β}
    (given : next schema assembler options records = (some outcome, after)) :
    after.ahead < records.ahead := by
  obtain ⟨going, ended | fewer⟩ := next_some given
  · simp [ahead, going, ended]
  · simp only [ahead, going]
    split
    · simp
    · simpa using fewer

structure Step (β : Type) where
  outcome : Outcome β
  consumed : Nat

def finishFrom (schema : Schema) (assembler : Assembler σ β) (options : DecodeOptions)
    (steps : Array (Step β)) (records : Records σ) : Array (Step β) × Records σ :=
  match _given : next schema assembler options records with
  | (none, records) => (steps, records)
  | (some outcome, records) =>
    finishFrom schema assembler options (steps.push ⟨outcome, records.reader.offset⟩) records
termination_by records.ahead
decreasing_by exact ahead_next _given

/-- Decodes to the end: every outcome, and the decoding as it then is. -/
def finish (schema : Schema) (assembler : Assembler σ β) (options : DecodeOptions)
    (records : Records σ) : List (Step β) × Records σ :=
  let (steps, records) := finishFrom schema assembler options #[] records
  (steps.toList, records)

end Records

structure Summary where
  decoded : Nat
  dropped : Nat
  nulled : Nat
  skipped : Nat
  deriving DecidableEq, Repr

namespace Summary

def zero : Summary :=
  ⟨0, 0, 0, 0⟩

def add (first second : Summary) : Summary :=
  ⟨first.decoded + second.decoded, first.dropped + second.dropped,
    first.nulled + second.nulled, first.skipped + second.skipped⟩

/-- The counts with one more outcome. An error that ends the run is not counted. -/
def count {β : Type} (summary : Summary) : Outcome β → Summary
  | .decoded _ _ _ issues =>
    { summary with
      decoded := summary.decoded + 1
      nulled := summary.nulled + issues.countP (·.nulled)
      skipped := summary.skipped + issues.countP (!·.nulled) }
  | .dropped .. => { summary with dropped := summary.dropped + 1 }
  | .failed _ => summary

def ofOutcomes {β : Type} (outcomes : List (Outcome β)) : Summary :=
  outcomes.foldl count zero

end Summary

structure FieldRecord where
  index : Nat
  offset : Nat
  fields : List Field
  issues : List Issue

structure DroppedRecord where
  index : Nat
  offset : Nat
  error : DecodeError

structure Report where
  records : List FieldRecord
  dropped : List DroppedRecord
  summary : Summary

namespace Outcome

def dropped? {β : Type} : Outcome β → Option DroppedRecord
  | .dropped index offset error => some ⟨index, offset, error⟩
  | _ => none

def failure? {β : Type} : Outcome β → Option DecodeError
  | .failed error => some error
  | _ => none

end Outcome

namespace Report

def record? : Outcome (List Field) → Option FieldRecord
  | .decoded index offset fields issues => some ⟨index, offset, fields, issues⟩
  | _ => none

def ofSource (schema : Schema) (options : DecodeOptions) (source : Source) :
    Except DecodeError Report :=
  let records := Records.ofSource schema options Collected.empty source
  let outcomes := (records.finish schema Assembler.fields options).1.map (·.outcome)
  match outcomes.findSome? Outcome.failure? with
  | some error => .error error
  | none =>
    .ok ⟨outcomes.filterMap record?, outcomes.filterMap Outcome.dropped?, .ofOutcomes outcomes⟩

end Report

end BerRecords
