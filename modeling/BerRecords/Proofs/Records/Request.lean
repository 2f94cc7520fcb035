import BerRecords.Proofs.Displacement
import BerRecords.Records.Outcomes

/-!
# What a request for an outcome can do

Each way in which giving up and asking for an outcome can end, with all that it does.
-/

set_option autoImplicit false

namespace BerRecords.Records

variable {σ β : Type} (schema : Schema) (assembler : Assembler σ β) (options : DecodeOptions)

abbrev visitor : Visitor (Walk (Recording σ)) :=
  Walk.visitor (rules schema options) (Recording.sink assembler.sink)

def discarded (records : Records σ) : Records σ :=
  { records with walk := .start ⟨assembler.discard records.walk.sink.inner, #[]⟩ }

/-- Giving up ends the run, or goes on behind the element, or does not find its end. -/
inductive GivesUp (index offset : Nat) (error : DecodeError) (records : Records σ) :
    Outcome β × Records σ → Prop where
  | failed : error.isFatal = true ∨ options.errorMode = .failFast →
      GivesUp index offset error records
        (.failed (error.withPath records.walk.path), { discarded assembler records with done := true })
  | resumed {reader : Reader} : error.isFatal = false → options.errorMode ≠ .failFast →
      Reader.skipCurrent.on records.reader = (.ok true, reader) →
      GivesUp index offset error records (.dropped index offset (error.withPath records.walk.path),
        { discarded assembler records with reader := reader })
  | stranded {reader : Reader} {result : Except DecodeError Bool} : error.isFatal = false →
      options.errorMode ≠ .failFast → Reader.skipCurrent.on records.reader = (result, reader) →
      result ≠ .ok true →
      GivesUp index offset error records (.dropped index offset (error.withPath records.walk.path),
        { discarded assembler records with reader := reader, done := true })

theorem givesUp (index offset : Nat) (error : DecodeError) (records : Records σ) :
    GivesUp assembler options index offset error records
      (giveUp assembler options index offset error records) := by
  simp only [giveUp, DecodeError.isFatal_withPath]
  split
  · rename_i ends
    exact .failed (by simpa using ends)
  · rename_i tolerated
    simp only [Bool.or_eq_true, decide_eq_true_eq, not_or, Bool.not_eq_true] at tolerated
    rcases skipped : Reader.skipCurrent.on records.reader with ⟨error | _ | _, reader⟩
    · exact .stranded tolerated.1 tolerated.2 skipped (by simp)
    · exact .stranded tolerated.1 tolerated.2 skipped (by simp)
    · exact .resumed tolerated.1 tolerated.2 skipped

/-- A request finds the run over or the source at its end, or an element is decoded or
given up. -/
inductive Request (records : Records σ) : Option (Outcome β) × Records σ → Prop where
  | stopped : records.done = true → Request records (none, records)
  | ended {reader : Reader} {walk : Walk (Recording σ)} : records.done = false →
      (Reader.nextElement (visitor schema assembler options)).on (records.reader, records.walk) =
        (.ok none, reader, walk) →
      Request records (none, ⟨reader, walk, records.index, true⟩)
  | decoded {header : Header} {reader : Reader} {walk : Walk (Recording σ)} {content : β} {inner : σ} :
      records.done = false →
      (Reader.nextElement (visitor schema assembler options)).on (records.reader, records.walk) =
        (.ok (some header), reader, walk) →
      assembler.finish walk.sink.inner = (some content, inner) →
      Request records (some (.decoded records.index header.offset content walk.sink.issues.toList),
        ⟨reader, { walk with sink := ⟨inner, #[]⟩ }, records.index + 1, false⟩)
  | broken {error : DecodeError} {reader : Reader} {walk : Walk (Recording σ)} {outcome : Outcome β}
      {after : Records σ} : records.done = false →
      (Reader.nextElement (visitor schema assembler options)).on (records.reader, records.walk) =
        (.error error, reader, walk) →
      GivesUp assembler options records.index records.reader.offset error
        ⟨reader, walk, records.index + 1, false⟩ (outcome, after) →
      Request records (some outcome, after)
  | unfinished {header : Header} {reader : Reader} {walk : Walk (Recording σ)} {inner : σ}
      {outcome : Outcome β} {after : Records σ} : records.done = false →
      (Reader.nextElement (visitor schema assembler options)).on (records.reader, records.walk) =
        (.ok (some header), reader, walk) →
      assembler.finish walk.sink.inner = (none, inner) →
      GivesUp assembler options records.index records.reader.offset (.unbalanced "" .noRecord)
        ⟨reader, { walk with sink := ⟨inner, #[]⟩ }, records.index + 1, false⟩ (outcome, after) →
      Request records (some outcome, after)

theorem request (records : Records σ) :
    Request schema assembler options records (next schema assembler options records) := by
  rw [next]
  cases going : records.done with
  | true => exact .stopped going
  | false =>
      simp only [Bool.false_eq_true, ↓reduceIte]
      rcases read : (Reader.nextElement (visitor schema assembler options)).on
        (records.reader, records.walk) with ⟨error | none | header, reader, walk⟩
      · exact .broken going read (givesUp assembler options _ _ _ _)
      · exact .ended going read
      · rcases finished : assembler.finish walk.sink.inner with ⟨_ | content, inner⟩
        · simp only [finished]
          exact .unfinished going read finished (givesUp assembler options _ _ _ _)
        · simp only [finished]
          exact .decoded going read finished

theorem next_of_read {records : Records σ} {header : Header} {reader : Reader}
    {walk : Walk (Recording σ)} {content : β} {inner : σ} (going : records.done = false)
    (read : (Reader.nextElement (visitor schema assembler options)).on
      (records.reader, records.walk) = (.ok (some header), reader, walk))
    (finished : assembler.finish walk.sink.inner = (some content, inner)) :
    next schema assembler options records =
      (some (.decoded records.index header.offset content walk.sink.issues.toList),
        ⟨reader, { walk with sink := ⟨inner, #[]⟩ }, records.index + 1, false⟩) := by
  simp only [next, going, Bool.false_eq_true, ↓reduceIte, read, finished]

def afterNexts (records : Records σ) : Nat → Records σ
  | 0 => records
  | count + 1 => (next schema assembler options (afterNexts records count)).2

end BerRecords.Records
