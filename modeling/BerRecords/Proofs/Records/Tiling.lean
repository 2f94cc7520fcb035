import BerRecords.Proofs.Records.Agreement
import BerRecords.Proofs.Records.Places

/-!
# Outcomes lie side by side

On a source without failures every outcome begins where the one before it ended. Unless it
is the last one it takes one whole top-level element, and all that it tells is about places
inside what it took.
-/

set_option autoImplicit false

namespace BerRecords

theorem DecodeError.offset?_withPath (error : DecodeError) (path : String) :
    (error.withPath path).offset? = error.offset? := by
  cases error <;> rfl

namespace Outcome

variable {β : Type}

def index? : Outcome β → Option Nat
  | decoded index .. | dropped index .. => some index
  | failed _ => none

def places (places : β → List Nat) : Outcome β → List Nat
  | decoded _ _ content issues => places content ++ issues.map (·.offset)
  | dropped _ _ error | failed error => error.offset?.toList

end Outcome

namespace Records

open Reader (Abreast)

variable {σ β : Type} {schema : Schema} {assembler : Assembler σ β} {options : DecodeOptions}
  {fresh : σ} {nested : List Bool → Nat → σ → Prop} {places : β → List Nat} {octets : Octets}
  {records after : Records σ} {outcome : Outcome β} {index offset : Nat} {error : DecodeError}

/-- What an outcome takes of the octets of a source, and how the run may end with it. -/
structure Tile (encoding : TagEncoding) (options : DecodeOptions) (octets : Octets)
    (places : β → List Nat) (index start : Nat) (outcome : Outcome β) (after : Records σ) :
    Prop where
  numbered : ∀ number ∈ outcome.index?, number = index
  begins : ∀ offset ∈ outcome.offset?, offset = start
  onward : start < after.reader.offset
  bounded : after.reader.offset ≤ octets.length
  inside : ∀ offset ∈ outcome.places places, start ≤ offset ∧ offset ≤ after.reader.offset
  whole : after.done = false → ∃ (heading : Heading encoding) (rest : Octets),
    octets.drop start = heading.octets ++ rest ∧
      after.reader.offset = start + heading.octets.length + heading.length
  ends : after.done = true →
    (options.errorMode = .failFast ∧ ∃ error, outcome = .failed error) ∨
      (∃ error, outcome = .dropped index start error) ∧
        ∀ (heading : Heading encoding) (rest : Octets), octets.drop start = heading.octets ++ rest →
          octets.length < start + heading.octets.length + heading.length

theorem index?_of_givesUp
    (gives : GivesUp assembler options index offset error records (outcome, after)) :
    (∀ number ∈ outcome.index?, number = index) ∧ after.index = records.index := by
  cases gives with
  | failed => exact ⟨by simp [Outcome.index?], rfl⟩
  | resumed => exact ⟨by simp [Outcome.index?, eq_comm], rfl⟩
  | stranded => exact ⟨by simp [Outcome.index?, eq_comm], rfl⟩

/-- Outcomes are numbered one after another. -/
theorem index?_next (given : next schema assembler options records = (some outcome, after)) :
    (∀ number ∈ outcome.index?, number = records.index) ∧ after.index = records.index + 1 := by
  have asked := request schema assembler options records
  rw [given] at asked
  cases asked with
  | decoded => exact ⟨by simp [Outcome.index?, eq_comm], rfl⟩
  | broken _ _ gives => exact index?_of_givesUp gives
  | unfinished _ _ _ gives => exact index?_of_givesUp gives

theorem lt_of_next (faultless : records.reader.source.Faultless)
    (given : next schema assembler options records = (some outcome, after)) :
    records.reader.offset < after.reader.offset := by
  have asked := request schema assembler options records
  rw [given] at asked
  have read_lt {header : Header} {reader : Reader} {walk : Walk (Recording σ)}
      (read : (Reader.nextElement (visitor schema assembler options)).on
        (records.reader, records.walk) = (.ok (some header), reader, walk)) :
      records.reader.offset < reader.offset := by
    obtain ⟨-, -, shell, -, reached⟩ := Reader.shell_of_nextElement read
    have some_octets := List.length_pos_iff.2 shell.octets_ne_nil
    omega
  cases asked with
  | decoded _ read => exact read_lt read
  | broken _ failed gives =>
      exact Nat.lt_of_lt_of_le (Reader.nextElement_error_lt faultless failed)
        (takes_of_givesUp gives).offset_le
  | unfinished _ read _ gives =>
      exact Nat.lt_of_lt_of_le (read_lt read) (takes_of_givesUp gives).offset_le

theorem places_of_givesUp
    (gives : GivesUp assembler options index offset error records (outcome, after)) :
    outcome.places places = error.offset?.toList := by
  cases gives with
  | failed | resumed | stranded => rw [Outcome.places, DecodeError.offset?_withPath]

/-- What an outcome tells is about places that were read for it. -/
theorem places_next (nests : assembler.Nests fresh nested) (strict : assembler.sink.Strict)
    (kept : assembler.Places fresh places) (idle : records.walk = .start ⟨fresh, #[]⟩)
    (given : next schema assembler options records = (some outcome, after)) :
    ∀ offset ∈ outcome.places places,
      records.reader.offset ≤ offset ∧ offset ≤ after.reader.offset := by
  have asked := request schema assembler options records
  rw [given] at asked
  cases asked with
  | @decoded header reader walk content inner going read finished =>
      obtain ⟨top, source, definition, state, stands, -, -, reached, -, heard, finished, noted⟩ :=
        heard_of_decoded nests strict idle given
      have told : ∀ telling ∈ Account.ofElement options.mandatory "" definition header.offset top,
          ∀ offset ∈ telling.place?, records.reader.offset ≤ offset ∧ offset ≤ reader.offset := by
        intro telling member offset placed
        obtain ⟨lower, upper⟩ := Account.lies_ofElement options.mandatory top "" definition
          header.offset telling member offset placed
        dsimp only at reached
        rw [stands] at lower upper
        rw [reached]
        exact ⟨lower, Nat.le_of_lt upper⟩
      intro offset member
      rcases List.mem_append.1 member with member | member
      · exact kept told heard finished offset member
      · obtain ⟨issue, among, rfl⟩ := List.mem_map.1 member
        rw [noted] at among
        exact Account.told_of_issues told issue among
  | @broken error reader walk _ _ going failed gives =>
      have replays := @Walk.replays_nextElement _ (rules schema options) _ _
        (Recording.nests nests.sink) strict.recording records.reader ⟨fresh, #[]⟩ nests.start
      rw [← idle, failed] at replays
      rw [places_of_givesUp gives]
      intro offset member
      generalize (Reader.nextElement (Walk.visitor _ Telling.writer)).on _ = written at replays
      cases replays with
      | replayed blamed =>
          obtain ⟨lower, upper⟩ := blamed error rfl offset (Option.mem_toList.1 member)
          exact ⟨lower, Nat.le_trans upper (takes_of_givesUp gives).offset_le⟩
  | unfinished _ _ _ gives =>
      rw [places_of_givesUp gives]
      simp [DecodeError.offset?]

/-- A run that ends with an outcome ends at its first error, or at an element of which the
end is not found. -/
theorem ends_next (nests : assembler.Nests fresh nested) (idle : records.walk = .start ⟨fresh, #[]⟩)
    {encoding : TagEncoding} (same : records.reader.encoding = encoding)
    (abreast : Abreast octets records.reader)
    (given : next schema assembler options records = (some outcome, after))
    (done : after.done = true) :
    (options.errorMode = .failFast ∧ ∃ error, outcome = .failed error) ∨
      (∃ error, outcome = .dropped records.index records.reader.offset error) ∧
        ∀ (heading : Heading encoding) (rest : Octets),
          octets.drop records.reader.offset = heading.octets ++ rest →
            octets.length < records.reader.offset + heading.octets.length + heading.length := by
  have settled : Settled options records.index records.reader.offset outcome :=
    (@next_fresh _ _ schema _ options _ _ _ nests idle).2 outcome (congrArg Prod.fst given)
  have asked := request schema assembler options records
  rw [given] at asked
  cases asked with
  | decoded => cases done
  | broken going failed gives =>
      cases gives with
      | failed =>
          cases settled with
          | failed _ strict => exact .inl ⟨strict, _, rfl⟩
      | resumed => cases done
      | @stranded reader result _ _ skipped unskipped =>
          refine .inr ⟨⟨_, rfl⟩, fun heading rest ahead => ?_⟩
          have resumes := Reader.nextElement_resumes abreast same (visitor schema assembler options)
            records.walk
          rw [failed] at resumes
          -- An element that ends inside the octets could have been skipped.
          apply Nat.lt_of_not_le
          intro fits
          obtain ⟨last, skipped', -⟩ := (resumes.1 heading rest ahead).whole fits
          exact unskipped (congrArg Prod.fst (skipped.symm.trans skipped'))
  | unfinished _ read finished =>
      obtain ⟨state, issues, content, rfl, -, finished'⟩ := completes_of_fresh nests idle read
      cases finished'.symm.trans finished

theorem tile_next (nests : assembler.Nests fresh nested) (strict : assembler.sink.Strict)
    (kept : assembler.Places fresh places) (idle : records.walk = .start ⟨fresh, #[]⟩)
    {encoding : TagEncoding} (same : records.reader.encoding = encoding)
    (abreast : Abreast octets records.reader)
    (given : next schema assembler options records = (some outcome, after)) :
    Tile encoding options octets places records.index records.reader.offset outcome after where
  numbered := (index?_next given).1
  begins := offset?_next given
  onward := lt_of_next abreast.delivers.faultless given
  bounded := by
    have takes := @takes_next _ _ schema assembler options records
    rw [given] at takes
    exact (abreast.takes takes).offset_le
  inside := places_next nests strict kept idle given
  whole going := by
    have takes := @takes_next _ _ schema assembler options records
    have counted := (takes.faultless abreast.delivers.faultless).2
    rcases shell_of_next counted with done | ⟨shell, held, reached⟩
    · rw [given] at done
      exact absurd (going.symm.trans done) Bool.false_ne_true
    · rw [given] at held reached
      rw [abreast.delivers.held, Shell.octets, List.append_assoc] at held
      rw [shell.length_octets, ← Nat.add_assoc] at reached
      subst same
      exact ⟨shell.heading, _, held, reached⟩
  ends := ends_next nests idle same abreast given

/-- The outcomes of a run lie side by side, from the start of the octets to where it ends. -/
structure Tiled (schema : Schema) (assembler : Assembler σ β) (options : DecodeOptions)
    (octets : Octets) (places : β → List Nat) (start : Records σ) : Prop where
  first : start.reader.offset = 0
  tile : ∀ count outcome after,
    let records := afterNexts schema assembler options start count
    next schema assembler options records = (some outcome, after) →
      Tile schema.encoding options octets places count records.reader.offset outcome after
  exhausted : ∀ count after,
    let records := afterNexts schema assembler options start count
    next schema assembler options records = (none, after) →
      records.done = true ∨ records.reader.offset = octets.length
  silent : ∀ count,
    (next schema assembler options (afterNexts schema assembler options start count)).1 = none →
      ∀ later, count ≤ later →
        (next schema assembler options (afterNexts schema assembler options start later)).1 = none
  few : (finish schema assembler options start).1.length ≤ octets.length / 2 + 1

theorem done_of_none (given : next schema assembler options records = (none, after)) :
    after.done = true := by
  have asked := request schema assembler options records
  rw [given] at asked
  cases asked with
  | stopped done => exact done
  | ended => rfl

theorem done_afterNexts {count later : Nat} (further : count ≤ later)
    (done : (afterNexts schema assembler options records count).done = true) :
    (afterNexts schema assembler options records later).done = true := by
  induction further with
  | refl => exact done
  | step _ ih =>
      rw [afterNexts, next, if_pos ih]
      exact ih

theorem index_afterNexts (start : Records σ) (count : Nat) :
    (afterNexts schema assembler options start count).done = true ∨
      (afterNexts schema assembler options start count).index = start.index + count := by
  induction count with
  | zero => exact .inr rfl
  | succ count ih =>
      rw [afterNexts]
      rcases given : next schema assembler options (afterNexts schema assembler options start count)
        with ⟨_ | outcome, after⟩
      · exact .inl (done_of_none given)
      · have going := (next_some given).1
        rcases ih with done | counted
        · exact absurd (going.symm.trans done) Bool.false_ne_true
        · exact .inr ((index?_next given).2.trans (congrArg (· + 1) counted))

theorem exhausted_next (abreast : Abreast octets records.reader)
    (given : next schema assembler options records = (none, after)) :
    records.done = true ∨ records.reader.offset = octets.length := by
  have asked := request schema assembler options records
  rw [given] at asked
  cases asked with
  | stopped done => exact .inl done
  | ended _ read =>
      obtain ⟨-, source, next, -⟩ := Reader.exhausted_of_nextElement read
      have nothing := abreast.delivers.held.symm.trans (Source.held_of_exhausted next).1
      rw [List.drop_eq_nil_iff] at nothing
      exact .inr (Nat.le_antisymm abreast.offset_le nothing)

/-- There is no element of fewer than two octets, so that the outcomes are few. -/
theorem length_finish_le (nests : assembler.Nests fresh nested) (strict : assembler.sink.Strict)
    (kept : assembler.Places fresh places) (idle : records.walk = .start ⟨fresh, #[]⟩)
    (abreast : Abreast octets records.reader) :
    (finish schema assembler options records).1.length ≤
      (octets.length - records.reader.offset) / 2 + 1 := by
  induction bound : records.ahead using Nat.strongRecOn generalizing records with
  | ind _ ih =>
      rw [finish_eq]
      rcases given : next schema assembler options records with ⟨_ | outcome, after⟩
      · exact Nat.zero_le _
      · have tile := tile_next nests strict kept idle rfl abreast given
        have takes := @takes_next _ _ schema assembler options records
        have idle' := (@next_fresh _ _ schema _ options _ _ _ nests idle).1
        rw [given] at takes idle'
        dsimp only at takes idle'
        have rest := ih _ (bound ▸ ahead_next given) idle' (abreast.takes takes) rfl
        dsimp only
        rw [List.length_cons]
        cases done : after.done with
        | true =>
            rw [finish_eq, next, if_pos done]
            exact Nat.le_add_left _ _
        | false =>
            -- Only the last outcome may take less than a heading, which has two octets.
            obtain ⟨heading, _, _, reached⟩ := tile.whole done
            have two := heading.two_le_length
            have bounded := tile.bounded
            omega

theorem tiled_ofSource (nests : assembler.Nests fresh nested) (strict : assembler.sink.Strict)
    (kept : assembler.Places fresh places) {source : Source} (delivers : source.Delivers octets) :
    Tiled schema assembler options octets places (ofSource schema options fresh source) := by
  have start : Abreast octets (ofSource schema options fresh source).reader :=
    Reader.abreast_ofSource schema.encoding options.maxDepth delivers
  have takes (count : Nat) := @takes_afterNexts _ _ schema assembler options
    (ofSource schema options fresh source) count
  have idle (count : Nat) := @afterNexts_fresh _ _ schema _ options _ _ nests source count
  constructor
  · rfl
  · intro count outcome after records given
    have going : records.done = false := (next_some given).1
    have counted : records.index = count := by
      rcases @index_afterNexts _ _ schema assembler options (ofSource schema options fresh source)
        count with done | counted
      · exact absurd (going.symm.trans done) Bool.false_ne_true
      · exact counted.trans (Nat.zero_add count)
    have tile := tile_next nests strict kept (idle count) (congrArg Prod.fst (takes count).settings_eq)
      (start.takes (takes count)) given
    rwa [← counted]
  · intro count after records given
    exact exhausted_next (start.takes (takes count)) given
  · intro count silent later further
    rcases given : next schema assembler options (afterNexts schema assembler options
      (ofSource schema options fresh source) count) with ⟨_ | outcome, after⟩
    · have ended : (afterNexts schema assembler options (ofSource schema options fresh source)
          (count + 1)).done = true := by
        rw [afterNexts, given]
        exact done_of_none given
      rcases Nat.eq_or_lt_of_le further with rfl | further
      · exact silent
      · rw [next, if_pos (done_afterNexts further ended)]
    · rw [given] at silent
      cases silent
  · exact length_finish_le nests strict kept rfl start

/-- On a source without failures the outcomes lie side by side, be they of fields or of
trees: each begins where the one before it ended and takes a whole top-level element, as
long as the run goes on, and it tells only of places inside what it took. The run ends at
the end of the source, at its first error, or at an element of which the end is not found. -/
theorem outcomes_tile {source : Source} (delivers : source.Delivers octets) (schema : Schema)
    (options : DecodeOptions) :
    Tiled schema .fields options octets (List.map Field.offset)
        (ofSource schema options .empty source) ∧
      Tiled schema .trees options octets Node.offsets (ofSource schema options .empty source) :=
  ⟨tiled_ofSource Assembler.fields_nests Collected.strict Assembler.places_fields delivers,
    tiled_ofSource Assembler.trees_nests Assembler.strict_trees Assembler.places_trees delivers⟩

/-- Two messages, of which the second is cut inside its number. -/
theorem outcomes_tile_two_messages :
    let message : Definition := .record ⟨"msg", some .sequence, false⟩ .sequence
      [.scalar ⟨"id", some .integer, false⟩ .integer]
    let schema : Schema := ⟨[message], [message], .singleOctet⟩
    let options : DecodeOptions := ⟨.skipRecord, true, 8⟩
    let octets : Octets := [0x30, 0x03, 0x02, 0x01, 0x05, 0x30, 0x03, 0x02, 0x01]
    (Source.ofOctets octets).Delivers octets ∧
      Tiled schema .fields options octets (List.map Field.offset)
        (ofSource schema options .empty (.ofOctets octets)) ∧
      Tiled schema .trees options octets Node.offsets
        (ofSource schema options .empty (.ofOctets octets)) := by
  intro message schema options octets
  have delivers := Source.delivers_ofOctets octets
  exact ⟨delivers, outcomes_tile delivers schema options⟩

end Records

end BerRecords
