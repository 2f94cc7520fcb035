import BerRecords.Proofs.Records.Verdicts
import BerRecords.Proofs.Walk.Resemblance

/-!
# Records do not depend on tags

What a stream says is settled by the shapes of the definitions that its elements are of, by its
nesting and by its values. Which tags tell the elements apart, and in how many octets their
headings are written, does not show in paths, types and values.
-/

set_option autoImplicit false

namespace BerRecords

open Definition (Selection)

def Schema.finds (schema : Schema) (tag : Tag) : Option Selection :=
  (schema.root? tag).map (⟨none, ·⟩)

theorem Schema.finds_eq {schema : Schema} {tag : Tag} {definition : Definition}
    (root : schema.root? tag = some definition) : schema.finds tag = some ⟨none, definition⟩ := by
  rw [finds, root, Option.map_some]

/-- What the fields of a record say; of an element that was not decoded nothing is said. -/
def Outcome.gist? : Outcome (List Field) → Option (List (String × DeclaredType × Option Octets))
  | .decoded _ _ fields _ => some (fields.map Field.gist)
  | .dropped .. | .failed _ => none

theorem Outcome.isSome_gist? (outcome : Outcome (List Field)) :
    outcome.gist?.isSome = true ↔ outcome.error? = none := by
  cases outcome with
  | decoded => simp [gist?, error?]
  | dropped | failed => simp [gist?, error?]

namespace Records

variable {schema schema' : Schema} {mandatory : Bool} {maxDepth : Nat}
  {records records' : Records Collected} {octets octets' : Octets}
  {offset offset' index index' : Nat}

/-- An element is decoded wherever a parallel one is, and both say the same. -/
theorem decoded_of_parallel {top : Element schema.encoding} {top' : Element schema'.encoding}
    {rest : List (Element schema.encoding)} {rest' : List (Element schema'.encoding)}
    {definition : Definition}
    (parallel : Element.Parallel schema.finds schema'.finds (top :: rest) (top' :: rest'))
    (root : schema.root? top.heading.tag = some definition)
    (none_told : Account.issues (Account.ofElement mandatory "" definition offset top) = []) :
    ∃ definition', schema'.root? top'.heading.tag = some definition' ∧
      let told := Account.ofElement mandatory "" definition offset top
      let told' := Account.ofElement mandatory "" definition' offset' top'
      Account.issues told' = [] ∧
        (Account.fields told).map Field.gist = (Account.fields told').map Field.gist := by
  obtain ⟨selection', found', resembles⟩ := Account.resembles_ofElement parallel
    (Schema.finds_eq root)
  obtain ⟨definition', root', rfl⟩ := Option.map_eq_some_iff.1 found'
  have told := resembles "" offset offset'
  exact ⟨definition', root', told.issueless.1 none_told, told.gists_eq⟩

def gists (schema : Schema) (mandatory : Bool) (maxDepth : Nat) (records : Records Collected) :
    List (Option (List (String × DeclaredType × Option Octets))) :=
  (finish schema .fields ⟨.failFast, mandatory, maxDepth⟩ records).1.map (·.outcome.gist?)

theorem gists_of_decoded {after : Records Collected} {fields : List Field} {issues : List Issue}
    (given : next schema .fields ⟨.failFast, mandatory, maxDepth⟩ records =
      (some (.decoded index offset fields issues), after)) :
    gists schema mandatory maxDepth records =
      some (fields.map Field.gist) :: gists schema mandatory maxDepth after := by
  rw [gists, finish_eq, given]
  rfl

theorem gists_of_failed {after : Records Collected} {error : DecodeError} (done : after.done = true)
    (given : next schema .fields ⟨.failFast, mandatory, maxDepth⟩ records =
      (some (.failed error), after)) :
    gists schema mandatory maxDepth records = [none] := by
  rw [gists, finish_eq, given]
  simp only [finish_of_done done, List.map_cons, List.map_nil, Outcome.gist?]

/-- One more element on both sides. -/
theorem gists_cons {top : Element schema.encoding} {top' : Element schema'.encoding}
    {rest : List (Element schema.encoding)} {rest' : List (Element schema'.encoding)}
    (parallel : Element.Parallel schema.finds schema'.finds (top :: rest) (top' :: rest'))
    (wellFormed : top.WellFormed) (wellFormed' : top'.WellFormed) (shallow : top.height ≤ maxDepth)
    (shallow' : top'.height ≤ maxDepth)
    (ready : Ready schema ⟨.failFast, mandatory, maxDepth⟩ .empty (top.octets ++ octets) offset
      index records)
    (ready' : Ready schema' ⟨.failFast, mandatory, maxDepth⟩ .empty (top'.octets ++ octets') offset'
      index' records')
    (later : ∀ {offset offset' index index' : Nat} {after after' : Records Collected},
      Ready schema ⟨.failFast, mandatory, maxDepth⟩ .empty octets offset index after →
      Ready schema' ⟨.failFast, mandatory, maxDepth⟩ .empty octets' offset' index' after' →
      gists schema mandatory maxDepth after = gists schema' mandatory maxDepth after') :
    gists schema mandatory maxDepth records = gists schema' mandatory maxDepth records' := by
  rcases next_failFast ready wellFormed shallow with
    ⟨definition, after, root, none_told, given, middle⟩ | ⟨noted, error, after, done, given⟩
  · obtain ⟨definition', root', none_told', gists_eq⟩ :=
      @decoded_of_parallel _ _ mandatory _ offset' _ _ _ _ _ parallel root none_told
    obtain ⟨after', given', middle'⟩ :=
      next_of_issueless ready' wellFormed' shallow' root' none_told'
    rw [gists_of_decoded given, gists_of_decoded given', gists_eq, later middle middle']
  · rcases next_failFast ready' wellFormed' shallow' with
      ⟨definition', after', root', none_told', -, -⟩ | ⟨-, error', after', done', given'⟩
    · obtain ⟨definition, root, none_told, -⟩ :=
        @decoded_of_parallel _ _ mandatory _ offset _ _ _ _ _ parallel.symm root' none_told'
      exact absurd none_told (noted definition root)
    · rw [gists_of_failed done given, gists_of_failed done' given']

/-- Where the first error ends the run, parallel streams have outcomes that say the same. -/
theorem gists_of_parallel {elements : List (Element schema.encoding)}
    {elements' : List (Element schema'.encoding)}
    (parallel : Element.Parallel schema.finds schema'.finds elements elements')
    (wellFormed : Element.WellFormedAll elements) (wellFormed' : Element.WellFormedAll elements')
    (shallow : Element.heightAll elements ≤ maxDepth)
    (shallow' : Element.heightAll elements' ≤ maxDepth)
    (ready : Ready schema ⟨.failFast, mandatory, maxDepth⟩ .empty (Element.octetsAll elements)
      offset index records)
    (ready' : Ready schema' ⟨.failFast, mandatory, maxDepth⟩ .empty (Element.octetsAll elements')
      offset' index' records') :
    gists schema mandatory maxDepth records = gists schema' mandatory maxDepth records' := by
  induction elements generalizing elements' offset offset' index index' records records' with
  | nil =>
      cases parallel
      rw [Element.octetsAll] at ready ready'
      rw [gists, gists, finish_of_nothing_left ready, finish_of_nothing_left ready']
  | cons top rest ih =>
      cases elements' with
      | nil => cases parallel
      | cons top' rest' =>
          rw [Element.WellFormedAll] at wellFormed wellFormed'
          rw [Element.heightAll, Nat.max_le] at shallow shallow'
          rw [Element.octetsAll] at ready ready'
          refine gists_cons parallel wellFormed.1 wellFormed'.1 shallow.1 shallow'.1 ready ready' ?_
          exact ih parallel.rest wellFormed.2 wellFormed'.2 shallow.2 shallow'.2

/-- Two streams that are parallel under their schemas, whatever tags and headings they have: if
the first error ends the run, one is decoded without an error exactly if the other one is, and
their records have the same paths, types and values in the same order. -/
theorem fields_do_not_depend_on_tags {schema schema' : Schema} {mandatory : Bool} {maxDepth : Nat}
    {elements : List (Element schema.encoding)} {elements' : List (Element schema'.encoding)}
    {octets octets' : Octets} {source source' : Source}
    (parses : Element.Parses maxDepth octets elements)
    (parses' : Element.Parses maxDepth octets' elements')
    (parallel : Element.Parallel schema.finds schema'.finds elements elements')
    (delivers : source.Delivers octets) (delivers' : source'.Delivers octets') :
    let options : DecodeOptions := ⟨.failFast, mandatory, maxDepth⟩
    let steps : List (Step (List Field)) :=
      (finish schema .fields options (ofSource schema options .empty source)).1
    let steps' : List (Step (List Field)) :=
      (finish schema' .fields options (ofSource schema' options .empty source')).1
    ((∀ step ∈ steps, step.outcome.error? = none) ↔
        ∀ step ∈ steps', step.outcome.error? = none) ∧
      steps.map (·.outcome.gist?) = steps'.map (·.outcome.gist?) := by
  intro options steps steps'
  obtain ⟨wellFormed, shallow, rfl⟩ := parses
  obtain ⟨wellFormed', shallow', rfl⟩ := parses'
  have gists_eq : steps.map (·.outcome.gist?) = steps'.map (·.outcome.gist?) :=
    gists_of_parallel parallel wellFormed wellFormed' shallow shallow'
      (ready_ofSource schema options Collected.empty delivers)
      (ready_ofSource schema' options Collected.empty delivers')
  have sound (steps : List (Step (List Field))) :
      (∀ step ∈ steps, step.outcome.error? = none) ↔
        ∀ gist? ∈ steps.map (·.outcome.gist?), gist?.isSome = true := by
    simp [Outcome.isSome_gist?]
  refine ⟨?_, gists_eq⟩
  rw [sound, sound, gists_eq]

/-- A message of a number and of any content, under two schemas whose tags for the number differ.
In the second stream that tag takes two octets, and the length of the message a further one. -/
theorem fields_do_not_depend_on_tags_of_message :
    let message (number : Nat) : Definition := .record ⟨"msg", some .sequence, false⟩ .sequence
      [.scalar ⟨"id", some (.context number), false⟩ .integer, .any ⟨"body", none, false⟩ "id"]
    let schema : Schema := ⟨[message 0], [message 0], .singleOctet⟩
    let schema' : Schema := ⟨[message 40], [message 40], .multiOctet⟩
    let options : DecodeOptions := ⟨.failFast, true, 8⟩
    let octets : Octets := [0x30, 0x08, 0x80, 0x01, 0x05, 0x31, 0x03, 0x02, 0x01, 0x07]
    let octets' : Octets :=
      [0x30, 0x81, 0x09, 0x9F, 0x28, 0x01, 0x05, 0x31, 0x03, 0x02, 0x01, 0x07]
    let steps : List (Step (List Field)) :=
      (finish schema .fields options (ofSource schema options .empty (.ofOctets octets))).1
    let steps' : List (Step (List Field)) :=
      (finish schema' .fields options (ofSource schema' options .empty (.ofOctets octets'))).1
    ((∀ step ∈ steps, step.outcome.error? = none) ↔
        ∀ step ∈ steps', step.outcome.error? = none) ∧
      steps.map (·.outcome.gist?) = steps'.map (·.outcome.gist?) := by
  intro message schema schema' options octets octets' steps steps'
  let number : Element .singleOctet := .leaf (.short 0x80 0x01 (by decide) (by decide)) [0x05]
  let number' : Element .multiOctet := .leaf
    ⟨.ofLeadOctet 0x9F 40, 1, [0x9F, 0x28], [0x01],
      @Identifier.Spells.long _ 0x9F 0x28 [] rfl (by decide) (by decide) (by decide) (by simp)
        (by decide),
      .short (by decide)⟩ [0x05]
  let body (encoding : TagEncoding) : Element encoding := .branch
    (.short 0x31 0x03 (by decide) (by decide))
    [.leaf (.short 0x02 0x01 (by decide) (by decide)) [0x07]]
  let top : Element .singleOctet := .branch (.short 0x30 0x08 (by decide) (by decide))
    [number, body _]
  let top' : Element .multiOctet := .branch
    ⟨.ofLeadOctet 0x30 16, 9, [0x30], [0x81, 0x09], .short (by decide),
      @Length.Spells.long 0x81 [0x09] (by decide) (by decide) (by decide)⟩ [number', body _]
  have parses : Element.Parses 8 octets [top] := by
    refine ⟨?_, by decide, by decide⟩
    simp only [top, number, body, Element.WellFormed, Element.WellFormedAll]
    decide
  have parses' : Element.Parses 8 octets' [top'] := by
    refine ⟨?_, by decide, by decide⟩
    simp only [top', number', body, Element.WellFormed, Element.WellFormedAll]
    decide
  have parallel : Element.Parallel schema.finds schema'.finds [top] [top'] :=
    .branch rfl (by rintro _ ⟨⟩; rfl) (.leaf rfl (.any rfl rfl rfl rfl .nil)) .nil
  exact fields_do_not_depend_on_tags parses parses' parallel (Source.delivers_ofOctets octets)
    (Source.delivers_ofOctets octets')

end Records

end BerRecords
