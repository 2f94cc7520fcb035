import BerRecords.Proofs.Records.Trees
import Mathlib.Data.List.Defs

/-!
# Fields and trees agree

Decoding into fields and decoding into trees go on side by side: both read the same, and
the walks tell the same. What becomes of each element is the same, and the fields of a
record are the leaves of the tree.
-/

set_option autoImplicit false

namespace BerRecords

theorem Assembler.strict_trees : trees.sink.Strict := by
  rintro error ⟨event, before, after, refused⟩
  have attached (node : Node) (builder after : TreeBuilder)
      (refused : (TreeBuilder.attach node).on builder = (.error error, after)) :
      error.isFatal = true := by
    rcases builder with ⟨_ | ⟨_ | _, outer⟩, roots⟩
    · cases refused
    · cases refused
      rfl
    · cases refused
  cases event with
  | enter => cases refused
  | field field =>
      rcases before with ⟨_ | ⟨_ | _, outer⟩, roots⟩
      · cases refused
        rfl
      · cases refused
      · cases refused
        rfl
  | leave =>
      rcases before with ⟨_ | ⟨top, outer⟩, roots⟩
      · cases refused
        rfl
      · exact attached top.close ⟨outer, roots⟩ after refused
  | missing definition path offset => exact attached _ before after refused

/-- The same became of an element in two decodings, and what was made of it is related. -/
inductive Outcome.Matches {β γ : Type} (related : β → γ → Prop) : Outcome β → Outcome γ → Prop where
  | decoded {index offset : Nat} {content : β} {content' : γ} {issues : List Issue} :
      related content content' →
      Matches related (.decoded index offset content issues) (.decoded index offset content' issues)
  | dropped {index offset : Nat} {error : DecodeError} :
      Matches related (.dropped index offset error) (.dropped index offset error)
  | failed {error : DecodeError} : Matches related (.failed error) (.failed error)

namespace Records

variable {σ τ β γ : Type} {schema : Schema} {options : DecodeOptions} {assembler : Assembler σ β}
  {assembler' : Assembler τ γ} {fresh : σ} {fresh' : τ}
  {nested : List Bool → Nat → σ → Prop} {nested' : List Bool → Nat → τ → Prop}
  {records : Records σ} {records' : Records τ}

/-- Two decodings between the same elements of the same source. -/
structure Twins (fresh : σ) (fresh' : τ) (records : Records σ) (records' : Records τ) : Prop where
  reader_eq : records'.reader = records.reader
  index_eq : records'.index = records.index
  done_eq : records'.done = records.done
  fresh : records.walk = .start ⟨fresh, #[]⟩
  fresh' : records'.walk = .start ⟨fresh', #[]⟩

/-- Two readings that differ only in what the sinks hold. -/
inductive ReadAlike : Except DecodeError (Option Header) × Reader × Walk (Recording σ) →
    Except DecodeError (Option Header) × Reader × Walk (Recording τ) → Prop where
  | alike {result : Except DecodeError (Option Header)} {reader : Reader}
      {frames : List Walk.Frame} {path : String} {capture : Option Walk.Capture}
      {issues issues' : Array Issue} {state : σ} {state' : τ} : issues = issues' →
      ReadAlike (result, reader, ⟨frames, path, capture, ⟨state, issues⟩⟩)
        (result, reader, ⟨frames, path, capture, ⟨state', issues'⟩⟩)

theorem readAlike (nests : assembler.Nests fresh nested) (strict : assembler.sink.Strict)
    (nests' : assembler'.Nests fresh' nested') (strict' : assembler'.sink.Strict)
    (twins : Twins fresh fresh' records records') :
    ReadAlike
      ((Reader.nextElement (visitor schema assembler options)).on (records.reader, records.walk))
      ((Reader.nextElement (visitor schema assembler' options)).on
        (records'.reader, records'.walk)) := by
  have replays := @Walk.replays_nextElement _ (rules schema options) _ _
    (Recording.nests nests.sink) strict.recording records.reader ⟨fresh, #[]⟩ nests.start
  have replays' := @Walk.replays_nextElement _ (rules schema options) _ _
    (Recording.nests nests'.sink) strict'.recording records.reader ⟨fresh', #[]⟩ nests'.start
  rw [twins.reader_eq, twins.fresh, twins.fresh']
  generalize (Reader.nextElement (Walk.visitor (rules schema options) Telling.writer)).on _ =
    written at replays replays'
  generalize (Reader.nextElement (visitor schema assembler options)).on _ = ran at replays ⊢
  generalize (Reader.nextElement (visitor schema assembler' options)).on _ = ran' at replays' ⊢
  -- Both readings go with the one that is written down, hence with each other.
  cases replays with
  | @replayed result reader frames path capture told after _ _ heard =>
      generalize same : (⟨frames, path, capture, [] ++ told⟩ : Walk (List Telling)) = walk at replays'
      cases replays' with
      | replayed _ _ heard' =>
          cases same
          have kept := (Recording.heard heard).2.trans (Recording.heard heard').2.symm
          exact .alike (Array.toList_inj.1 kept)

inductive Requested (related : β → γ → Prop) (fresh : σ) (fresh' : τ) :
    Option (Outcome β) × Records σ → Option (Outcome γ) × Records τ → Prop where
  | none {after : Records σ} {after' : Records τ} :
      Requested related fresh fresh' (none, after) (none, after')
  | some {outcome : Outcome β} {outcome' : Outcome γ} {after : Records σ} {after' : Records τ} :
      outcome.Matches related outcome' → Twins fresh fresh' after after' →
      Requested related fresh fresh' (some outcome, after) (some outcome', after')

theorem requested_giveUp (nests : assembler.Nests fresh nested)
    (nests' : assembler'.Nests fresh' nested') (related : β → γ → Prop) (index offset : Nat)
    (error : DecodeError) (same_reader : records'.reader = records.reader)
    (same_path : records'.walk.path = records.walk.path) (same_index : records'.index = records.index)
    (same_done : records'.done = records.done) :
    let given := giveUp assembler options index offset error records
    let given' := giveUp assembler' options index offset error records'
    Requested related fresh fresh' (some given.1, given.2) (some given'.1, given'.2) := by
  simp only [giveUp, same_reader, same_path, nests.discard, nests'.discard]
  split
  · exact .some .failed ⟨rfl, same_index, rfl, rfl, rfl⟩
  · split
    · exact .some .dropped ⟨rfl, same_index, same_done, rfl, rfl⟩
    · exact .some .dropped ⟨rfl, same_index, rfl, rfl, rfl⟩

theorem requested_next (nests : assembler.Nests fresh nested) (strict : assembler.sink.Strict)
    (nests' : assembler'.Nests fresh' nested') (strict' : assembler'.sink.Strict)
    (twins : Twins fresh fresh' records records') {related : β → γ → Prop}
    (agree : ∀ {index offset : Nat} {content : β} {content' : γ} {issues : List Issue}
      {after : Records σ} {after' : Records τ},
      next schema assembler options records =
        (some (.decoded index offset content issues), after) →
      next schema assembler' options records' =
        (some (.decoded index offset content' issues), after') → related content content') :
    Requested related fresh fresh' (next schema assembler options records)
      (next schema assembler' options records') := by
  cases going : records.done with
  | true =>
      rw [next, next, if_pos going, if_pos (twins.done_eq.trans going)]
      exact .none
  | false =>
      have going' := twins.done_eq.trans going
      have alike := @readAlike _ _ _ _ schema options _ _ _ _ _ _ _ _ nests strict nests' strict' twins
      generalize read : (Reader.nextElement (visitor schema assembler options)).on
        (records.reader, records.walk) = ran at alike
      generalize read' : (Reader.nextElement (visitor schema assembler' options)).on
        (records'.reader, records'.walk) = ran' at alike
      cases alike with
      | @alike result reader frames path capture issues issues' state state' kept =>
          subst kept
          rcases result with error | _ | header
          · rw [twins.reader_eq] at read'
            simp only [next, going, going', read, read', twins.reader_eq, twins.index_eq,
              Bool.false_eq_true, ↓reduceIte]
            exact @requested_giveUp _ _ _ _ options _ _ _ _ _ _
              ⟨reader, ⟨frames, path, capture, ⟨state, issues⟩⟩, records.index + 1, false⟩
              ⟨reader, ⟨frames, path, capture, ⟨state', issues⟩⟩, records.index + 1, false⟩
              nests nests' related records.index records.reader.offset error rfl rfl rfl rfl
          · simp only [next, going, going', read, read', Bool.false_eq_true, ↓reduceIte]
            exact .none
          · obtain ⟨inner, kept, content, same, -, finished⟩ := completes_of_fresh nests twins.fresh read
            obtain ⟨inner', kept', content', same', -, finished'⟩ :=
              completes_of_fresh nests' twins.fresh' read'
            cases same
            cases same'
            have given := next_of_read schema assembler options going read finished
            have given' := next_of_read schema assembler' options going' read' finished'
            rw [twins.index_eq] at given'
            have related := agree given given'
            rw [given, given']
            exact .some (.decoded related) ⟨rfl, rfl, rfl, rfl, rfl⟩

/-- Decodings that start alike give outcomes that match. -/
theorem finish_twins (nests : assembler.Nests fresh nested) (strict : assembler.sink.Strict)
    (nests' : assembler'.Nests fresh' nested') (strict' : assembler'.sink.Strict)
    {related : β → γ → Prop}
    (agree : ∀ {records : Records σ} {records' : Records τ}, Twins fresh fresh' records records' →
      ∀ {index offset : Nat} {content : β} {content' : γ} {issues : List Issue}
        {after : Records σ} {after' : Records τ},
      next schema assembler options records =
        (some (.decoded index offset content issues), after) →
      next schema assembler' options records' =
        (some (.decoded index offset content' issues), after') → related content content')
    (twins : Twins fresh fresh' records records') :
    List.Forall₂ (fun step step' => step.consumed = step'.consumed ∧
        step.outcome.Matches related step'.outcome)
      (finish schema assembler options records).1 (finish schema assembler' options records').1 := by
  induction bound : records.ahead using Nat.strongRecOn generalizing records records' with
  | ind _ ih =>
      have requested := requested_next nests strict nests' strict' twins (agree twins)
      rw [finish_eq, finish_eq]
      rcases given : next schema assembler options records with ⟨outcome?, after⟩
      rw [given] at requested
      generalize next schema assembler' options records' = given' at requested ⊢
      cases requested with
      | none => exact .nil
      | some matched twins =>
          refine .cons ⟨congrArg Reader.offset twins.reader_eq.symm, matched⟩ ?_
          exact ih _ (bound ▸ ahead_next given) twins rfl

/-- The fields of a record are the leaves of the tree that the same element makes. -/
theorem reading_of_decoded (named : Definition.NamedAll schema.roots)
    {records : Records Collected} {records' : Records TreeBuilder}
    (twins : Twins Collected.empty TreeBuilder.empty records records') {index offset : Nat}
    {fields : List Field} {node : Node} {issues : List Issue} {after : Records Collected}
    {after' : Records TreeBuilder}
    (decoded : next schema .fields options records =
      (some (.decoded index offset fields issues), after))
    (decoded' : next schema .trees options records' =
      (some (.decoded index offset node issues), after')) :
    fields.map Field.reading = node.leaves [] := by
  obtain ⟨top, rest, definition, state, stands, wellFormed, passes, -, root, heard, finished, -⟩ :=
    heard_of_decoded Assembler.fields_nests Collected.strict twins.fresh decoded
  have second := heard_of_decoded Assembler.trees_nests Assembler.strict_trees twins.fresh' decoded'
  rw [twins.reader_eq] at second
  obtain ⟨top', rest', definition', state', -, wellFormed', passes', -, root', heard', finished', -⟩ :=
    second
  -- Both read from one source, so that the same element stands in front of them.
  obtain rfl := Element.unique wellFormed wellFormed' (passes.held.symm.trans passes'.held)
  cases root.symm.trans root'
  cases (TreeBuilder.builds_ofElement options.mandatory top wellFormed.formed "" definition offset
    _).symm.trans heard'
  cases (Collected.hear_sink _ _).symm.trans heard
  have content : Account.fields (Account.ofElement options.mandatory "" definition offset top) =
      fields := by
    simpa [Assembler.fields, Collected.empty] using congrArg Prod.fst finished
  have same : Node.ofElement options.mandatory definition offset top = node :=
    Option.some.inj (congrArg Prod.fst finished')
  have shown : Meaning.Shown [] := by simp [Meaning.Shown]
  rw [← content, ← same, Node.leaves_ofElement options.mandatory top definition (named.claim root)
    shown offset]
  rfl

/-- Whatever the source and the options are, if all names of a schema show in a path, fields
and trees come from the same elements, with the same issues, errors and positions, and a
record of fields reads like the leaves of the tree. -/
theorem fields_agree_with_trees (named : Definition.NamedAll schema.roots)
    (options : DecodeOptions) (source : Source) :
    List.Forall₂ (fun step step' => step.consumed = step'.consumed ∧
        step.outcome.Matches (fun fields node => fields.map Field.reading = node.leaves [])
          step'.outcome)
      (finish schema .fields options (ofSource schema options .empty source)).1
      (finish schema .trees options (ofSource schema options .empty source)).1 :=
  finish_twins Assembler.fields_nests Collected.strict Assembler.trees_nests Assembler.strict_trees
    (fun twins _ _ _ _ _ _ _ decoded decoded' => reading_of_decoded named twins decoded decoded')
    { reader_eq := rfl, index_eq := rfl, done_eq := rfl, fresh := rfl, fresh' := rfl }

/-- A message with a part that lacks its number, in front of one that is cut. -/
theorem fields_agree_with_trees_on_messages :
    let part : Definition := .record ⟨"part", some (.context 0), false⟩ .sequence
      [.scalar ⟨"id", some .integer, false⟩ .integer,
        .scalar ⟨"name", some .octetString, false⟩ .octetString]
    let message : Definition := .record ⟨"msg", some .sequence, false⟩ .sequence [part]
    let schema : Schema := ⟨[message], [message], .singleOctet⟩
    let options : DecodeOptions := ⟨.skipField, true, 8⟩
    let source := Source.ofOctets [0x30, 0x05, 0xA0, 0x03, 0x04, 0x01, 0x41, 0x30, 0x02, 0xA0]
    Definition.NamedAll schema.roots ∧
      List.Forall₂ (fun step step' => step.consumed = step'.consumed ∧
          step.outcome.Matches (fun fields node => fields.map Field.reading = node.leaves [])
            step'.outcome)
        (finish schema .fields options (ofSource schema options .empty source)).1
        (finish schema .trees options (ofSource schema options .empty source)).1 := by
  intro part message schema options source
  have named : Definition.NamedAll schema.roots := by
    simp [schema, message, part, Definition.NamedAll, Definition.Named]
  exact ⟨named, fields_agree_with_trees named options source⟩

end Records

end BerRecords
