import BerRecords.Proofs.Module.Spacing

/-!
# Types in a text with further blanks

A type that can be read is read from a text with further blanks as well, by the recursion with which
types and items are read.
-/

set_option autoImplicit false

namespace BerRecords.Module

variable {before text text' rest : List Char} {type : TypeExpr}

theorem rel_findSome? {α β : Type} {related : β → β → Prop} {find find' : α → Option β}
    {items : List α} (each : ∀ item ∈ items, Option.Rel related (find item) (find' item)) :
    Option.Rel related (items.findSome? find) (items.findSome? find') := by
  induction items with
  | nil => exact .none
  | cons item items ih =>
      rw [List.forall_mem_cons] at each
      rw [List.findSome?_cons, List.findSome?_cons]
      have own := each.1
      generalize find item = found at own
      generalize find' item = found' at own
      cases own with
      | some related => exact .some related
      | none => exact ih each.2

theorem Aligned.pairedWords? (aligned : Aligned text text') :
    Option.Rel (fun pair pair' => pair'.1 = pair.1 ∧ Spaced [] pair.2 pair'.2)
      (pairedWords? text) (Module.pairedWords? text') := by
  rw [pairedWords?_eq, pairedWords?_eq]
  refine rel_findSome? fun (first, second) member => ?_
  obtain ⟨solid, solid'⟩ := solid_wordPairs _ member
  refine aligned.wordThenBlanks?_bind solid (fun behind => ?_) (fun plain => ?_)
  · have stripped := behind.strip?_solid solid'
    rename_i rest rest'
    rw [secondWord?, secondWord?]
    generalize Module.strip? second.toList rest = found at stripped
    generalize Module.strip? second.toList rest' = found' at stripped
    cases stripped with
    | none => exact .none
    | some spaced =>
        obtain ⟨front, last, same, joint⟩ := solid'.eq_concat
        have goes_on := (same ▸ spaced).head?_any joint fun d => isJoint_of_isWordChar
        dsimp only
        rw [goes_on]
        split
        · exact .none
        · exact .some ⟨rfl, spaced.start⟩
  · rw [secondWord?, strip?_of_not_isJoint solid' plain]

theorem Aligned.readTypeName (aligned : Aligned text text') {word : List Char}
    (read : readTypeName text = .ok (word, rest)) :
    ∃ rest', Module.readTypeName text' = .ok (word, rest') ∧ Spaced [] rest rest' := by
  have pairs := aligned.pairedWords?
  rw [Module.readTypeName] at read ⊢
  generalize Module.pairedWords? text = found at pairs read
  generalize Module.pairedWords? text' = found' at pairs
  cases pairs with
  | @some pair pair' same =>
      obtain ⟨word', rest'⟩ := pair'
      obtain ⟨same, spaced⟩ := same
      cases read
      cases same
      exact ⟨rest', rfl, spaced⟩
  | none =>
      cases named : Module.readName text with
      | error fault =>
          rw [named] at read
          cases read
      | ok entry =>
          obtain ⟨name, after⟩ := entry
          rw [named] at read
          cases read
          obtain ⟨rest', named', spaced⟩ := aligned.spaced.readName named
          exact ⟨rest', by rw [named']; rfl, spaced⟩

theorem Spaced.skipNamedValues (spaced : Spaced before text text')
    (skipped : skipNamedValues text = .ok rest) :
    ∃ rest', Module.skipNamedValues text' = .ok rest' ∧ Spaced [] rest rest' := by
  have aligned := spaced.trimStart
  by_cases opened : (Text.trimStart text).head? = some '\x7b'
  · obtain ⟨inner, read⟩ := readBraces_of_skipNamedValues opened skipped
    obtain ⟨inner', rest', read', -, after⟩ := spaced.readBraces read
    exact ⟨rest', skipNamedValues_of_group (aligned.head?_eq.trans opened) read', after⟩
  · rw [skipNamedValues_of_head? opened] at skipped
    cases skipped
    exact ⟨_, skipNamedValues_of_head? (aligned.head?_eq ▸ opened), aligned.spaced⟩

theorem Aligned.readSimpleType (aligned : Aligned text text')
    (read : readSimpleType text = .ok (type, rest)) :
    ∃ rest', Module.readSimpleType text' = .ok (type, rest') ∧ Spaced [] rest rest' := by
  obtain ⟨word, named, behind, first, second, third, rfl⟩ := readSimpleType_eq_ok_iff.1 read
  obtain ⟨named', first', spaced⟩ := aligned.readTypeName first
  obtain ⟨behind', second', spaced⟩ := spaced.skipNamedValues second
  obtain ⟨rest', third', aligned⟩ := spaced.skipConstraints third
  exact ⟨rest', readSimpleType_eq_ok_iff.2 ⟨word, named', behind', first', second', third', rfl⟩,
    aligned.spaced⟩

theorem Spaced.readAnyRest (spaced : Spaced before text text')
    (read : readAnyRest text = .ok (type, rest)) :
    ∃ rest', Module.readAnyRest text' = .ok (type, rest') ∧ Spaced [] rest rest' := by
  have defined := @Aligned.keyword? _ _ "DEFINED" (by decide) spaced.trimStart
  rw [Module.readAnyRest] at read ⊢
  generalize Module.keyword? "DEFINED" (Text.trimStart text) = found at defined read
  generalize Module.keyword? "DEFINED" (Text.trimStart text') = found' at defined
  cases defined with
  | none =>
      cases read
      exact ⟨text', rfl, spaced.start⟩
  | @some after after' spaced =>
      have by_word := @Aligned.keyword? _ _ "BY" (by decide) spaced.trimStart
      dsimp only at read ⊢
      generalize Module.keyword? "BY" (Text.trimStart after) = found at by_word read
      generalize Module.keyword? "BY" (Text.trimStart after') = found' at by_word
      cases by_word with
      | none => cases read
      | @some field field' spaced =>
          cases named : Module.readName field with
          | error fault =>
              simp only [named, Except.map] at read
              cases read
          | ok entry =>
              obtain ⟨name, after⟩ := entry
              simp only [named, Except.map] at read
              cases read
              obtain ⟨rest', named', spaced⟩ := spaced.readName named
              exact ⟨rest', by simp only [named', Except.map], spaced⟩

inductive TypeStart.Alike : TypeStart → TypeStart → Prop where
  | choice {rest rest' : List Char} : Spaced [] rest rest' → Alike (.choice rest) (.choice rest')
  | grouped {grouping : Grouping} {rest rest' : List Char} : Spaced [] rest rest' →
      Alike (.grouped grouping rest) (.grouped grouping rest')
  | any {rest rest' : List Char} : Spaced [] rest rest' → Alike (.any rest) (.any rest')
  | simple : Alike .simple .simple

theorem Aligned.typeStart (aligned : Aligned text text') :
    (typeStart text).Alike (Module.typeStart text') := by
  have choice := @Aligned.keyword? _ _ "CHOICE" (by decide) aligned
  have sequence := @Aligned.keyword? _ _ "SEQUENCE" (by decide) aligned
  have set := @Aligned.keyword? _ _ "SET" (by decide) aligned
  have any := @Aligned.keyword? _ _ "ANY" (by decide) aligned
  rw [Module.typeStart, Module.typeStart]
  generalize Module.keyword? "CHOICE" text = found at choice
  generalize Module.keyword? "CHOICE" text' = found' at choice
  cases choice with
  | some spaced => exact .choice spaced.start
  | none =>
      generalize Module.keyword? "SEQUENCE" text = found at sequence
      generalize Module.keyword? "SEQUENCE" text' = found' at sequence
      cases sequence with
      | some spaced => exact .grouped spaced.start
      | none =>
          generalize Module.keyword? "SET" text = found at set
          generalize Module.keyword? "SET" text' = found' at set
          cases set with
          | some spaced => exact .grouped spaced.start
          | none =>
              generalize Module.keyword? "ANY" text = found at any
              generalize Module.keyword? "ANY" text' = found' at any
              cases any with
              | some spaced => exact .any spaced.start
              | none => exact .simple

/-! ## Items -/

theorem Aligned.isEmpty_eq (aligned : Aligned text text') : text'.isEmpty = text.isEmpty := by
  cases aligned with
  | nil | cons => rfl

theorem Aligned.source? (aligned : Aligned text text') :
    Option.Rel Eq (source? text) (Module.source? text') := by
  obtain ⟨same, spaced⟩ := aligned.takeWhile fun d (joint : isJoint d = true) => joint
  rw [Module.source?, Module.source?, same, spaced.trimStart.isEmpty_eq]
  split
  · exact .none
  · exact .some rfl

theorem Spaced.componentsOf? (spaced : Spaced before text text') :
    componentsOf? text' = Module.componentsOf? text := by
  have related : Option.Rel Eq (Module.componentsOf? text) (Module.componentsOf? text') := by
    rw [componentsOf?_eq, componentsOf?_eq]
    refine spaced.trimStart.wordThenBlanks?_bind (by decide) (fun aligned => ?_) (fun plain => ?_)
    · exact aligned.wordThenBlanks?_bind (by decide) (fun aligned => aligned.source?)
        source?_of_not_isJoint
    · rw [wordThenBlanks?_of_not_isJoint (by decide) plain]
      rfl
  generalize Module.componentsOf? text = found at related
  generalize Module.componentsOf? text' = found' at related
  cases related with
  | none => rfl
  | some same => rw [same]

/-! ## Types and items -/

inductive ItemStart.Alike : ItemStart → ItemStart → Prop where
  | passed : Alike .passed .passed
  | componentsOf (source : String) : Alike (.componentsOf source) (.componentsOf source)
  | component {name : String} {tag : Option Tag} {type type' : List Char} : Aligned type type' →
      Alike (.component name tag type) (.component name tag type')

/-- The start of an item is read, unless the type that follows cannot be. -/
theorem Spaced.itemStart (spaced : Spaced before text text') {start : ItemStart}
    (read : itemStart text = .ok start)
    (closed : ∀ name tag type, start = .component name tag type → type.head? ≠ some '[') :
    ∃ start', Module.itemStart text' = .ok start' ∧ start.Alike start' := by
  have aligned := spaced.trim
  rw [Module.itemStart] at read ⊢
  generalize Text.trim text = item at aligned read
  generalize Text.trim text' = item' at aligned
  have dots : Option.Rel (Spaced ['.', '.', '.']) _ _ := aligned.strip? (by simp) (by decide)
  have marked : (Module.strip? ['.', '.', '.'] item').isSome =
      (Module.strip? ['.', '.', '.'] item).isSome := by
    generalize Module.strip? _ item = found at dots
    generalize Module.strip? _ item' = found' at dots
    cases dots <;> rfl
  dsimp only at read ⊢
  rw [aligned.isEmpty_eq, marked, aligned.spaced.componentsOf?]
  split at read
  · rename_i passed
    cases read
    rw [if_pos passed]
    exact ⟨_, rfl, .passed⟩
  · rename_i present
    rw [if_neg present]
    split at read
    · rename_i source found
      cases read
      exact ⟨_, rfl, .componentsOf source⟩
    · cases named : Module.readName item with
      | error fault =>
          simp only [named, bind, Except.bind] at read
          cases read
      | ok entry =>
          obtain ⟨name, behind⟩ := entry
          cases tagged : Module.readTag behind with
          | error fault =>
              simp only [named, bind, Except.bind, tagged] at read
              cases read
          | ok entry =>
              obtain ⟨tag, type⟩ := entry
              simp only [named, bind, Except.bind, tagged] at read
              cases read
              obtain ⟨behind', named', spaced⟩ := aligned.spaced.readName named
              obtain ⟨type', tagged', aligned⟩ := spaced.readTag tagged (closed _ _ _ rfl)
              refine ⟨_, ?_, .component aligned⟩
              simp only [named', bind, Except.bind, tagged']
              rfl

mutual

/-- A type that is read is read from the text with further blanks. -/
theorem Spaced.readType {before text text' rest : List Char} {type : TypeExpr}
    (spaced : Spaced before text text') (read : readType text = .ok (type, rest)) :
    ∃ rest', Module.readType text' = .ok (type, rest') ∧ Spaced [] rest rest' := by
  have bound := trimStart_length text
  have start := spaced.trimStart.typeStart
  generalize started' : Module.typeStart (Text.trimStart text') = start' at start
  cases readsType_of_readType read with
  | @choice behind inner _ items started braced listed =>
      rw [started] at start
      cases start with
      | choice spaced =>
          obtain ⟨inner', rest', braced', within, after⟩ := spaced.readBraces braced
          have := typeStart_choice started
          have := readBraces_length braced
          have := splitItems_length inner
          exact ⟨rest', (ReadsType.choice started' braced'
            (Spaced.readItems within.splitItems listed)).readType_eq, after⟩
  | @collection grouping behind body after _ element started skipped collected read =>
      rw [started] at start
      cases start with
      | grouped spaced =>
          obtain ⟨body', skipped', aligned⟩ := spaced.skipConstraints skipped
          have of_word := @Aligned.keyword? _ _ "OF" (by decide) aligned.spaced.trimStart
          rw [collected] at of_word
          generalize collected' : Module.keyword? "OF" (Text.trimStart body') = found' at of_word
          cases of_word with
          | some spaced =>
              have := typeStart_grouped started
              have := skipConstraints_length skipped
              have := keyword?_length collected
              have := trimStart_length body
              obtain ⟨rest', read', after⟩ := Spaced.readType spaced read
              exact ⟨rest', (ReadsType.collection started' skipped' collected' read').readType_eq,
                after⟩
  | @record grouping behind body inner _ items started skipped uncollected braced listed =>
      rw [started] at start
      cases start with
      | grouped spaced =>
          obtain ⟨body', skipped', aligned⟩ := spaced.skipConstraints skipped
          have of_word := @Aligned.keyword? _ _ "OF" (by decide) aligned.spaced.trimStart
          rw [uncollected] at of_word
          generalize uncollected' : Module.keyword? "OF" (Text.trimStart body') = found' at of_word
          cases of_word with
          | none =>
              obtain ⟨inner', rest', braced', within, after⟩ := aligned.spaced.readBraces braced
              have := typeStart_grouped started
              have := skipConstraints_length skipped
              have := readBraces_length braced
              have := splitItems_length inner
              exact ⟨rest', (ReadsType.record started' skipped' uncollected' braced'
                (Spaced.readItems within.splitItems listed)).readType_eq, after⟩
  | any started read =>
      rw [started] at start
      cases start with
      | any spaced =>
          obtain ⟨rest', read', after⟩ := spaced.readAnyRest read
          exact ⟨rest', (ReadsType.any started' read').readType_eq, after⟩
  | simple started read =>
      rw [started] at start
      cases start with
      | simple =>
          obtain ⟨rest', read', after⟩ := spaced.trimStart.readSimpleType read
          exact ⟨rest', (ReadsType.simple started' read').readType_eq, after⟩
termination_by 2 * text.length + 1

theorem Spaced.readItems {pieces pieces' : List (List Char)} {items : List Item}
    (spaced : List.Forall₂ (Spaced []) pieces pieces') (read : readItems pieces = .ok items) :
    Module.readItems pieces' = .ok items := by
  match pieces, pieces', spaced with
  | [], [], .nil => exact read
  | piece :: pieces, piece' :: pieces', .cons first others =>
      cases readsItems_of_readItems read with
      | passed started listed =>
          obtain ⟨start', started', alike⟩ := first.itemStart started nofun
          cases alike with
          | passed => exact (ReadsItems.passed started' (Spaced.readItems others listed)).readItems_eq
      | componentsOf started listed =>
          obtain ⟨start', started', alike⟩ := first.itemStart started nofun
          cases alike with
          | componentsOf =>
              exact (ReadsItems.componentsOf started' (Spaced.readItems others listed)).readItems_eq
      | @component _ text _ _ _ _ _ _ started typed listed =>
          have closed : text.head? ≠ some '[' := by
            intro opens
            obtain ⟨behind, rfl⟩ := List.head?_eq_some_iff.1 opens
            exact not_reads_bracket typed
          have := itemStart_length started
          obtain ⟨start', started', alike⟩ := first.itemStart started fun _ _ _ same => by
            cases same
            exact closed
          cases alike with
          | component aligned =>
              obtain ⟨after', typed', spaced⟩ := Spaced.readType aligned.spaced typed
              have optional := @Spaced.hasWord [] _ _ ["OPTIONAL", "DEFAULT"] (by decide) false spaced
                fun part => Bool.false_ne_true.elim part
              rw [← optional]
              exact (ReadsItems.component started' typed'
                (Spaced.readItems others listed)).readItems_eq
termination_by 2 * joinedLength pieces
decreasing_by
  all_goals simp only [joinedLength]; omega

end

end BerRecords.Module
