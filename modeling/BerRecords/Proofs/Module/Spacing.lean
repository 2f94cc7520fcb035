import BerRecords.Proofs.Module.Readers

/-!
# Further blanks in a text

A blank between two lexemes changes nothing of what the readers of a text find, so a text with
further blanks is read like the text without them.
-/

set_option autoImplicit false

namespace BerRecords.Module

variable {before text text' inner rest : List Char} {c d : Char} {word : String}

def joins (c d : Char) : Bool :=
  isJoint c && isJoint d || c = '.' && d = '.'

/-- Between the two texts one lexeme ends and another begins. Behind a word that makes a tag implicit
or explicit there is a blank already. -/
structure Seam (before behind : List Char) : Prop where
  apart : ∀ c ∈ before.getLast?, ∀ d ∈ behind.head?, joins c d = false
  tagged : ∀ word ∈ taggings, word.toList <:+ before → behind.head?.any Text.isBlank = true

/-- The second text is the first with further blanks at seams. `before` stands in front of both. -/
inductive Spaced : List Char → List Char → List Char → Prop where
  | nil (before : List Char) : Spaced before [] []
  | same {before text text' : List Char} {c : Char} : Spaced (before ++ [c]) text text' →
      Spaced before (c :: text) (c :: text')
  | blank {before text text' : List Char} {b : Char} : Text.isBlank b = true → Seam before text →
      Spaced (before ++ [b]) text text' → Spaced before text (b :: text')

/-- The texts begin alike, with what may be the first lexeme of a longer text. -/
inductive Aligned : List Char → List Char → Prop where
  | nil : Aligned [] []
  | cons {text text' : List Char} {c : Char} : Spaced [c] text text' →
      Aligned (c :: text) (c :: text')

theorem Seam.of_append {front behind : List Char} (seam : Seam (front ++ before) behind) :
    Seam before behind where
  apart c last d first := by
    refine seam.apart c ?_ d first
    rw [Option.mem_def] at last ⊢
    rw [List.getLast?_append, last, Option.some_or]
  tagged word member suffix := seam.tagged word member (suffix.trans (List.suffix_append _ _))

theorem Spaced.of_append {front : List Char} (spaced : Spaced (front ++ before) text text') :
    Spaced before text text' := by
  generalize whole : front ++ before = around at spaced
  induction spaced generalizing before with
  | nil => exact .nil _
  | same _ ih =>
      refine .same (ih ?_)
      rw [← whole, List.append_assoc]
  | blank blank seam _ ih =>
      subst whole
      exact .blank blank seam.of_append (ih (List.append_assoc _ _ _).symm)

theorem Spaced.start (spaced : Spaced before text text') : Spaced [] text text' := by
  rw [← List.append_nil before] at spaced
  exact spaced.of_append

theorem Spaced.refl (before text : List Char) : Spaced before text text := by
  induction text generalizing before with
  | nil => exact .nil _
  | cons c text ih => exact .same (ih _)

theorem Aligned.spaced (aligned : Aligned text text') : Spaced [] text text' := by
  cases aligned with
  | nil => exact .nil _
  | cons spaced => exact .same spaced

theorem Aligned.head?_eq (aligned : Aligned text text') : text'.head? = text.head? := by
  cases aligned with
  | nil | cons => rfl

theorem Spaced.trimStart (spaced : Spaced before text text') :
    Aligned (Text.trimStart text) (Text.trimStart text') := by
  induction spaced with
  | nil => exact .nil
  | @same before text text' c spaced ih =>
      rw [Text.trimStart, Text.trimStart, List.dropWhile_cons, List.dropWhile_cons]
      split
      · exact ih
      · exact .cons spaced.of_append
  | @blank before text text' b blank _ _ ih =>
      have dropped : Text.trimStart (b :: text') = Text.trimStart text' := by
        rw [Text.trimStart, List.dropWhile_cons, if_pos blank, Text.trimStart]
      exact dropped ▸ ih

theorem joins_of_isBlank (blank : Text.isBlank d = true) : joins c d = false := by
  have other : d ≠ '.' := by
    rintro rfl
    cases blank
  simp [joins, isJoint_of_isBlank blank, other]

theorem eq_false_of_not_isJoint {part : Char → Bool} (parts : ∀ d, part d = true → isJoint d = true)
    (plain : isJoint d = false) : part d = false := by
  cases holds : part d with
  | false => rfl
  | true => cases plain.symm.trans (parts d holds)

theorem Seam.not_isJoint (seam : Seam (before ++ [c]) (d :: text)) (joint : isJoint c = true) :
    isJoint d = false := by
  have apart := seam.apart c (by simp) d rfl
  rw [joins, joint, Bool.true_and, Bool.or_eq_false_iff] at apart
  exact apart.1

/-- What follows a joint character begins alike, as far as that goes on with the lexeme. -/
theorem Spaced.head?_any (spaced : Spaced (before ++ [c]) text text') (joint : isJoint c = true)
    {part : Char → Bool} (parts : ∀ d, part d = true → isJoint d = true) :
    text'.head?.any part = text.head?.any part := by
  cases spaced with
  | nil | same => rfl
  | @blank _ _ _ b blank seam =>
      have here : part b = false := eq_false_of_not_isJoint parts (isJoint_of_isBlank blank)
      cases text with
      | nil => simpa using here
      | cons d text => simp [here, eq_false_of_not_isJoint parts (seam.not_isJoint joint)]

/-! ## Words -/

/-- A lexeme stands in both texts or in neither. -/
theorem Spaced.strip? {lead : List Char}
    (chain : List.IsChain (fun c d => joins c d = true) (c :: lead))
    (spaced : Spaced (before ++ [c]) text text') :
    Option.Rel (Spaced (before ++ c :: lead)) (strip? lead text) (strip? lead text') := by
  induction lead generalizing before c text text' with
  | nil => exact .some spaced
  | cons l lead ih =>
      rw [List.isChain_cons_cons] at chain
      cases spaced with
      | nil => exact .none
      | @same _ text text' d spaced =>
          rw [Module.strip?, Module.strip?]
          split
          · rename_i found
            subst found
            simpa using ih chain.2 spaced
          · exact .none
      | @blank _ _ text' b blank seam =>
          have here : b ≠ l := by
            rintro rfl
            cases (joins_of_isBlank blank).symm.trans chain.1
          rw [Module.strip?, if_neg (Ne.symm here)]
          cases text with
          | nil => exact .none
          | cons d text =>
              have there : l ≠ d := by
                rintro rfl
                cases (seam.apart c (by simp) l rfl).symm.trans chain.1
              rw [Module.strip?, if_neg there]
              exact .none

theorem Aligned.strip? {lead : List Char} (some_lead : lead ≠ [])
    (chain : List.IsChain (fun c d => joins c d = true) lead) (aligned : Aligned text text') :
    Option.Rel (Spaced lead) (strip? lead text) (strip? lead text') := by
  cases lead with
  | nil => exact absurd rfl some_lead
  | cons l lead =>
      cases aligned with
      | nil => exact .none
      | @cons text text' d spaced =>
          rw [Module.strip?, Module.strip?]
          split
          · rename_i found
            subst found
            exact @Spaced.strip? [] text text' l lead chain spaced
          · exact .none

theorem Solid.chain {word : List Char} (solid : Solid word) :
    List.IsChain (fun c d => joins c d = true) word := by
  refine List.Pairwise.isChain (List.pairwise_of_forall_mem_list fun c member d member' => ?_)
  simp [joins, solid.joint c member, solid.joint d member']

theorem Aligned.strip?_solid {word : List Char} (solid : Solid word) (aligned : Aligned text text') :
    Option.Rel (Spaced word) (Module.strip? word text) (Module.strip? word text') :=
  aligned.strip? solid.ne_nil solid.chain

theorem Aligned.keyword? (solid : Solid word.toList) (aligned : Aligned text text') :
    Option.Rel (Spaced word.toList) (keyword? word text) (keyword? word text') := by
  have stripped := aligned.strip?_solid solid
  rw [Module.keyword?, Module.keyword?]
  generalize Module.strip? word.toList text = found at stripped
  generalize Module.strip? word.toList text' = found' at stripped
  cases stripped with
  | none => exact .none
  | @some rest rest' spaced =>
      obtain ⟨front, last, same, joint⟩ := solid.eq_concat
      have goes_on := (same ▸ spaced).head?_any joint fun d => isJoint_of_isNameChar
      dsimp only
      rw [goes_on]
      split
      · exact .none
      · exact .some spaced

/-- The longest word at the start is the same. -/
theorem Spaced.takeWhile {part : Char → Bool} (parts : ∀ d, part d = true → isJoint d = true)
    (joint : isJoint c = true) (spaced : Spaced (before ++ [c]) text text') :
    text'.takeWhile part = text.takeWhile part ∧
      Spaced (before ++ c :: text.takeWhile part) (text.dropWhile part) (text'.dropWhile part) := by
  induction text generalizing before c text' with
  | nil =>
      cases spaced with
      | nil => exact ⟨rfl, .nil _⟩
      | @blank _ _ text' b blank seam spaced =>
          have here : part b = false := eq_false_of_not_isJoint parts (isJoint_of_isBlank blank)
          simpa [here] using Spaced.blank blank seam spaced
  | cons d text ih =>
      cases spaced with
      | @same _ _ text' _ spaced =>
          by_cases goes_on : part d = true
          · obtain ⟨same, spaced⟩ := ih (parts d goes_on) spaced
            simpa [goes_on, same] using spaced
          · simpa [goes_on] using Spaced.same spaced
      | @blank _ _ text' b blank seam spaced =>
          have here : part b = false := eq_false_of_not_isJoint parts (isJoint_of_isBlank blank)
          have there : part d = false := eq_false_of_not_isJoint parts (seam.not_isJoint joint)
          simpa [here, there] using Spaced.blank blank seam spaced

theorem Aligned.takeWhile {part : Char → Bool} (parts : ∀ d, part d = true → isJoint d = true)
    (aligned : Aligned text text') :
    text'.takeWhile part = text.takeWhile part ∧
      Spaced [] (text.dropWhile part) (text'.dropWhile part) := by
  cases aligned with
  | nil => exact ⟨rfl, .nil _⟩
  | @cons text text' c spaced =>
      by_cases begins : part c = true
      · obtain ⟨same, spaced⟩ := @Spaced.takeWhile [] text text' c part parts (parts c begins) spaced
        simpa [begins, same] using spaced.start
      · simpa [begins] using Spaced.same spaced

theorem Spaced.readName {name : String} (spaced : Spaced before text text')
    (read : readName text = .ok (name, rest)) :
    ∃ rest', Module.readName text' = .ok (name, rest') ∧ Spaced [] rest rest' := by
  obtain ⟨same, dropped⟩ := spaced.trimStart.takeWhile fun d => isJoint_of_isNameChar
  rw [Module.readName] at read ⊢
  rw [same]
  split at read
  · cases read
  · rename_i some_name
    cases read
    rw [if_neg some_name]
    exact ⟨_, rfl, dropped⟩

/-! ## Words and blanks behind them -/

theorem Aligned.wordThenBlanks? (solid : Solid word.toList) (aligned : Aligned text text')
    (found : wordThenBlanks? word text = some rest) :
    ∃ rest', Module.wordThenBlanks? word text' = some rest' ∧ Aligned rest rest' := by
  obtain ⟨b, behind, blank, same, rfl⟩ := wordThenBlanks?_eq_some_iff.1 found
  have stripped := aligned.strip?_solid solid
  rw [strip?_eq_some_iff.2 same] at stripped
  generalize taken : Module.strip? word.toList text' = after at stripped
  cases stripped with
  | some spaced =>
      rw [strip?_eq_some_iff] at taken
      cases spaced with
      | same spaced =>
          exact ⟨_, wordThenBlanks?_eq_some_iff.2 ⟨b, _, blank, taken, rfl⟩, spaced.trimStart⟩
      | blank blank' _ spaced =>
          have aligned := spaced.trimStart
          rw [trimStart_cons_of_isBlank blank] at aligned
          exact ⟨_, wordThenBlanks?_eq_some_iff.2 ⟨_, _, blank', taken, rfl⟩, aligned⟩

/-- A word that a blank follows only in the second text is followed by a new lexeme in the first. -/
theorem Aligned.wordThenBlanks?_back (solid : Solid word.toList) (aligned : Aligned text text')
    {rest' : List Char} (found : Module.wordThenBlanks? word text' = some rest') :
    ∃ rest, Aligned rest rest' ∧ (Module.wordThenBlanks? word text = some rest ∨
      Module.wordThenBlanks? word text = none ∧ Seam word.toList rest ∧
        rest.head?.any Text.isBlank = false) := by
  obtain ⟨b, behind, blank, same, rfl⟩ := wordThenBlanks?_eq_some_iff.1 found
  have stripped := aligned.strip?_solid solid
  rw [strip?_eq_some_iff.2 same] at stripped
  generalize taken : Module.strip? word.toList text = after at stripped
  cases stripped with
  | @some rest _ spaced =>
      cases spaced with
      | same spaced =>
          rw [strip?_eq_some_iff] at taken
          exact ⟨_, spaced.trimStart, .inl (wordThenBlanks?_eq_some_iff.2 ⟨b, _, blank, taken, rfl⟩)⟩
      | blank _ seam spaced =>
          have aligned := spaced.trimStart
          cases ahead : rest.head?.any Text.isBlank with
          | false =>
              rw [trimStart_of_head? ahead] at aligned
              refine ⟨rest, aligned, .inr ⟨?_, seam, ahead⟩⟩
              rw [Module.wordThenBlanks?, taken]
              cases rest with
              | nil => rfl
              | cons d rest => simpa using ahead
          | true =>
              cases rest with
              | nil => cases ahead
              | cons d rest =>
                  have blank' : Text.isBlank d = true := by simpa using ahead
                  rw [strip?_eq_some_iff] at taken
                  rw [trimStart_cons_of_isBlank blank'] at aligned
                  exact ⟨_, aligned, .inl (wordThenBlanks?_eq_some_iff.2 ⟨d, _, blank', taken, rfl⟩)⟩

/-- What is made of the lexemes behind a word is the same, if no word is ended by a blank that only the
second text has. -/
theorem Aligned.wordThenBlanks?_bind {β : Type} {related : β → β → Prop}
    {next : List Char → Option β} (solid : Solid word.toList) (aligned : Aligned text text')
    (follows : ∀ {rest rest'}, Aligned rest rest' → Option.Rel related (next rest) (next rest'))
    (idle : ∀ {rest}, rest.head?.any isJoint = false → next rest = none) :
    Option.Rel related ((Module.wordThenBlanks? word text).bind next)
      ((Module.wordThenBlanks? word text').bind next) := by
  cases found' : Module.wordThenBlanks? word text' with
  | none =>
      cases found : Module.wordThenBlanks? word text with
      | none => exact .none
      | some rest =>
          obtain ⟨rest', taken, -⟩ := aligned.wordThenBlanks? solid found
          cases found'.symm.trans taken
  | some rest' =>
      obtain ⟨rest, behind, found | ⟨none_found, seam, -⟩⟩ := aligned.wordThenBlanks?_back solid found'
      · rw [found]
        exact follows behind
      · have plain : rest'.head?.any isJoint = false := by
          rw [behind.head?_eq]
          obtain ⟨front, last, same, joint⟩ := solid.eq_concat
          cases rest with
          | nil => rfl
          | cons d rest => simpa using (same ▸ seam).not_isJoint joint
        rw [none_found, Option.bind_some, idle plain]
        exact .none

theorem Aligned.skipTagging (aligned : Aligned text text') :
    Aligned (skipTagging text) (Module.skipTagging text') := by
  rw [Module.skipTagging, Module.skipTagging]
  cases found' : wordOf? ["IMPLICIT", "EXPLICIT"] text' with
  | none =>
      cases found : wordOf? ["IMPLICIT", "EXPLICIT"] text with
      | none => exact aligned
      | some entry =>
          obtain ⟨word, rest⟩ := entry
          obtain ⟨member, taken⟩ := (wordOf?_eq_some_iff solid_taggings).1 found
          obtain ⟨rest', taken', -⟩ := aligned.wordThenBlanks? (solid_taggings word member) taken
          cases found'.symm.trans ((wordOf?_eq_some_iff solid_taggings).2 ⟨member, taken'⟩)
  | some entry =>
      obtain ⟨word, rest'⟩ := entry
      obtain ⟨member, taken'⟩ := (wordOf?_eq_some_iff solid_taggings).1 found'
      obtain ⟨rest, behind, taken | ⟨-, seam, plain⟩⟩ :=
        aligned.wordThenBlanks?_back (solid_taggings word member) taken'
      · have found : wordOf? ["IMPLICIT", "EXPLICIT"] text = some (word, rest) :=
          (wordOf?_eq_some_iff solid_taggings).2 ⟨member, taken⟩
        rw [found]
        exact behind
      · cases plain.symm.trans (seam.tagged word member (List.suffix_refl _))

/-- In front of digits the same class word stands in both texts. -/
theorem Aligned.readClassWord (aligned : Aligned text text') {class? : Option String}
    (read : readClassWord text = (class?, rest)) (digits : rest.takeWhile Text.isDecimalDigit ≠ []) :
    ∃ rest', Module.readClassWord text' = (class?, rest') ∧ Aligned rest rest' := by
  rw [Module.readClassWord] at read ⊢
  cases found : wordOf? classWords text with
  | some entry =>
      rw [found] at read
      cases read
      obtain ⟨member, taken⟩ := (wordOf?_eq_some_iff solid_classWords).1 found
      obtain ⟨rest', taken', behind⟩ := aligned.wordThenBlanks? (solid_classWords _ member) taken
      rw [(wordOf?_eq_some_iff solid_classWords).2 ⟨member, taken'⟩]
      exact ⟨rest', rfl, behind⟩
  | none =>
      rw [found] at read
      cases read
      cases found' : wordOf? classWords text' with
      | none => exact ⟨text', rfl, aligned⟩
      | some entry =>
          obtain ⟨member, taken'⟩ := (wordOf?_eq_some_iff solid_classWords).1 found'
          obtain ⟨b, behind, -, same, -⟩ := wordThenBlanks?_eq_some_iff.1 taken'
          -- A class word does not begin with a digit.
          obtain ⟨first, more, spelled⟩ := List.exists_cons_of_ne_nil (solid_classWords _ member).ne_nil
          have letter := not_isDecimalDigit_classWords _ member
          rw [spelled, List.head?_cons, Option.any_some] at letter
          have begins := aligned.head?_eq
          rw [same, spelled, List.cons_append, List.head?_cons] at begins
          obtain ⟨others, rfl⟩ := List.head?_eq_some_iff.1 begins.symm
          simp [letter] at digits

theorem Spaced.bracketedTag? (spaced : Spaced before text text') {class? : Option String}
    {digits : List Char} (found : bracketedTag? text = some (class?, digits, rest)) :
    ∃ rest', Module.bracketedTag? text' = some (class?, digits, rest') ∧ Spaced [] rest rest' := by
  obtain ⟨inside, behind, opened, read, rfl, some_digit, closed⟩ := bracketedTag?_eq_some_iff.1 found
  have outer := spaced.trimStart
  rw [opened] at outer
  generalize opened' : Text.trimStart text' = start' at outer
  cases outer with
  | @cons _ inside' _ spaced =>
      obtain ⟨behind', read', aligned⟩ := spaced.trimStart.readClassWord read some_digit
      obtain ⟨same, spaced⟩ := aligned.takeWhile fun d => isJoint_of_isDecimalDigit
      have last := spaced.trimStart
      rw [closed] at last
      generalize closed' : Text.trimStart (behind'.dropWhile _) = end' at last
      cases last with
      | @cons _ rest' _ spaced =>
          exact ⟨rest', bracketedTag?_eq_some_iff.2
            ⟨inside', behind', opened', read', same.symm, some_digit, closed'⟩, spaced.start⟩

/-- The same tag is read, unless what follows cannot be read. -/
theorem Spaced.readTag (spaced : Spaced before text text') {tag : Option Tag}
    (read : readTag text = .ok (tag, rest)) (closed : rest.head? ≠ some '[') :
    ∃ rest', Module.readTag text' = .ok (tag, rest') ∧ Aligned rest rest' := by
  rw [Module.readTag] at read ⊢
  cases found : Module.bracketedTag? text with
  | none =>
      rw [found] at read
      cases read
      have aligned := spaced.trimStart
      have plain : (Text.trimStart text).head? ≠ some '[' := by
        intro opens
        rw [skipTagging_of_head? (by simp [opens, taggings])] at closed
        exact closed opens
      rw [bracketedTag?_eq_none (aligned.head?_eq ▸ plain)]
      exact ⟨_, rfl, aligned.skipTagging⟩
  | some entry =>
      obtain ⟨class?, digits, behind⟩ := entry
      obtain ⟨behind', found', spaced⟩ := spaced.bracketedTag? found
      rw [found] at read
      rw [found']
      dsimp only at read ⊢
      split at read
      · rename_i number value
        cases read
        exact ⟨_, rfl, spaced.trimStart.skipTagging⟩
      · cases read

/-! ## Groups -/

/-- A seam stays one if the text behind it is cut off at another place. -/
theorem Seam.cut {inside : List Char} (seam : Seam before text)
    (kept : inside.head? = text.head? ∨ inside = [] ∧ text.head?.any Text.isBlank = false) :
    Seam before inside where
  apart c last d first := by
    rcases kept with same | ⟨rfl, -⟩
    · exact seam.apart c last d (same ▸ first)
    · cases first
  tagged word member suffix := by
    have ahead := seam.tagged word member suffix
    rcases kept with same | ⟨-, plain⟩
    · exact same ▸ ahead
    · cases plain.symm.trans ahead

/-- What a group of brackets holds is spaced, and so is what follows it. -/
theorem Spaced.enclosed? {opening closing : Char} (plain : Text.isBlank opening = false)
    (plain' : Text.isBlank closing = false) (spaced : Spaced before text text') {depth : Nat}
    (found : enclosed? opening closing depth [] text = some (inner, rest)) :
    ∃ inner' rest', Module.enclosed? opening closing depth [] text' = some (inner', rest') ∧
      Spaced before inner inner' ∧ Spaced [] rest rest' ∧
        (inner.head? = text.head? ∨ inner = [] ∧ text.head?.any Text.isBlank = false) := by
  induction spaced generalizing depth inner rest with
  | nil => cases found
  | @same before text text' c spaced ih =>
      rw [enclosed?_cons] at found ⊢
      split at found
      · rename_i closes
        cases found
        rw [if_pos closes]
        refine ⟨_, _, rfl, .nil _, spaced.start, .inr ⟨rfl, ?_⟩⟩
        simpa [closes.2.1] using plain'
      · rename_i inside
        obtain ⟨⟨inner, rest⟩, later, same⟩ := Option.map_eq_some_iff.1 found
        cases same
        obtain ⟨inner', rest', later', within, behind, -⟩ := ih later
        rw [if_neg inside, later']
        exact ⟨_, _, rfl, .same within, behind, .inl rfl⟩
  | @blank before text text' b blank seam spaced ih =>
      obtain ⟨inner', rest', later, within, behind, kept⟩ := ih found
      have unlike : b ≠ opening := by
        rintro rfl
        cases plain.symm.trans blank
      have unlike' : b ≠ closing := by
        rintro rfl
        cases plain'.symm.trans blank
      refine ⟨b :: inner', rest', ?_, .blank blank (seam.cut kept) within, behind, kept⟩
      simp [enclosed?_cons, depthBehind, unlike, unlike', later]

theorem Spaced.readBraces (spaced : Spaced before text text')
    (read : readBraces text = .ok (inner, rest)) :
    ∃ inner' rest', Module.readBraces text' = .ok (inner', rest') ∧ Spaced [] inner inner' ∧
      Spaced [] rest rest' := by
  obtain ⟨behind, opened, closed⟩ := readBraces_eq_ok_iff.1 read
  have aligned := spaced.trimStart
  rw [opened] at aligned
  generalize opened' : Text.trimStart text' = start' at aligned
  cases aligned with
  | @cons _ behind' _ spaced =>
      obtain ⟨inner', rest', closed', within, after, -⟩ := spaced.enclosed? rfl rfl closed
      exact ⟨inner', rest', readBraces_eq_ok_iff.2 ⟨behind', opened', closed'⟩, within.start, after⟩

theorem Spaced.skipConstraints (spaced : Spaced before text text')
    (skipped : skipConstraints text = .ok rest) :
    ∃ rest', Module.skipConstraints text' = .ok rest' ∧ Aligned rest rest' := by
  fun_induction Module.skipConstraints text generalizing before text' with
  | case1 text behind opened inner rest'' found ih =>
      have aligned := spaced.trimStart
      rw [opened] at aligned
      generalize opened' : Text.trimStart text' = start' at aligned
      cases aligned with
      | @cons _ behind' _ spaced =>
          obtain ⟨inner', after', closed', -, after, -⟩ := spaced.enclosed? rfl rfl found
          rw [skipConstraints_of_group opened' closed']
          exact ih after skipped
  | case2 => cases skipped
  | case3 text other =>
      cases skipped
      have aligned := spaced.trimStart
      refine ⟨_, skipConstraints_of_head? ?_, aligned⟩
      rw [aligned.head?_eq]
      intro opens
      obtain ⟨behind, opened⟩ := List.head?_eq_some_iff.1 opens
      exact other behind opened

/-- A text is cut into as many pieces as the text with further blanks. -/
theorem Spaced.splitItemsFrom (spaced : Spaced before text text') (depth : Int) :
    ∃ first first' more more', splitItemsFrom depth [] text = first :: more ∧
      Module.splitItemsFrom depth [] text' = first' :: more' ∧ Spaced before first first' ∧
        List.Forall₂ (Spaced []) more more' ∧
          (first.head? = text.head? ∨ first = [] ∧ text.head?.any Text.isBlank = false) := by
  induction spaced generalizing depth with
  | nil => exact ⟨[], [], [], [], rfl, rfl, .nil _, .nil, .inl rfl⟩
  | @same before text text' c spaced ih =>
      by_cases comma : c = ',' ∧ depth = 0
      · obtain ⟨rfl, rfl⟩ := comma
        obtain ⟨first, first', more, more', cut, cut', piece, pieces, -⟩ := ih 0
        have cuts (text : List Char) : Module.splitItemsFrom 0 [] (',' :: text) =
            [] :: Module.splitItemsFrom 0 [] text := by
          simp [Module.splitItemsFrom]
        rw [cuts, cuts, cut, cut']
        exact ⟨_, _, _, _, rfl, rfl, .nil _, .cons piece.start pieces, .inr ⟨rfl, rfl⟩⟩
      · obtain ⟨first, first', more, more', cut, cut', piece, pieces, -⟩ := ih (levelBehind depth c)
        exact ⟨_, _, _, _, splitItemsFrom_cons comma cut, splitItemsFrom_cons comma cut',
          .same piece, pieces, .inl rfl⟩
  | @blank before text text' b blank seam _ ih =>
      obtain ⟨first, first', more, more', cut, cut', piece, pieces, kept⟩ := ih depth
      have plain : ∀ c ∈ ['\x7b', '(', '\x7d', ')', ','], b ≠ c := by
        rintro c member rfl
        simp only [List.mem_cons, List.not_mem_nil, or_false] at member
        rcases member with rfl | rfl | rfl | rfl | rfl <;> cases blank
      have level : levelBehind depth b = depth := by
        simp only [List.forall_mem_cons] at plain
        simp [levelBehind, plain]
      refine ⟨first, b :: first', more, more', cut, splitItemsFrom_cons ?_ (level.symm ▸ cut'),
        .blank blank (seam.cut kept) piece, pieces, kept⟩
      exact fun comma => plain ',' (by simp) comma.1

theorem Spaced.splitItems (spaced : Spaced before text text') :
    List.Forall₂ (Spaced []) (splitItems text) (Module.splitItems text') := by
  obtain ⟨first, first', more, more', cut, cut', piece, pieces, -⟩ := spaced.splitItemsFrom 0
  rw [Module.splitItems, Module.splitItems, cut, cut']
  exact .cons piece.start pieces

/-! ## Items -/

/-- Without the blanks at its end a text is spaced as before. -/
theorem Spaced.rdropWhile (spaced : Spaced before text text') :
    Spaced before (text.rdropWhile Text.isBlank) (text'.rdropWhile Text.isBlank) ∧
      (text'.rdropWhile Text.isBlank = [] ↔ text.rdropWhile Text.isBlank = []) := by
  induction spaced with
  | nil => exact ⟨.nil _, Iff.rfl⟩
  | @same before text text' c _ ih =>
      obtain ⟨spaced, none_left⟩ := ih
      simp only [rdropWhile_cons, none_left]
      split
      · exact ⟨.nil _, Iff.rfl⟩
      · exact ⟨.same spaced, by simp⟩
  | @blank before text text' b blank seam _ ih =>
      obtain ⟨spaced, none_left⟩ := ih
      simp only [rdropWhile_cons, none_left]
      by_cases dropped : text.rdropWhile Text.isBlank = []
      · rw [if_pos ⟨dropped, blank⟩, dropped]
        exact ⟨.nil _, Iff.rfl⟩
      · rw [if_neg fun all => dropped all.1]
        refine ⟨.blank blank (seam.cut (.inl ?_)) spaced, by simp [dropped]⟩
        have front := List.rdropWhile_prefix Text.isBlank text
        cases text with
        | nil => exact absurd rfl dropped
        | cons c text =>
            obtain ⟨rest, whole⟩ := front
            cases kept : (c :: text).rdropWhile Text.isBlank with
            | nil => exact absurd kept dropped
            | cons d more =>
                rw [kept, List.cons_append] at whole
                simp [(List.cons_eq_cons.1 whole).1]

theorem Spaced.trim (spaced : Spaced before text text') :
    Aligned (Text.trim text) (Text.trim text') := by
  have trimmed (text : List Char) :
      Text.trim text = (Text.trimStart text).rdropWhile Text.isBlank := rfl
  rw [trimmed, trimmed]
  have aligned := spaced.trimStart
  generalize Text.trimStart text = start at aligned
  generalize Text.trimStart text' = start' at aligned
  cases aligned with
  | nil => exact .nil
  | cons spaced =>
      obtain ⟨spaced, none_left⟩ := spaced.rdropWhile
      simp only [rdropWhile_cons, none_left]
      split
      · exact .nil
      · exact .cons spaced

theorem Aligned.standsFirst (solid : Solid word.toList) (aligned : Aligned text text') :
    standsFirst text' word = Module.standsFirst text word := by
  have stripped := aligned.strip?_solid solid
  rw [Module.standsFirst, Module.standsFirst]
  generalize Module.strip? word.toList text = found at stripped
  generalize Module.strip? word.toList text' = found' at stripped
  cases stripped with
  | none => rfl
  | some spaced =>
      obtain ⟨front, last, same, joint⟩ := solid.eq_concat
      exact congrArg (!·) ((same ▸ spaced).head?_any joint fun d => isJoint_of_isWordChar)

/-- A word that stands alone does so in the text with further blanks. -/
theorem Spaced.hasWord {words : List String} (solid : ∀ word ∈ words, Solid word.toList)
    {joined : Bool} (spaced : Spaced before text text')
    (held : joined = true → ∃ c ∈ before.getLast?, isJoint c = true) :
    hasWord words joined text' = Module.hasWord words joined text := by
  induction spaced generalizing joined with
  | nil => rfl
  | @same before text text' c spaced ih =>
      have aligned : Aligned (c :: text) (c :: text') := .cons spaced.of_append
      have first : words.any (Module.standsFirst (c :: text')) =
          words.any (Module.standsFirst (c :: text)) := by
        rw [Bool.eq_iff_iff, List.any_eq_true, List.any_eq_true]
        exact exists_congr fun word => and_congr_right fun member => by
          rw [aligned.standsFirst (solid word member)]
      rw [hasWord_cons, hasWord_cons, first, ih fun part => ⟨c, by simp, isJoint_of_isWordChar part⟩]
  | @blank before text text' b blank seam _ ih =>
      rw [hasWord_of_not_isJoint solid (isJoint_of_isBlank blank), @ih false fun part => by cases part]
      cases joined with
      | false => rfl
      | true =>
          obtain ⟨c, last, joint⟩ := held rfl
          obtain ⟨front, rfl⟩ := List.getLast?_eq_some_iff.1 last
          cases text with
          | nil => rfl
          | cons d text =>
              have plain := seam.not_isJoint joint
              rw [hasWord_of_not_isJoint solid plain, hasWord_of_not_isJoint solid plain]

end BerRecords.Module
