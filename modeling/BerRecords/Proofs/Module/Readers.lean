import BerRecords.Module.TypeReader
import BerRecords.Proofs.Module.Lexeme
import Mathlib.Data.List.DropRight
import Mathlib.Data.Option.Basic

/-!
# What the readers of a text find

For each reader of a lexeme, a group, a tag, a type or an item, the texts in which it finds something.
-/

set_option autoImplicit false

namespace BerRecords.Module

variable {text rest inner : List Char} {c : Char} {word : String} {type : TypeExpr}

/-! ## Words -/

structure Solid (word : List Char) : Prop where
  ne_nil : word ≠ []
  joint : ∀ c ∈ word, isJoint c = true

instance (word : List Char) : Decidable (Solid word) :=
  decidable_of_iff (word ≠ [] ∧ word.all isJoint = true)
    ⟨fun ⟨ne_nil, joint⟩ => ⟨ne_nil, List.all_eq_true.1 joint⟩,
      fun solid => ⟨solid.ne_nil, List.all_eq_true.2 solid.joint⟩⟩

/-- The end of a solid word, as what stands in front of its last character. -/
theorem Solid.eq_concat {word : List Char} (solid : Solid word) :
    ∃ front last, word = front ++ [last] ∧ isJoint last = true := by
  obtain ⟨front, last, rfl⟩ := List.eq_nil_or_concat word |>.resolve_left solid.ne_nil
  exact ⟨front, last, by simp, solid.joint last (by simp)⟩

theorem Solid.not_isBlank (solid : Solid word.toList) :
    ∀ c ∈ word.toList, Text.isBlank c = false := by
  intro c member
  by_contra blank
  rw [Bool.not_eq_false] at blank
  cases (isJoint_of_isBlank blank).symm.trans (solid.joint c member)

theorem isJoint_of_isWordChar (part : Text.isWordChar c = true) : isJoint c = true := by
  rw [isJoint, part, Bool.true_or]

theorem strip?_eq_some_iff {lead : List Char} :
    strip? lead text = some rest ↔ text = lead ++ rest := by
  fun_induction strip? lead text with
  | case1 => simp [eq_comm]
  | case2 => simp
  | case3 lead l text ih => simpa using ih
  | case4 lead l text c unlike => simp [Ne.symm unlike]

theorem strip?_of_not_isJoint {word : List Char} (solid : Solid word)
    (plain : text.head?.any isJoint = false) : strip? word text = none := by
  cases found : strip? word text with
  | none => rfl
  | some rest =>
      obtain ⟨first, more, rfl⟩ := List.exists_cons_of_ne_nil solid.ne_nil
      rw [strip?_eq_some_iff] at found
      simp [found, solid.joint first] at plain

theorem trimStart_cons_of_isBlank (blank : Text.isBlank c = true) (text : List Char) :
    Text.trimStart (c :: text) = Text.trimStart text := by
  rw [Text.trimStart, List.dropWhile_cons, if_pos blank, Text.trimStart]

theorem trimStart_of_head? (plain : text.head?.any Text.isBlank = false) :
    Text.trimStart text = text := by
  cases text with
  | nil => rfl
  | cons c text =>
      have other : Text.isBlank c = false := by simpa using plain
      rw [Text.trimStart, List.dropWhile_cons, if_neg (by simp [other])]

theorem wordThenBlanks?_eq_some_iff :
    wordThenBlanks? word text = some rest ↔
      ∃ b behind, Text.isBlank b = true ∧ text = word.toList ++ b :: behind ∧
        rest = Text.trimStart behind := by
  rw [wordThenBlanks?]
  constructor
  · intro found
    split at found
    · rename_i b behind stripped
      split at found
      · rename_i blank
        cases found
        exact ⟨b, behind, blank, strip?_eq_some_iff.1 stripped, rfl⟩
      · cases found
    · cases found
  · rintro ⟨b, behind, blank, same, rfl⟩
    rw [strip?_eq_some_iff.2 same]
    simp [blank]

theorem wordThenBlanks?_of_not_isJoint {word : String} (solid : Solid word.toList)
    (plain : text.head?.any isJoint = false) : wordThenBlanks? word text = none := by
  rw [wordThenBlanks?, strip?_of_not_isJoint solid plain]

/-- Solid words in front of a blank are the same if the text is. -/
theorem Solid.unique {word' : String} {rest' : List Char} (solid : Solid word.toList)
    (solid' : Solid word'.toList)
    (found : wordThenBlanks? word text = some rest) (found' : wordThenBlanks? word' text = some rest') :
    word = word' := by
  have taken {word : String} {rest : List Char} (solid : Solid word.toList)
      (found : wordThenBlanks? word text = some rest) :
      text.takeWhile (!Text.isBlank ·) = word.toList := by
    obtain ⟨b, behind, blank, rfl, -⟩ := wordThenBlanks?_eq_some_iff.1 found
    rw [List.takeWhile_append_of_pos (by simpa using solid.not_isBlank)]
    simp [blank]
  exact String.toList_inj.1 ((taken solid found).symm.trans (taken solid' found'))

theorem wordOf?_eq_some_iff {words : List String} (solid : ∀ word ∈ words, Solid word.toList) :
    wordOf? words text = some (word, rest) ↔
      word ∈ words ∧ wordThenBlanks? word text = some rest := by
  rw [wordOf?]
  constructor
  · intro found
    obtain ⟨word', member, taken⟩ := List.exists_of_findSome?_eq_some found
    obtain ⟨rest', behind, same⟩ := Option.map_eq_some_iff.1 taken
    cases same
    exact ⟨member, behind⟩
  · rintro ⟨member, found⟩
    cases other : words.findSome? fun word => (wordThenBlanks? word text).map (word, ·) with
    | none =>
        have refused := List.findSome?_eq_none_iff.1 other word member
        simp [found] at refused
    | some entry =>
        obtain ⟨word', member', taken⟩ := List.exists_of_findSome?_eq_some other
        obtain ⟨rest', behind, rfl⟩ := Option.map_eq_some_iff.1 taken
        obtain rfl := (solid word member).unique (solid word' member') found behind
        cases found.symm.trans behind
        rfl

/-! ## Tags -/

def taggings : List String :=
  ["IMPLICIT", "EXPLICIT"]

theorem solid_taggings : ∀ word ∈ taggings, Solid word.toList := by
  decide

theorem skipTagging_of_head? (other : ∀ word ∈ taggings, text.head? ≠ word.toList.head?) :
    skipTagging text = text := by
  rw [skipTagging]
  split
  · rename_i word rest found
    obtain ⟨member, taken⟩ := (wordOf?_eq_some_iff solid_taggings).1 found
    obtain ⟨b, behind, -, rfl, -⟩ := wordThenBlanks?_eq_some_iff.1 taken
    obtain ⟨first, more, spelled⟩ := List.exists_cons_of_ne_nil (solid_taggings _ member).ne_nil
    exact absurd (by simp [spelled]) (other word member)
  · rfl

theorem solid_classWords : ∀ word ∈ classWords, Solid word.toList := by
  decide

theorem not_isDecimalDigit_classWords :
    ∀ word ∈ classWords, word.toList.head?.any Text.isDecimalDigit = false := by
  decide

theorem bracketedTag?_eq_some_iff {class? : Option String} {digits : List Char} :
    bracketedTag? text = some (class?, digits, rest) ↔
      ∃ inside behind, Text.trimStart text = '[' :: inside ∧
        readClassWord (Text.trimStart inside) = (class?, behind) ∧
        digits = behind.takeWhile Text.isDecimalDigit ∧ digits ≠ [] ∧
        Text.trimStart (behind.dropWhile Text.isDecimalDigit) = ']' :: rest := by
  rw [bracketedTag?]
  constructor
  · intro found
    split at found
    · rename_i inside opened
      generalize read : readClassWord (Text.trimStart inside) = result at found
      obtain ⟨word, behind⟩ := result
      dsimp only at found
      split at found
      · cases found
      · rename_i some_digit
        split at found
        · rename_i after closed
          cases found
          exact ⟨inside, behind, opened, read, rfl, by simpa using some_digit, closed⟩
        · cases found
    · cases found
  · rintro ⟨inside, behind, opened, read, rfl, some_digit, closed⟩
    simp [opened, read, some_digit, closed]

theorem bracketedTag?_eq_none (plain : (Text.trimStart text).head? ≠ some '[') :
    bracketedTag? text = none := by
  cases found : bracketedTag? text with
  | none => rfl
  | some entry =>
      obtain ⟨class?, digits, rest⟩ := entry
      obtain ⟨inside, -, opened, -⟩ := bracketedTag?_eq_some_iff.1 found
      simp [opened] at plain

/-! ## Groups -/

theorem enclosed?_passed (opening closing : Char) (depth : Nat) (passed text : List Char) :
    enclosed? opening closing depth passed text =
      (enclosed? opening closing depth [] text).map fun (inner, rest) =>
        (passed.reverse ++ inner, rest) := by
  induction text generalizing depth passed with
  | nil => rfl
  | cons c text ih =>
      rw [enclosed?, enclosed?, ih, ih (depth + 1) [c], ih (depth - 1) [c], ih depth [c],
        ih (depth - 1) (c :: passed), ih depth (c :: passed)]
      simp only [Option.map_map, apply_ite (Option.map _)]
      split
      · simp [Function.comp_def]
      · split
        · split <;> simp [Function.comp_def]
        · simp [Function.comp_def]

def depthBehind (opening closing : Char) (depth : Nat) (c : Char) : Nat :=
  if c = opening then depth + 1 else if c = closing then depth - 1 else depth

theorem enclosed?_cons (opening closing : Char) (depth : Nat) (c : Char) (text : List Char) :
    enclosed? opening closing depth [] (c :: text) =
      if c ≠ opening ∧ c = closing ∧ depth ≤ 1 then some ([], text)
      else (enclosed? opening closing (depthBehind opening closing depth c) [] text).map
        fun (inner, rest) => (c :: inner, rest) := by
  rw [enclosed?, enclosed?_passed _ _ _ [c], enclosed?_passed _ _ _ [c], enclosed?_passed _ _ _ [c],
    depthBehind]
  by_cases opens : c = opening
  · simp [opens]
  · by_cases closes : c = closing
    · subst closes
      by_cases last : depth ≤ 1 <;> simp [opens, last]
    · simp [opens, closes]

theorem readBraces_eq_ok_iff :
    readBraces text = .ok (inner, rest) ↔
      ∃ behind, Text.trimStart text = '\x7b' :: behind ∧
        enclosed? '\x7b' '\x7d' 1 [] behind = some (inner, rest) := by
  rw [readBraces]
  constructor
  · intro read
    split at read
    · rename_i behind opened
      split at read
      · rename_i found closed
        cases read
        exact ⟨behind, opened, closed⟩
      · cases read
    · cases read
  · rintro ⟨behind, opened, closed⟩
    simp [opened, closed]

theorem skipNamedValues_of_group {inner : List Char}
    (opened : (Text.trimStart text).head? = some '\x7b')
    (read : readBraces text = .ok (inner, rest)) : skipNamedValues text = .ok rest := by
  obtain ⟨behind, same⟩ := List.head?_eq_some_iff.1 opened
  obtain ⟨behind', same', closed⟩ := readBraces_eq_ok_iff.1 read
  cases same.symm.trans same'
  have again : readBraces ('\x7b' :: behind) = .ok (inner, rest) :=
    readBraces_eq_ok_iff.2 ⟨behind, rfl, closed⟩
  rw [skipNamedValues]
  simp only [same, again]
  rfl

theorem skipNamedValues_of_head? (plain : (Text.trimStart text).head? ≠ some '\x7b') :
    skipNamedValues text = .ok (Text.trimStart text) := by
  rw [skipNamedValues]
  split
  · rename_i opened
    simp [opened] at plain
  · rfl

theorem readBraces_of_skipNamedValues (opened : (Text.trimStart text).head? = some '\x7b')
    (skipped : skipNamedValues text = .ok rest) : ∃ inner, readBraces text = .ok (inner, rest) := by
  obtain ⟨behind, same⟩ := List.head?_eq_some_iff.1 opened
  rw [skipNamedValues] at skipped
  simp only [same] at skipped
  cases read : readBraces ('\x7b' :: behind) with
  | error fault =>
      rw [read] at skipped
      cases skipped
  | ok entry =>
      obtain ⟨inner, after⟩ := entry
      rw [read] at skipped
      cases skipped
      obtain ⟨behind', same', closed⟩ := readBraces_eq_ok_iff.1 read
      cases same'
      exact ⟨inner, readBraces_eq_ok_iff.2 ⟨behind, same, closed⟩⟩

theorem skipConstraints_of_group {behind : List Char} (opened : Text.trimStart text = '(' :: behind)
    (closed : enclosed? '(' ')' 1 [] behind = some (inner, rest)) :
    skipConstraints text = skipConstraints rest := by
  rw [skipConstraints]
  split
  · rename_i behind' opened'
    obtain rfl : behind = behind' := by simpa [opened] using opened'
    split
    · rename_i inner' rest' closed'
      cases closed.symm.trans closed'
      rfl
    · rename_i unclosed
      cases closed.symm.trans unclosed
  · rename_i other
    exact absurd opened (other behind)

theorem skipConstraints_of_head? (plain : (Text.trimStart text).head? ≠ some '(') :
    skipConstraints text = .ok (Text.trimStart text) := by
  rw [skipConstraints]
  split
  · rename_i opened
    simp [opened] at plain
  · rfl

theorem splitItemsFrom_passed {depth : Int} {first : List Char} {more : List (List Char)}
    (cut : splitItemsFrom depth [] text = first :: more) (piece : List Char) :
    splitItemsFrom depth piece text = (piece.reverse ++ first) :: more := by
  induction text generalizing depth piece first more with
  | nil =>
      cases cut
      simp [splitItemsFrom]
  | cons c text ih =>
      have later (depth : Int) (cut : splitItemsFrom depth [c] text = first :: more) :
          splitItemsFrom depth (c :: piece) text = (piece.reverse ++ first) :: more := by
        cases rest : splitItemsFrom depth [] text with
        | nil =>
            have := splitItemsFrom_length depth [] text
            simp [rest, joinedLength] at this
        | cons first' more' =>
            rw [ih rest [c]] at cut
            cases cut
            simp [ih rest (c :: piece)]
      rw [splitItemsFrom] at cut ⊢
      split at cut
      · rename_i opens
        rw [if_pos opens]
        exact later _ cut
      · rename_i opens
        rw [if_neg opens]
        split at cut
        · rename_i closes
          rw [if_pos closes]
          exact later _ cut
        · rename_i closes
          rw [if_neg closes]
          split at cut
          · rename_i comma
            cases cut
            rw [if_pos comma]
            simp
          · rename_i comma
            rw [if_neg comma]
            exact later _ cut

def levelBehind (depth : Int) (c : Char) : Int :=
  if c = '\x7b' || c = '(' then depth + 1 else if c = '\x7d' || c = ')' then depth - 1 else depth

theorem splitItemsFrom_cons {depth : Int} {first : List Char} {more : List (List Char)}
    (inside : ¬(c = ',' ∧ depth = 0))
    (cut : splitItemsFrom (levelBehind depth c) [] text = first :: more) :
    splitItemsFrom depth [] (c :: text) = (c :: first) :: more := by
  rw [splitItemsFrom]
  rw [levelBehind] at cut
  split at cut
  · rename_i opens
    rw [if_pos opens, splitItemsFrom_passed cut]
    rfl
  · rename_i opens
    rw [if_neg opens]
    split at cut
    · rename_i closes
      rw [if_pos closes, splitItemsFrom_passed cut]
      rfl
    · rename_i closes
      rw [if_neg closes, if_neg (by simpa using inside), splitItemsFrom_passed cut]
      rfl

/-! ## Built-in types and references -/

def secondWord? (first second : String) (text : List Char) : Option (List Char × List Char) :=
  match strip? second.toList text with
  | none => none
  | some rest =>
    if rest.head?.any Text.isWordChar then none
    else some (first.toList ++ ' ' :: second.toList, rest)

def wordPairs : List (String × String) :=
  [("OCTET", "STRING"), ("BIT", "STRING"), ("OBJECT", "IDENTIFIER")]

theorem pairedWords?_eq (text : List Char) :
    pairedWords? text = wordPairs.findSome? fun pair =>
      (wordThenBlanks? pair.1 text).bind (secondWord? pair.1 pair.2) := by
  refine congrArg (fun find => List.findSome? find wordPairs) (funext fun (first, second) => ?_)
  dsimp only
  cases wordThenBlanks? first text <;> rfl

theorem solid_wordPairs :
    ∀ pair ∈ wordPairs, Solid pair.1.toList ∧ Solid pair.2.toList := by
  decide

theorem pairedWords?_of_not_isJoint (plain : text.head?.any isJoint = false) :
    pairedWords? text = none := by
  rw [pairedWords?_eq, List.findSome?_eq_none_iff]
  intro pair member
  rw [wordThenBlanks?_of_not_isJoint (solid_wordPairs pair member).1 plain, Option.bind_none]

def ofWord (word : List Char) : TypeExpr :=
  match DeclaredType.ofKeyword? word with
  | some type => .builtin type
  | none => .reference (String.ofList word)

theorem readSimpleType_eq_ok_iff :
    readSimpleType text = .ok (type, rest) ↔
      ∃ word named behind, readTypeName text = .ok (word, named) ∧
        skipNamedValues named = .ok behind ∧ skipConstraints behind = .ok rest ∧
        type = ofWord word := by
  rw [readSimpleType]
  constructor
  · intro read
    cases first : readTypeName text with
    | error fault =>
        rw [first] at read
        cases read
    | ok entry =>
        obtain ⟨word, named⟩ := entry
        cases second : skipNamedValues named with
        | error fault =>
            simp only [first, bind, Except.bind, second] at read
            cases read
        | ok behind =>
            cases third : skipConstraints behind with
            | error fault =>
                simp only [first, bind, Except.bind, second, third] at read
                cases read
            | ok after =>
                simp only [first, bind, Except.bind, second, third] at read
                refine ⟨word, named, behind, rfl, second, ?_⟩
                rw [third, ofWord]
                split at read <;> cases read <;> simp [*]
  · rintro ⟨word, named, behind, first, second, third, rfl⟩
    simp only [first, bind, Except.bind, second, third, ofWord]
    cases DeclaredType.ofKeyword? word <;> rfl

/-! ## Types and items -/

theorem rdropWhile_cons (p : Char → Bool) (c : Char) (text : List Char) :
    (c :: text).rdropWhile p =
      if text.rdropWhile p = [] ∧ p c = true then [] else c :: text.rdropWhile p := by
  rw [List.rdropWhile, List.reverse_cons, List.dropWhile_append, List.rdropWhile]
  cases text.reverse.dropWhile p with
  | nil => by_cases drops : p c = true <;> simp [drops]
  | cons d rest => simp

/-- Whether a text starts with a word that ends there. -/
def standsFirst (text : List Char) (word : String) : Bool :=
  match strip? word.toList text with
  | some after => !after.head?.any Text.isWordChar
  | none => false

theorem hasWord_cons (words : List String) (joined : Bool) (c : Char) (text : List Char) :
    hasWord words joined (c :: text) =
      (!joined && words.any (standsFirst (c :: text)) || hasWord words (Text.isWordChar c) text) :=
  rfl

theorem standsFirst_of_not_isJoint (solid : Solid word.toList) (plain : isJoint c = false)
    (text : List Char) : standsFirst (c :: text) word = false := by
  rw [standsFirst]
  split
  · rename_i after found
    obtain ⟨first, more, spelled⟩ := List.exists_cons_of_ne_nil solid.ne_nil
    have joint := solid.joint first (by simp [spelled])
    rw [strip?_eq_some_iff, spelled, List.cons_append] at found
    cases found
    cases plain.symm.trans joint
  · rfl

theorem hasWord_of_not_isJoint {words : List String} (solid : ∀ word ∈ words, Solid word.toList)
    (plain : isJoint c = false) (joined : Bool) (text : List Char) :
    hasWord words joined (c :: text) = hasWord words false text := by
  have none_first : words.any (standsFirst (c :: text)) = false :=
    List.any_eq_false.2 fun word member => by
      simp [standsFirst_of_not_isJoint (solid word member) plain]
  have other : Text.isWordChar c = false := by
    rw [isJoint, Bool.or_eq_false_iff] at plain
    exact plain.1
  rw [hasWord_cons, none_first, other, Bool.and_false, Bool.false_or]

/-- The name of the type whose components an item stands for, behind the words that say so. -/
def source? (text : List Char) : Option String :=
  let source := text.takeWhile isJoint
  if source.isEmpty || !(Text.trimStart (text.dropWhile isJoint)).isEmpty then none
  else some (String.ofList source)

theorem componentsOf?_eq (item : List Char) :
    componentsOf? item = (wordThenBlanks? "COMPONENTS" (Text.trimStart item)).bind fun rest =>
      (wordThenBlanks? "OF" rest).bind source? := by
  rw [componentsOf?]
  cases wordThenBlanks? "COMPONENTS" (Text.trimStart item) with
  | none => rfl
  | some rest =>
      dsimp only [Option.bind_some]
      cases wordThenBlanks? "OF" rest <;> rfl

theorem source?_of_not_isJoint (plain : text.head?.any isJoint = false) : source? text = none := by
  cases text with
  | nil => rfl
  | cons c text =>
      have other : isJoint c = false := by simpa using plain
      simp [source?, other]

inductive ReadsType (text : List Char) : TypeExpr → List Char → Prop where
  | choice {behind inner rest : List Char} {items : List Item} :
      typeStart (Text.trimStart text) = .choice behind → readBraces behind = .ok (inner, rest) →
      readItems (splitItems inner) = .ok items → ReadsType text (.choice items) rest
  | collection {grouping : Grouping} {behind body after rest : List Char} {element : TypeExpr} :
      typeStart (Text.trimStart text) = .grouped grouping behind → skipConstraints behind = .ok body →
      keyword? "OF" (Text.trimStart body) = some after → readType after = .ok (element, rest) →
      ReadsType text (.collection grouping element) rest
  | record {grouping : Grouping} {behind body inner rest : List Char} {items : List Item} :
      typeStart (Text.trimStart text) = .grouped grouping behind → skipConstraints behind = .ok body →
      keyword? "OF" (Text.trimStart body) = none → readBraces body = .ok (inner, rest) →
      readItems (splitItems inner) = .ok items → ReadsType text (.record grouping items) rest
  | any {behind rest : List Char} {type : TypeExpr} : typeStart (Text.trimStart text) = .any behind →
      readAnyRest behind = .ok (type, rest) → ReadsType text type rest
  | simple {rest : List Char} {type : TypeExpr} : typeStart (Text.trimStart text) = .simple →
      readSimpleType (Text.trimStart text) = .ok (type, rest) → ReadsType text type rest

theorem readsType_of_readType (read : readType text = .ok (type, rest)) : ReadsType text type rest := by
  rw [readType] at read
  split at read
  · rename_i behind started
    split at read
    · cases read
    · rename_i inner after braced
      split at read
      · cases read
      · rename_i items listed
        cases read
        exact .choice started braced listed
  · rename_i grouping behind started
    split at read
    · cases read
    · rename_i body skipped
      split at read
      · rename_i after collected
        split at read
        · cases read
        · rename_i element last reads
          cases read
          exact .collection started skipped collected reads
      · rename_i uncollected
        split at read
        · cases read
        · rename_i inner after braced
          split at read
          · cases read
          · rename_i items listed
            cases read
            exact .record started skipped uncollected braced listed
  · rename_i behind started
    exact .any started read
  · rename_i started
    exact .simple started read

theorem ReadsType.readType_eq (reads : ReadsType text type rest) :
    readType text = .ok (type, rest) := by
  -- The reader matches with equations for its termination, so what is read cannot be rewritten in it.
  rw [readType]
  cases reads with
  | choice started braced listed =>
      split <;> rename_i started' <;> cases started.symm.trans started'
      split <;> rename_i braced' <;> cases braced.symm.trans braced'
      rw [listed]
  | collection started skipped collected read =>
      split <;> rename_i started' <;> cases started.symm.trans started'
      split <;> rename_i skipped' <;> cases skipped.symm.trans skipped'
      split <;> rename_i collected' <;> cases collected.symm.trans collected'
      rw [read]
  | record started skipped uncollected braced listed =>
      split <;> rename_i started' <;> cases started.symm.trans started'
      split <;> rename_i skipped' <;> cases skipped.symm.trans skipped'
      split <;> rename_i collected' <;> cases uncollected.symm.trans collected'
      split <;> rename_i braced' <;> cases braced.symm.trans braced'
      rw [listed]
  | any started read =>
      split <;> rename_i started' <;> cases started.symm.trans started'
      exact read
  | simple started read =>
      split <;> rename_i started' <;> cases started.symm.trans started'
      exact read

inductive ReadsItems : List (List Char) → List Item → Prop where
  | nil : ReadsItems [] []
  | passed {piece : List Char} {pieces : List (List Char)} {items : List Item} :
      itemStart piece = .ok .passed → readItems pieces = .ok items →
      ReadsItems (piece :: pieces) items
  | componentsOf {piece : List Char} {pieces : List (List Char)} {source : String}
      {items : List Item} : itemStart piece = .ok (.componentsOf source) →
      readItems pieces = .ok items → ReadsItems (piece :: pieces) (.componentsOf source :: items)
  | component {piece text after : List Char} {pieces : List (List Char)} {name : String}
      {tag : Option Tag} {type : TypeExpr} {items : List Item} :
      itemStart piece = .ok (.component name tag text) → readType text = .ok (type, after) →
      readItems pieces = .ok items →
      ReadsItems (piece :: pieces)
        (.component name tag type (hasWord ["OPTIONAL", "DEFAULT"] false after) :: items)

theorem readsItems_of_readItems {pieces : List (List Char)} {items : List Item}
    (read : readItems pieces = .ok items) : ReadsItems pieces items := by
  cases pieces with
  | nil =>
      rw [readItems] at read
      cases read
      exact .nil
  | cons piece pieces =>
      rw [readItems] at read
      split at read
      · cases read
      · rename_i started
        exact .passed started read
      · rename_i source started
        split at read
        · cases read
        · rename_i items listed
          cases read
          exact .componentsOf started listed
      · rename_i name tag text started
        split at read
        · cases read
        · rename_i type after reads
          split at read
          · cases read
          · rename_i items listed
            cases read
            exact .component started reads listed

theorem ReadsItems.readItems_eq {pieces : List (List Char)} {items : List Item}
    (reads : ReadsItems pieces items) : readItems pieces = .ok items := by
  cases reads with
  | nil => rw [readItems]
  | passed started listed =>
      rw [readItems]
      split
      case h_2 => exact listed
      all_goals
        rename_i started'
        cases started.symm.trans started'
  | componentsOf started listed =>
      rw [readItems]
      split
      case h_3 =>
        rename_i started'
        cases started.symm.trans started'
        rw [listed]
      all_goals
        rename_i started'
        cases started.symm.trans started'
  | component started read listed =>
      rw [readItems]
      split
      case h_4 =>
        rename_i started'
        cases started.symm.trans started'
        rw [read]
        dsimp only
        rw [listed]
      all_goals
        rename_i started'
        cases started.symm.trans started'

theorem typeStart_of_not_isJoint (plain : text.head?.any isJoint = false) :
    typeStart text = .simple := by
  have none_first (word : String) (solid : Solid word.toList) : keyword? word text = none := by
    rw [keyword?, strip?_of_not_isJoint solid plain]
  rw [typeStart, none_first "CHOICE" (by decide), none_first "SEQUENCE" (by decide),
    none_first "SET" (by decide), none_first "ANY" (by decide)]

/-- A bracket begins no type. -/
theorem not_reads_bracket : readType ('[' :: text) ≠ .ok (type, rest) := by
  intro read
  have plain : ('[' :: text).head?.any isJoint = false := rfl
  have started : typeStart (Text.trimStart ('[' :: text)) = .simple := typeStart_of_not_isJoint plain
  cases readsType_of_readType read with
  | choice started' | collection started' | record started' | any started' =>
      cases started.symm.trans started'
  | simple _ simple =>
      obtain ⟨word, named, behind, first, -⟩ := readSimpleType_eq_ok_iff.1 simple
      have unpaired : pairedWords? (Text.trimStart ('[' :: text)) = none :=
        pairedWords?_of_not_isJoint plain
      rw [readTypeName, unpaired] at first
      cases first

end BerRecords.Module
