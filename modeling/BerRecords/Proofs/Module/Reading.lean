import BerRecords.Proofs.Module.Sealed

/-!
# Reading words and tags

Each reader takes from the front of a text what is written there and leaves what follows it, up to
blanks: words, constraints, named values, tags, and what stands behind the type of a component.
-/

set_option autoImplicit false

namespace BerRecords.Module

variable {text left right front behind rest gap name word : List Char} {c : Char}

/-! ## Gaps and words -/

theorem IsGap.isBlank (isGap : IsGap gap) : ∀ c ∈ gap, Text.isBlank c = true := by
  intro c member
  rcases isGap c member with rfl | rfl <;> rfl

theorem IsGap.trimStart (isGap : IsGap gap) (text : List Char) :
    Text.trimStart (gap ++ text) = Text.trimStart text :=
  List.dropWhile_append_of_pos isGap.isBlank

theorem IsGap.contained {level : Nat} (isGap : IsGap gap) : Contained level gap := by
  refine contained_of_all (List.all_eq_true.2 fun c member => ?_)
  rcases isGap c member with rfl | rfl <;> rfl

/-- What follows a word does not go on with it. -/
def Loose (text : List Char) : Prop :=
  text.head?.any isJoint = false

theorem IsGap.loose (isGap : IsGap gap) (some_blank : gap ≠ [] ∨ Loose text) : Loose (gap ++ text) := by
  cases gap with
  | nil => exact some_blank.resolve_left fun nonempty => nonempty rfl
  | cons c gap => exact isJoint_of_isBlank (isGap.isBlank c List.mem_cons_self)

theorem Loose.append (loose : Loose left) (loose' : left = [] → Loose right) : Loose (left ++ right) := by
  cases left with
  | nil => exact loose' rfl
  | cons c left => exact loose

theorem Loose.of_prefix (pre : left <+: right) (loose : Loose right) : Loose left := by
  cases left with
  | nil => rfl
  | cons c left =>
      obtain ⟨more, rfl⟩ := pre
      exact loose

theorem Loose.not_isNameChar (loose : Loose text) : text.head?.any isNameChar = false := by
  cases text with
  | nil => rfl
  | cons c text =>
      have other : isJoint c = false := by simpa [Loose] using loose
      by_contra part
      cases other.symm.trans (isJoint_of_isNameChar (by simpa using part))

structure IsWord (word : List Char) : Prop where
  ne_nil : word ≠ []
  parts : word.all isNameChar = true
  single : Unmarked word
  start : word.head? ≠ some '-'

instance (word : List Char) : Decidable (IsWord word) :=
  decidable_of_iff (word ≠ [] ∧ word.all isNameChar = true ∧ Unmarked word ∧ word.head? ≠ some '-')
    ⟨fun ⟨ne_nil, parts, single, start⟩ => ⟨ne_nil, parts, single, start⟩,
      fun ⟨ne_nil, parts, single, start⟩ => ⟨ne_nil, parts, single, start⟩⟩

theorem IsWord.solid (isWord : IsWord word) : Solid word :=
  ⟨isWord.ne_nil, fun c member => isJoint_of_isNameChar (List.all_eq_true.1 isWord.parts c member)⟩

theorem isNameChar_of_isAlphanum (part : c.isAlphanum = true) : isNameChar c = true := by
  have bounded {bound : UInt32} (below : c.val ≤ bound) (small : bound.toNat < 128) : c.toNat < 128 :=
    Nat.lt_of_le_of_lt (UInt32.le_iff_toNat_le.1 below) small
  have ascii : c.toNat < 128 := by
    have kinds : (c.isUpper || c.isLower || c.isDigit) = true := part
    rw [Bool.or_eq_true, Bool.or_eq_true] at kinds
    rcases kinds with (upper | lower) | digit
    · exact bounded (of_decide_eq_true upper).2 (by decide)
    · exact bounded (of_decide_eq_true (Bool.and_eq_true_iff.1 lower).2) (by decide)
    · exact bounded (of_decide_eq_true (Bool.and_eq_true_iff.1 digit).2) (by decide)
  simp [isNameChar, part, ascii]

theorem Ordinary.isWord (ordinary : Ordinary name) : IsWord name where
  ne_nil := by
    rintro rfl
    cases ordinary.letter
  parts := List.all_eq_true.2 fun c member => by
    rcases ordinary.parts c member with part | rfl
    · exact isNameChar_of_isAlphanum part
    · rfl
  single := ordinary.single
  start := by
    intro starts
    have letter := ordinary.letter
    rw [starts] at letter
    cases letter

theorem Ordinary.ne_reserved (ordinary : Ordinary name) {word : String} (member : word ∈ reserved) :
    name ≠ word.toList := by
  rintro rfl
  exact ordinary.free (by rwa [String.ofList_toList])

theorem isWord_of_builtin : ∀ type ∈ DeclaredType.builtin, ' ' ∉ type.text.toList →
    IsWord type.text.toList := by
  decide

theorem isPlain_of_isNameChar (part : isNameChar c = true) : isPlain c = true := by
  rw [isPlain]
  by_contra bracket
  simp only [Bool.and_eq_true, decide_eq_true_eq, not_and_or, not_not] at bracket
  rcases bracket with (((rfl | rfl) | rfl) | rfl) | rfl <;> cases part

theorem IsWord.contained {level : Nat} (isWord : IsWord word) : Contained level word := by
  have plain {brackets : Char × Char} (other : isNameChar brackets.1 = false)
      (other' : isNameChar brackets.2 = false) {word : List Char} (parts : word.all isNameChar = true) :
      Closed brackets.1 brackets.2 word := by
    induction word with
    | nil => exact .nil
    | cons c word ih =>
        rw [List.all_cons, Bool.and_eq_true] at parts
        refine (ih parts.2).cons ?_ ?_
        · rintro rfl
          cases other.symm.trans parts.1
        · rintro rfl
          cases other'.symm.trans parts.1
  have uncut {word : List Char} (parts : word.all isNameChar = true) : Uncut level word := by
    induction word with
    | nil => exact fun _ _ _ _ => rfl
    | cons c word ih =>
        rw [List.all_cons, Bool.and_eq_true] at parts
        exact (ih parts.2).cons (isPlain_of_isNameChar parts.1)
  have none_of {c : Char} (other : isNameChar c = false) : c ∉ word := by
    intro member
    cases other.symm.trans (List.all_eq_true.1 isWord.parts c member)
  exact {
    braces := @plain ('\x7b', '\x7d') rfl rfl word isWord.parts
    parentheses := @plain ('(', ')') rfl rfl word isWord.parts
    uncut := uncut isWord.parts
    silent := ⟨isWord.single, fun sign => @none_of ':' rfl (sign.subset List.mem_cons_self)⟩
    fresh := by
      obtain ⟨first, more, rfl⟩ := List.exists_cons_of_ne_nil isWord.ne_nil
      have hyphen : first ≠ '-' := by simpa using isWord.start
      have colon : first ≠ ':' := fun same => @none_of ':' rfl (same ▸ List.mem_cons_self)
      have equals : first ≠ '=' := fun same => @none_of '=' rfl (same ▸ List.mem_cons_self)
      simpa using isFresh_iff.2 ⟨hyphen, colon, equals⟩ }

theorem Solid.trimStart (solid : Solid word) (text : List Char) :
    Text.trimStart (word ++ text) = word ++ text := by
  refine trimStart_of_head? ?_
  obtain ⟨first, more, rfl⟩ := List.exists_cons_of_ne_nil solid.ne_nil
  by_contra blank
  cases (isJoint_of_isBlank (by simpa using blank)).symm.trans (solid.joint first List.mem_cons_self)

theorem Solid.loose_of_apart (solid : Solid word) (apart : Apart (front ++ word) rest) : Loose rest := by
  obtain ⟨lead, last, rfl, joint⟩ := solid.eq_concat
  cases rest with
  | nil => rfl
  | cons d rest =>
      have own := apart last (by simp) d rfl
      simpa [Loose, joint] using own

theorem keyword?_eq_some_iff {keyword : String} :
    keyword? keyword text = some rest ↔
      text = keyword.toList ++ rest ∧ rest.head?.any isNameChar = false := by
  rw [keyword?]
  constructor
  · intro found
    split at found
    · cases found
    · rename_i after stripped
      split at found
      · cases found
      · rename_i ends
        cases found
        exact ⟨strip?_eq_some_iff.1 stripped, by simpa using ends⟩
  · rintro ⟨same, ends⟩
    simp [strip?_eq_some_iff.2 same, ends]

theorem keyword?_self {keyword : String} (loose : Loose rest) :
    keyword? keyword (keyword.toList ++ rest) = some rest :=
  keyword?_eq_some_iff.2 ⟨rfl, loose.not_isNameChar⟩

theorem takeWhile_word {p : Char → Bool} (parts : word.all p = true)
    (ends : rest.head?.any p = false) : (word ++ rest).takeWhile p = word :=
  (dropWhile_append_of_all (List.all_eq_true.1 parts) ends).2

theorem keyword?_of_ne {keyword : String} (isKeyword : keyword.toList.all isNameChar = true)
    (isWord : IsWord word) (loose : Loose rest) (other : word ≠ keyword.toList) :
    keyword? keyword (word ++ rest) = none := by
  cases found : keyword? keyword (word ++ rest) with
  | none => rfl
  | some after =>
      obtain ⟨same, ends⟩ := keyword?_eq_some_iff.1 found
      refine absurd ?_ other
      rw [← takeWhile_word isWord.parts loose.not_isNameChar, same, takeWhile_word isKeyword ends]

theorem wordThenBlanks?_self {keyword : String} (isGap : IsGap gap) (some_blank : gap ≠ [])
    (rest : List Char) :
    wordThenBlanks? keyword (keyword.toList ++ (gap ++ rest)) = some (Text.trimStart rest) := by
  obtain ⟨b, more, rfl⟩ := List.exists_cons_of_ne_nil some_blank
  refine wordThenBlanks?_eq_some_iff.2 ⟨b, more ++ rest, isGap.isBlank b List.mem_cons_self, rfl, ?_⟩
  exact (IsGap.trimStart (fun c member => isGap c (List.mem_cons_of_mem b member)) rest).symm

theorem wordThenBlanks?_of_ne {keyword : String} (isKeyword : Solid keyword.toList)
    (solid : Solid word) (loose : Loose rest) (other : word ≠ keyword.toList) :
    wordThenBlanks? keyword (word ++ rest) = none := by
  cases found : wordThenBlanks? keyword (word ++ rest) with
  | none => rfl
  | some after =>
      obtain ⟨b, behind, blank, same, -⟩ := wordThenBlanks?_eq_some_iff.1 found
      refine absurd ?_ other
      have ends : (b :: behind).head?.any isJoint = false := isJoint_of_isBlank blank
      rw [← takeWhile_word (List.all_eq_true.2 solid.joint) loose, same,
        takeWhile_word (List.all_eq_true.2 isKeyword.joint) ends]

theorem readName_word (isWord : IsWord word) (isGap : IsGap gap) (loose : Loose rest) :
    readName (gap ++ (word ++ rest)) = .ok (String.ofList word, rest) := by
  have parted := dropWhile_append_of_all (List.all_eq_true.1 isWord.parts) loose.not_isNameChar
  rw [readName, isGap.trimStart, isWord.solid.trimStart, parted.1, parted.2, if_neg (by simp [isWord.ne_nil])]

/-! ## Ends -/

def Ended (text : List Char) : Prop :=
  ∃ c ∈ text.getLast?, Text.isBlank c = false

theorem Ended.append_right (ended : Ended right) (left : List Char) : Ended (left ++ right) := by
  obtain ⟨c, last, other⟩ := ended
  refine ⟨c, ?_, other⟩
  rw [Option.mem_def] at last ⊢
  rw [List.getLast?_append, last, Option.some_or]

theorem Ended.append (ended : Ended left) (ended' : right = [] ∨ Ended right) : Ended (left ++ right) := by
  rcases ended' with rfl | ended'
  · rwa [List.append_nil]
  · exact ended'.append_right left

theorem ended_concat (other : Text.isBlank c = false) (left : List Char) : Ended (left ++ [c]) :=
  ⟨c, by simp, other⟩

theorem Solid.ended (solid : Solid word) : Ended word := by
  obtain ⟨lead, last, rfl, joint⟩ := solid.eq_concat
  refine ended_concat ?_ lead
  by_contra blank
  cases (isJoint_of_isBlank (by simpa using blank)).symm.trans joint

theorem Ended.rdropWhile_append (ended : Ended left) (right : List Char) :
    (left ++ right).rdropWhile Text.isBlank = left ++ right.rdropWhile Text.isBlank := by
  obtain ⟨c, last, other⟩ := ended
  obtain ⟨lead, rfl⟩ := List.getLast?_eq_some_iff.1 last
  induction right using List.reverseRecOn with
  | nil => simp [other]
  | append_singleton right d ih =>
      rw [← List.append_assoc, List.rdropWhile_concat, List.rdropWhile_concat]
      split
      · exact ih
      · simp

theorem IsGap.rdropWhile (isGap : IsGap gap) : gap.rdropWhile Text.isBlank = [] :=
  List.rdropWhile_eq_nil_iff.2 isGap.isBlank

/-! ## Constraints and named values -/

theorem Passable.group {opening closing : Char} {inner : List Char} (passable : Passable inner)
    (brackets : (opening, closing) ∈ [('\x7b', '\x7d'), ('(', ')')]) :
    Contained 0 (opening :: (inner ++ [closing])) :=
  (passable.sealed (.inl (Nat.le_refl 1))).group brackets

section

variable {constraints named : List Char}

theorem WrittenConstraints.contained (written : WrittenConstraints constraints) :
    Contained 0 constraints := by
  induction written with
  | absent => exact .nil
  | more isGap passable _ ih =>
      have own := isGap.contained.append ((@Passable.group '(' ')' _ passable (by decide)).append ih)
      simpa using own

theorem WrittenConstraints.ended (written : WrittenConstraints constraints) :
    constraints = [] ∨ Ended constraints := by
  induction written with
  | absent => exact .inl rfl
  | @more gap inner rest _ _ _ ih =>
      have own := (@ended_concat ')' rfl (gap ++ '(' :: inner)).append ih
      exact .inr (by simpa using own)

theorem WrittenConstraints.loose (written : WrittenConstraints constraints)
    (loose : constraints = [] → Loose rest) : Loose (constraints ++ rest) := by
  refine Loose.append ?_ loose
  cases written with
  | absent => rfl
  | more isGap => exact isGap.loose (.inr rfl)

/-- Behind constraints there is a parenthesis or what follows them. -/
theorem WrittenConstraints.head? (written : WrittenConstraints constraints) (rest : List Char) :
    (Text.trimStart (constraints ++ rest)).head? = some '(' ∨
      Text.trimStart (constraints ++ rest) = Text.trimStart rest := by
  cases written with
  | absent => exact .inr rfl
  | more isGap =>
      rw [List.append_assoc, isGap.trimStart]
      exact .inl rfl

theorem WrittenConstraints.skip (written : WrittenConstraints constraints)
    (plain : (Text.trimStart rest).head? ≠ some '(')
    (same : Text.trimStart text = Text.trimStart (constraints ++ rest)) :
    skipConstraints text = .ok (Text.trimStart rest) := by
  induction written generalizing text with
  | absent =>
      rw [List.nil_append] at same
      rw [skipConstraints_of_head? (same ▸ plain), same]
  | @more gap inner rest' isGap passable _ ih =>
      have opened : Text.trimStart text = '(' :: (inner ++ ')' :: (rest' ++ rest)) := by
        rw [same, List.append_assoc, isGap.trimStart, List.cons_append, List.append_assoc]
        rfl
      have closed := (passable.sealed (.inl (Nat.le_refl 1))).parentheses.enclosed?_eq (by decide)
        (rest' ++ rest)
      rw [skipConstraints_of_group opened closed]
      exact ih rfl

theorem WrittenValues.contained (written : WrittenValues named) : Contained 0 named := by
  cases written with
  | absent => exact .nil
  | listed isGap passable => exact isGap.contained.append (passable.group (by decide))

theorem WrittenValues.ended (written : WrittenValues named) : named = [] ∨ Ended named := by
  cases written with
  | absent => exact .inl rfl
  | @listed gap inner =>
      have own := @ended_concat '\x7d' rfl (gap ++ '\x7b' :: inner)
      exact .inr (by simpa using own)

theorem WrittenValues.loose (written : WrittenValues named) (loose : named = [] → Loose rest) :
    Loose (named ++ rest) := by
  refine Loose.append ?_ loose
  cases written with
  | absent => rfl
  | listed isGap => exact isGap.loose (.inr rfl)

theorem WrittenValues.skip (written : WrittenValues named)
    (plain : (Text.trimStart rest).head? ≠ some '\x7b') :
    ∃ behind, skipNamedValues (named ++ rest) = .ok behind ∧
      Text.trimStart behind = Text.trimStart rest := by
  cases written with
  | absent => exact ⟨_, skipNamedValues_of_head? plain, List.dropWhile_idempotent Text.isBlank rest⟩
  | @listed gap inner isGap passable =>
      have opened : Text.trimStart (gap ++ '\x7b' :: (inner ++ ['\x7d']) ++ rest) =
          '\x7b' :: (inner ++ '\x7d' :: rest) := by
        rw [List.append_assoc, isGap.trimStart, List.cons_append, List.append_assoc]
        rfl
      have closed := (passable.sealed (.inl (Nat.le_refl 1))).braces.enclosed?_eq (by decide) rest
      exact ⟨rest, skipNamedValues_of_group (by rw [opened]; rfl)
        (readBraces_eq_ok_iff.2 ⟨_, opened, closed⟩), rfl⟩

end

/-! ## What stands behind a type -/

def presences : List String :=
  ["OPTIONAL", "DEFAULT"]

/-- Behind a type nothing follows, or the word that says that its component may be left out. -/
def Closing (text : List Char) : Prop :=
  Text.trimStart text = [] ∨
    ∃ word ∈ presences, ∃ behind, Text.trimStart text = word.toList ++ behind ∧ Loose behind

theorem isWord_presences : ∀ word ∈ presences, IsWord word.toList := by
  decide

theorem Closing.head?_ne (closing : Closing text) (other : isJoint c = false) :
    (Text.trimStart text).head? ≠ some c := by
  rcases closing with none_left | ⟨word, member, behind, same, -⟩
  · simp [none_left]
  · obtain ⟨first, more, spelled⟩ := List.exists_cons_of_ne_nil (isWord_presences word member).ne_nil
    rw [same, spelled]
    rintro ⟨⟩
    cases other.symm.trans ((isWord_presences word member).solid.joint c (by simp [spelled]))

theorem Closing.keyword? (closing : Closing text) : keyword? "DEFINED" (Text.trimStart text) = none := by
  rcases closing with none_left | ⟨word, member, behind, same, loose⟩
  · rw [none_left]
    rfl
  · rw [same]
    have other : ∀ word ∈ presences, word.toList ≠ "DEFINED".toList := by decide
    exact keyword?_of_ne (by decide) (isWord_presences word member) loose (other word member)

theorem hasWord_trimStart (text : List Char) :
    hasWord presences false (Text.trimStart text) = hasWord presences false text := by
  induction text with
  | nil => rfl
  | cons c text ih =>
      by_cases blank : Text.isBlank c = true
      · rw [trimStart_cons_of_isBlank blank, ih, hasWord_of_not_isJoint
          (fun word member => (isWord_presences word member).solid) (isJoint_of_isBlank blank)]
      · rw [trimStart_of_head? (by simpa using blank)]

theorem hasWord_presence {word : String} (member : word ∈ presences) (loose : Loose behind) :
    hasWord presences false (word.toList ++ behind) = true := by
  obtain ⟨first, more, spelled⟩ := List.exists_cons_of_ne_nil (isWord_presences word member).ne_nil
  have stands : standsFirst (word.toList ++ behind) word = true := by
    rw [standsFirst, strip?_eq_some_iff.2 rfl]
    cases behind with
    | nil => rfl
    | cons d behind =>
        by_contra part
        cases loose.symm.trans (isJoint_of_isWordChar (by simpa using part))
  rw [spelled] at stands ⊢
  rw [List.cons_append, hasWord_cons, ← List.cons_append]
  simp only [Bool.not_false, Bool.true_and, Bool.or_eq_true]
  exact .inl (List.any_eq_true.2 ⟨word, member, stands⟩)

section

variable {presence : List Char} {optional : Bool}

theorem WrittenPresence.contained (written : WrittenPresence optional presence) : Contained 0 presence := by
  cases written with
  | required isGap => exact isGap.contained
  | optional isGap isGap' =>
      have word : IsWord "OPTIONAL".toList := by decide
      exact isGap.contained.append (word.contained.append isGap'.contained)
  | @default gap value isGap apart passable inside =>
      have whole : Sealed 0 value := passable.sealed (.inr inside)
      exact isGap.contained.append (whole.behind (by decide) (by decide))

/-- Without the blanks at its end, what stands behind a type tells whether it may be left out. -/
theorem WrittenPresence.kept (written : WrittenPresence optional presence) :
    Closing (presence.rdropWhile Text.isBlank) ∧
      hasWord presences false (presence.rdropWhile Text.isBlank) = optional := by
  have told {word : String} {gap behind : List Char} (isGap : IsGap gap) (member : word ∈ presences)
      (loose : Loose behind) :
      Closing (gap ++ (word.toList ++ behind)) ∧
        hasWord presences false (gap ++ (word.toList ++ behind)) = true := by
    have trimmed : Text.trimStart (gap ++ (word.toList ++ behind)) = word.toList ++ behind := by
      rw [isGap.trimStart, (isWord_presences word member).solid.trimStart]
    refine ⟨.inr ⟨word, member, behind, trimmed, loose⟩, ?_⟩
    rw [← hasWord_trimStart, trimmed, hasWord_presence member loose]
  cases written with
  | required isGap =>
      rw [isGap.rdropWhile]
      exact ⟨.inl rfl, rfl⟩
  | @optional gap gap' isGap isGap' =>
      have ended : Ended (gap ++ "OPTIONAL".toList) :=
        (isWord_presences "OPTIONAL" (by decide)).solid.ended.append_right gap
      rw [← List.append_assoc, ended.rdropWhile_append, isGap'.rdropWhile, List.append_assoc]
      exact told isGap (by decide) rfl
  | @default gap value isGap apart =>
      have solid := (isWord_presences "DEFAULT" (by decide)).solid
      have ended : Ended (gap ++ "DEFAULT".toList) := solid.ended.append_right gap
      rw [← List.append_assoc, ended.rdropWhile_append, List.append_assoc]
      -- What is left of the value is a beginning of it, so the word in front ends where it did.
      have loose : Loose value := @Solid.loose_of_apart [] _ _ solid apart
      exact told isGap (by decide) (loose.of_prefix (List.rdropWhile_prefix _ _))

end

/-! ## Tags -/

section

variable {tagText digits : List Char} {tag : Option Tag} {number : Nat}

theorem tagNumber?_toDigits (small : number < UInt32.size) : tagNumber? (Nat.toDigits 10 number) = some number := by
  have digits : (Nat.toDigits 10 number).all Char.isDigit = true :=
    List.all_eq_true.2 fun c member => Nat.isDigit_of_mem_toDigits (by decide) (by decide) member
  have value := @Nat.ofDigitChars_toDigits 10 number (by decide) (by decide)
  rw [Nat.ofDigitChars] at value
  simp only [Nat.mul_comm 10] at value
  rw [tagNumber?, if_pos digits]
  dsimp only
  rw [value, if_pos small]

theorem isDecimalDigit_of_isDigit (digit : c.isDigit = true) : Text.isDecimalDigit c = true := by
  have within : 48 ≤ c.toNat ∧ c.toNat ≤ 57 := Char.isDigit_iff_toNat.1 digit
  have first : (0x30, 0x39) ∈ Text.digitRanges := List.mem_cons_self
  exact List.any_eq_true.2 ⟨_, first, by simpa using within⟩

theorem classNames_ofKeyword :
    ∀ named ∈ classNames, named.2 ∈ classWords ∧ TagClass.ofKeyword (some named.2) = named.1 := by
  decide

theorem solid_toDigits : Solid (Nat.toDigits 10 number) :=
  ⟨Nat.toDigits_ne_nil, fun _ member => isJoint_of_isDecimalDigit (isDecimalDigit_of_isDigit
    (Nat.isDigit_of_mem_toDigits (by decide) (by decide) member))⟩

theorem readClassWord_written {tagClass : TagClass} {words : List Char}
    (written : WrittenClass tagClass words) (rest : List Char) :
    ∃ class?, TagClass.ofKeyword class? = tagClass ∧
      readClassWord (words ++ (Nat.toDigits 10 number ++ rest)) =
        (class?, Nat.toDigits 10 number ++ rest) := by
  cases written with
  | bare =>
      refine ⟨none, rfl, ?_⟩
      rw [List.nil_append, readClassWord]
      cases found : wordOf? classWords (Nat.toDigits 10 number ++ rest) with
      | none => rfl
      | some entry =>
          obtain ⟨member, taken⟩ := (wordOf?_eq_some_iff solid_classWords).1 found
          obtain ⟨b, behind, -, same, -⟩ := wordThenBlanks?_eq_some_iff.1 taken
          have letter := not_isDecimalDigit_classWords _ member
          obtain ⟨first, more, spelled⟩ := List.exists_cons_of_ne_nil (solid_classWords _ member).ne_nil
          obtain ⟨d, digits, written⟩ := List.exists_cons_of_ne_nil (@Nat.toDigits_ne_nil number 10)
          rw [written, spelled] at same
          obtain rfl : d = first := (List.cons.inj same).1
          have digit := isDecimalDigit_of_isDigit
            (@Nat.isDigit_of_mem_toDigits 10 number d (by decide) (by decide) (by simp [written]))
          simp [spelled, digit] at letter
  | @named tagClass word gap member isGap some_gap =>
      obtain ⟨listed, same⟩ := classNames_ofKeyword _ member
      refine ⟨some word, same, ?_⟩
      have taken := @wordThenBlanks?_self gap word isGap some_gap (Nat.toDigits 10 number ++ rest)
      rw [solid_toDigits.trimStart] at taken
      rw [readClassWord, List.append_assoc, (wordOf?_eq_some_iff solid_classWords).2 ⟨listed, taken⟩]

theorem WrittenClass.trimStart {tagClass : TagClass} {words : List Char}
    (written : WrittenClass tagClass words) (solid : Solid digits) (rest : List Char) :
    Text.trimStart (words ++ (digits ++ rest)) = words ++ (digits ++ rest) := by
  cases written with
  | bare => exact solid.trimStart rest
  | named member =>
      rw [List.append_assoc]
      exact (solid_classWords _ (classNames_ofKeyword _ member).1).trimStart _

theorem bracketedTag?_written {tagClass : TagClass} {outer gap gap' words : List Char}
    (outerGap : IsGap outer) (isGap : IsGap gap) (written : WrittenClass tagClass words)
    (isGap' : IsGap gap') (rest : List Char) :
    ∃ class?, TagClass.ofKeyword class? = tagClass ∧
      bracketedTag? (outer ++ '[' :: (gap ++ (words ++ (Nat.toDigits 10 number ++ (gap' ++ ']' :: rest))))) =
        some (class?, Nat.toDigits 10 number, rest) := by
  obtain ⟨class?, same, read⟩ := @readClassWord_written number _ _ written (gap' ++ ']' :: rest)
  have digits : ∀ c ∈ Nat.toDigits 10 number, Text.isDecimalDigit c = true := fun c member =>
    isDecimalDigit_of_isDigit (Nat.isDigit_of_mem_toDigits (by decide) (by decide) member)
  have ends : (gap' ++ ']' :: rest).head?.any Text.isDecimalDigit = false := by
    cases gap' with
    | nil => rfl
    | cons c gap' =>
        rcases isGap' c List.mem_cons_self with rfl | rfl <;> rfl
  have parted := dropWhile_append_of_all digits ends
  refine ⟨class?, same, bracketedTag?_eq_some_iff.2
    ⟨gap ++ (words ++ (Nat.toDigits 10 number ++ (gap' ++ ']' :: rest))),
      Nat.toDigits 10 number ++ (gap' ++ ']' :: rest), ?_, ?_, parted.2.symm, Nat.toDigits_ne_nil, ?_⟩⟩
  · rw [outerGap.trimStart]
    rfl
  · rw [isGap.trimStart, written.trimStart solid_toDigits, read]
  · rw [parted.1, isGap'.trimStart]
    rfl

/-- The text begins with a word that neither says how a tag is meant nor begins a body. -/
inductive Led : List Char → Prop where
  | intro {gap word behind : List Char} : IsGap gap → IsWord word →
      (∀ keyword ∈ taggings ++ ["BEGIN"], word ≠ keyword.toList) → Loose behind →
      Led (gap ++ (word ++ behind))

theorem Apart.append_right (apart : Apart left right) (some_right : right ≠ []) (rest : List Char) :
    Apart left (right ++ rest) := by
  obtain ⟨d, more, rfl⟩ := List.exists_cons_of_ne_nil some_right
  exact apart

theorem Led.ne_nil (led : Led text) : text ≠ [] := by
  obtain ⟨-, isWord, -, -⟩ := led
  simp [isWord.ne_nil]

theorem Apart.of_append (apart : Apart (front ++ left) right) : Apart left right := by
  intro c last
  refine apart c ?_
  rw [Option.mem_def] at last ⊢
  rw [List.getLast?_append, last, Option.some_or]

theorem Led.head?_ne (led : Led text) : (Text.trimStart text).head? ≠ some '[' := by
  obtain ⟨isGap, isWord, -, -⟩ := led
  rw [isGap.trimStart, isWord.solid.trimStart]
  obtain ⟨first, more, rfl⟩ := List.exists_cons_of_ne_nil isWord.ne_nil
  rintro ⟨⟩
  cases isWord.parts

theorem Led.append (led : Led text) (apart : Apart text rest) : Led (text ++ rest) := by
  obtain @⟨gap, word, behind, isGap, isWord, other, loose⟩ := led
  have together : Led (gap ++ (word ++ (behind ++ rest))) := by
    refine .intro isGap isWord other (loose.append ?_)
    rintro rfl
    rw [List.append_nil] at apart
    exact isWord.solid.loose_of_apart apart
  simpa using together

theorem Led.skipTagging (led : Led text) : skipTagging (Text.trimStart text) = Text.trimStart text := by
  obtain ⟨isGap, isWord, other, loose⟩ := led
  rw [isGap.trimStart, isWord.solid.trimStart, Module.skipTagging]
  split
  · rename_i keyword after found
    obtain ⟨member, taken⟩ := (wordOf?_eq_some_iff solid_taggings).1 found
    have none_taken := wordThenBlanks?_of_ne (solid_taggings _ member) isWord.solid loose
      (other keyword (List.mem_append_left _ member))
    cases none_taken.symm.trans taken
  · rfl

theorem Led.keyword?_eq_none (led : Led text) : keyword? "BEGIN" (Text.trimStart text) = none := by
  obtain ⟨isGap, isWord, other, loose⟩ := led
  rw [isGap.trimStart, isWord.solid.trimStart]
  exact keyword?_of_ne (by decide) isWord loose (other "BEGIN" (by decide))

theorem WrittenTagging.skip {tagging : List Char} (written : WrittenTagging tagging) (led : Led text)
    (apart : Apart tagging text) : skipTagging (Text.trimStart (tagging ++ text)) = Text.trimStart text := by
  cases written with
  | absent => exact led.skipTagging
  | @given gap keyword isGap member =>
      have solid : Solid keyword.toList := solid_taggings keyword member
      have loose := solid.loose_of_apart apart
      obtain @⟨gap', word, behind, isGap', isWord, other, -⟩ := led
      have some_gap : gap' ≠ [] := by
        rintro rfl
        obtain ⟨first, more, rfl⟩ := List.exists_cons_of_ne_nil isWord.ne_nil
        have joint := isWord.solid.joint first List.mem_cons_self
        cases loose.symm.trans joint
      have taken := @wordThenBlanks?_self gap' keyword isGap' some_gap (word ++ behind)
      have found : wordOf? ["IMPLICIT", "EXPLICIT"] (keyword.toList ++ (gap' ++ (word ++ behind))) =
          some (keyword, Text.trimStart (word ++ behind)) :=
        (wordOf?_eq_some_iff solid_taggings).2 ⟨member, taken⟩
      rw [List.append_assoc, isGap.trimStart, solid.trimStart, Module.skipTagging, found,
        isGap'.trimStart]

/-- The tag in front of a type is read, and what is left begins with the type. -/
theorem WrittenTag.read (written : WrittenTag tag tagText) (led : Led text) (apart : Apart tagText text) :
    readTag (tagText ++ text) = .ok (tag, Text.trimStart text) := by
  cases written with
  | absent =>
      have none_found : bracketedTag? text = none := bracketedTag?_eq_none led.head?_ne
      rw [List.nil_append, readTag, none_found]
      exact congrArg (fun rest => Except.ok (none, rest)) led.skipTagging
  | @bracketed outer gap gap' words tagging tagClass number outerGap isGap named small isGap' tagged =>
      obtain ⟨class?, rfl, found⟩ := @bracketedTag?_written number _ _ _ _ _ outerGap isGap named isGap'
        (tagging ++ text)
      have behind : Apart tagging text := by
        refine @Apart.of_append tagging text (outer ++ '[' :: (gap ++ (words ++
          (Nat.toDigits 10 number ++ (gap' ++ [']']))))) ?_
        simpa using apart
      have whole : outer ++ '[' :: (gap ++ (words ++ (Nat.toDigits 10 number ++ (gap' ++ ']' :: tagging)))) ++
          text = outer ++ '[' :: (gap ++ (words ++ (Nat.toDigits 10 number ++ (gap' ++ ']' ::
            (tagging ++ text))))) := by simp
      rw [whole, readTag, found]
      dsimp only
      rw [tagNumber?_toDigits small, tagged.skip led behind]

theorem isWord_classNames : ∀ named ∈ classNames, IsWord named.2.toList := by
  decide

theorem isWord_taggings : ∀ word ∈ taggings, IsWord word.toList := by
  decide

theorem contained_toDigits : Contained 0 (Nat.toDigits 10 number) := by
  refine contained_of_all (List.all_eq_true.2 fun c member => ?_)
  have digit := @Nat.isDigit_of_mem_toDigits 10 number c (by decide) (by decide) member
  have plain := isPlain_of_isNameChar (@isNameChar_of_isAlphanum c (by simp [Char.isAlphanum, digit]))
  have fresh : isFresh c = true := by
    refine isFresh_iff.2 ⟨?_, ?_, ?_⟩ <;> rintro rfl <;> cases digit
  rw [plain, fresh, Bool.and_self]

theorem WrittenTag.contained (written : WrittenTag tag tagText) : Contained 0 tagText := by
  cases written with
  | absent => exact .nil
  | @bracketed outer gap gap' words tagging tagClass number outerGap isGap named small isGap' tagged =>
      have classed : Contained 0 words := by
        cases named with
        | bare => exact .nil
        | named member isGap => exact (isWord_classNames _ member).contained.append isGap.contained
      have meant : Contained 0 tagging := by
        cases tagged with
        | absent => exact .nil
        | given isGap member => exact isGap.contained.append (isWord_taggings _ member).contained
      have opens : Contained 0 ['['] := contained_of_all rfl
      have closes : Contained 0 [']'] := contained_of_all rfl
      have digits := @contained_toDigits number
      exact outerGap.contained.append (opens.append (isGap.contained.append (classed.append
        (digits.append (isGap'.contained.append (closes.append meant))))))

end

end BerRecords.Module
