import BerRecords.Proofs.Module.Reading

/-!
# Reading types and items

A written type is read as the type, up to what follows it, and the texts between the braces of a body as
its items. The induction runs over types, items and lists of items together.
-/

set_option autoImplicit false

namespace BerRecords.Module

variable {text left right front behind rest gap name word : List Char} {c : Char}

/-! ## Types -/

/-- A text that is read as the type wherever it stands before nothing or a word of presence. -/
structure Tells (type : TypeExpr) (text : List Char) : Prop where
  contained : Contained 0 text
  led : Led text
  ended : Ended text
  read : ∀ rest, Apart text rest → Closing rest →
    ∃ after, readType (text ++ rest) = .ok (type, after) ∧ Text.trimStart after = Text.trimStart rest

theorem readType_trimStart {type : TypeExpr} (read : readType text = .ok (type, rest)) :
    readType (Text.trimStart text) = .ok (type, rest) := by
  have trimmed : Text.trimStart (Text.trimStart text) = Text.trimStart text :=
    List.dropWhile_idempotent Text.isBlank text
  refine ReadsType.readType_eq ?_
  cases readsType_of_readType read with
  | choice started braced listed => exact .choice (trimmed.symm ▸ started) braced listed
  | collection started skipped collected typed =>
      exact .collection (trimmed.symm ▸ started) skipped collected typed
  | record started skipped uncollected braced listed =>
      exact .record (trimmed.symm ▸ started) skipped uncollected braced listed
  | any started read => exact .any (trimmed.symm ▸ started) read
  | simple started read => exact .simple (trimmed.symm ▸ started) (trimmed.symm ▸ read)

def forms : List String :=
  ["CHOICE", "SEQUENCE", "SET", "ANY"]

theorem isWord_forms : ∀ form ∈ forms, IsWord form.toList := by
  decide

theorem typeStart_simple (isWord : IsWord word) (loose : Loose rest)
    (other : ∀ form ∈ forms, word ≠ form.toList) : typeStart (word ++ rest) = .simple := by
  have none_found (form : String) (member : form ∈ forms) : keyword? form (word ++ rest) = none :=
    keyword?_of_ne (isWord_forms form member).parts isWord loose (other form member)
  rw [typeStart, none_found "CHOICE" (by decide), none_found "SEQUENCE" (by decide),
    none_found "SET" (by decide), none_found "ANY" (by decide)]

theorem keyword?_other {word form : String} (isWord : IsWord word.toList) (isForm : IsWord form.toList)
    (other : word.toList ≠ form.toList) (loose : Loose rest) :
    keyword? form (word.toList ++ rest) = none :=
  keyword?_of_ne isForm.parts isWord loose other

theorem typeStart_choice_self (loose : Loose rest) :
    typeStart ("CHOICE".toList ++ rest) = .choice rest := by
  rw [typeStart, keyword?_self loose]

theorem typeStart_sequence (loose : Loose rest) :
    typeStart ("SEQUENCE".toList ++ rest) = .grouped .sequence rest := by
  rw [typeStart, @keyword?_other _ "SEQUENCE" "CHOICE" (by decide) (by decide) (by decide) loose,
    keyword?_self loose]

theorem typeStart_set (loose : Loose rest) : typeStart ("SET".toList ++ rest) = .grouped .set rest := by
  rw [typeStart, @keyword?_other _ "SET" "CHOICE" (by decide) (by decide) (by decide) loose,
    @keyword?_other _ "SET" "SEQUENCE" (by decide) (by decide) (by decide) loose, keyword?_self loose]

theorem typeStart_any (loose : Loose rest) : typeStart ("ANY".toList ++ rest) = .any rest := by
  rw [typeStart, @keyword?_other _ "ANY" "CHOICE" (by decide) (by decide) (by decide) loose,
    @keyword?_other _ "ANY" "SEQUENCE" (by decide) (by decide) (by decide) loose,
    @keyword?_other _ "ANY" "SET" (by decide) (by decide) (by decide) loose, keyword?_self loose]

theorem typeStart_groupingWord {grouping : Grouping} (loose : Loose rest) :
    typeStart (groupingWord grouping ++ rest) = .grouped grouping rest := by
  cases grouping with
  | sequence => exact typeStart_sequence loose
  | set => exact typeStart_set loose

theorem wordsFrom_solid (blankless : ∀ c ∈ word, Text.isBlank c = false) (piece : List Char)
    (some_part : piece ++ word ≠ []) : Text.wordsFrom piece word = [piece.reverse ++ word] := by
  induction word generalizing piece with
  | nil =>
      rw [List.append_nil] at some_part
      simp [Text.wordsFrom, some_part]
  | cons c word ih =>
      rw [List.forall_mem_cons] at blankless
      rw [Text.wordsFrom, blankless.1, if_neg Bool.false_ne_true, ih blankless.2 _ (by simp)]
      simp

theorem ofWord_ordinary (ordinary : Ordinary name) : ofWord name = .reference (String.ofList name) := by
  have blankless : ∀ c ∈ name, Text.isBlank c = false := by
    intro c member
    by_contra blank
    cases (isJoint_of_isBlank (by simpa using blank)).symm.trans (ordinary.isWord.solid.joint c member)
  have joined : Text.joinWords name = name := by
    rw [Text.joinWords, Text.words, wordsFrom_solid blankless [] (by simp [ordinary.isWord.ne_nil])]
    simp [List.intercalate]
  have none_found : DeclaredType.ofKeyword? name = none := by
    rw [DeclaredType.ofKeyword?, joined, List.find?_eq_none]
    intro type member same
    refine ordinary.free (List.mem_append_right _ ?_)
    rw [decide_eq_true_eq] at same
    exact same ▸ List.mem_map_of_mem member
  rw [ofWord, none_found]

theorem ofWord_builtin {type : DeclaredType} (member : type ∈ DeclaredType.builtin) :
    ofWord type.text.toList = .builtin type := by
  have found : ∀ type ∈ DeclaredType.builtin, DeclaredType.ofKeyword? type.text.toList = some type := by
    decide +kernel
  rw [ofWord, found type member]

structure Names (keywords name : List Char) : Prop where
  contained : Contained 0 keywords
  led {gap rest : List Char} : IsGap gap → Loose rest → Led (gap ++ (keywords ++ rest))
  starts (rest : List Char) : Text.trimStart (keywords ++ rest) = keywords ++ rest
  ends : ∃ lead last, keywords = lead ++ last ∧ Solid last
  read {rest : List Char} : Loose rest →
    typeStart (keywords ++ rest) = .simple ∧ readTypeName (keywords ++ rest) = .ok (name, rest)

def leads : List String :=
  forms ++ taggings ++ "BEGIN" :: wordPairs.map (·.1)

theorem names_word (isWord : IsWord name) (other : ∀ lead ∈ leads, name ≠ lead.toList) :
    Names name name where
  contained := isWord.contained
  led isGap loose := .intro isGap isWord (fun keyword member => other keyword (by
    revert member
    revert keyword
    decide)) loose
  starts rest := isWord.solid.trimStart rest
  ends := ⟨[], name, rfl, isWord.solid⟩
  read {rest} loose := by
    have unpaired : pairedWords? (name ++ rest) = none := by
      rw [pairedWords?_eq, List.findSome?_eq_none_iff]
      intro pair member
      have first : pair.1 ∈ leads := List.mem_append_right _ (List.mem_cons_of_mem _ (List.mem_map_of_mem member))
      rw [wordThenBlanks?_of_ne (solid_wordPairs pair member).1 isWord.solid loose (other _ first),
        Option.bind_none]
    have named : readName (name ++ rest) = .ok (String.ofList name, rest) :=
      @readName_word rest [] name isWord (by simp [IsGap]) loose
    refine ⟨typeStart_simple isWord loose fun form member => other form (List.mem_append_left _
      (List.mem_append_left _ member)), ?_⟩
    rw [readTypeName, unpaired, named]
    exact congrArg (fun name => Except.ok (name, rest)) String.toList_ofList

theorem pairedTypes_words :
    ∀ paired ∈ pairedTypes, IsWord paired.2.1.toList ∧ IsWord paired.2.2.toList ∧
      (∀ keyword ∈ taggings ++ ["BEGIN"], paired.2.1.toList ≠ keyword.toList) ∧
      (∀ form ∈ forms, paired.2.1.toList ≠ form.toList) ∧
      paired.2.1.toList ++ ' ' :: paired.2.2.toList = paired.1.text.toList ∧
      paired.1 ∈ DeclaredType.builtin := by
  decide

theorem secondWord?_self {first second : String} (loose : Loose rest) :
    secondWord? first second (second.toList ++ rest) =
      some (first.toList ++ ' ' :: second.toList, rest) := by
  rw [secondWord?, strip?_eq_some_iff.2 rfl]
  refine if_neg ?_
  cases rest with
  | nil => exact Bool.false_ne_true
  | cons d rest =>
      intro part
      cases loose.symm.trans (isJoint_of_isWordChar part)

theorem pairedWords?_written {type : DeclaredType} {first second : String}
    (member : (type, first, second) ∈ pairedTypes) (isGap : IsGap gap) (some_gap : gap ≠ [])
    (loose : Loose rest) :
    pairedWords? (first.toList ++ (gap ++ (second.toList ++ rest))) =
      some (first.toList ++ ' ' :: second.toList, rest) := by
  obtain ⟨isWord, isWord', -⟩ := pairedTypes_words _ member
  have taken := @wordThenBlanks?_self gap first isGap some_gap (second.toList ++ rest)
  rw [isWord'.solid.trimStart] at taken
  have own : (wordThenBlanks? first (first.toList ++ (gap ++ (second.toList ++ rest)))).bind
      (secondWord? first second) = some (first.toList ++ ' ' :: second.toList, rest) := by
    rw [taken, Option.bind_some, secondWord?_self loose]
  have skipped (other : String) (solid : Solid other.toList) (unlike : first.toList ≠ other.toList) :
      wordThenBlanks? other (first.toList ++ (gap ++ (second.toList ++ rest))) = none :=
    wordThenBlanks?_of_ne solid isWord.solid (isGap.loose (.inl some_gap)) unlike
  rw [pairedWords?_eq, wordPairs]
  simp only [pairedTypes, List.mem_cons, Prod.mk.injEq, List.not_mem_nil, or_false] at member
  rcases member with ⟨-, rfl, rfl⟩ | ⟨-, rfl, rfl⟩ | ⟨-, rfl, rfl⟩
  · rw [List.findSome?_cons, own]
  · rw [List.findSome?_cons, skipped "OCTET" (by decide) (by decide), Option.bind_none,
      List.findSome?_cons, own]
  · rw [List.findSome?_cons, skipped "OCTET" (by decide) (by decide), Option.bind_none,
      List.findSome?_cons, skipped "BIT" (by decide) (by decide), Option.bind_none, List.findSome?_cons,
      own]

theorem names_pair {type : DeclaredType} {first second : String}
    (member : (type, first, second) ∈ pairedTypes) (isGap : IsGap gap) (some_gap : gap ≠ []) :
    Names (first.toList ++ (gap ++ second.toList)) type.text.toList := by
  obtain ⟨isWord, isWord', keywords, forms, name, -⟩ := pairedTypes_words _ member
  exact {
    contained := isWord.contained.append (isGap.contained.append isWord'.contained)
    led isGap' _ := by
      rw [List.append_assoc, List.append_assoc]
      exact .intro isGap' isWord keywords (isGap.loose (.inl some_gap))
    starts rest := by
      rw [List.append_assoc, isWord.solid.trimStart]
    ends := ⟨first.toList ++ gap, second.toList, (List.append_assoc _ _ _).symm, isWord'.solid⟩
    read loose := by
      rw [List.append_assoc, List.append_assoc]
      refine ⟨typeStart_simple isWord (isGap.loose (.inl some_gap)) forms, ?_⟩
      rw [readTypeName, pairedWords?_written member isGap some_gap loose, name] }

theorem WrittenBuiltin.names {type : DeclaredType} {keywords : List Char}
    (written : WrittenBuiltin type keywords) :
    Names keywords type.text.toList ∧ type ∈ DeclaredType.builtin := by
  cases written with
  | single member single =>
      have other : ∀ type ∈ DeclaredType.builtin, ' ' ∉ type.text.toList →
          ∀ lead ∈ leads, type.text.toList ≠ lead.toList := by
        decide +kernel
      exact ⟨names_word (isWord_of_builtin type member single) (other type member single), member⟩
  | paired member isGap some_gap =>
      exact ⟨names_pair member isGap some_gap, (pairedTypes_words _ member).2.2.2.2.2⟩

theorem Ordinary.names (ordinary : Ordinary name) : Names name name :=
  names_word ordinary.isWord fun lead member => ordinary.ne_reserved (by
    revert member
    revert lead
    decide)

/-- A word that names a type, with what the readers pass over behind it. -/
theorem tells_simple {keywords named constraints : List Char} (names : Names keywords name)
    (isGap : IsGap gap) (values : WrittenValues named) (written : WrittenConstraints constraints) :
    Tells (ofWord name) (gap ++ (keywords ++ (named ++ constraints))) where
  contained := isGap.contained.append (names.contained.append (values.contained.append written.contained))
  led := by
    refine names.led isGap (values.loose fun _ => ?_)
    have alone := @WrittenConstraints.loose [] constraints written fun _ => rfl
    rwa [List.append_nil] at alone
  ended := by
    obtain ⟨lead, last, rfl, solid⟩ := names.ends
    have own : Ended (gap ++ (lead ++ last)) := (solid.ended.append_right lead).append_right gap
    have whole := (own.append values.ended).append written.ended
    simpa using whole
  read rest apart closing := by
    have loose : Loose (named ++ (constraints ++ rest)) := by
      refine values.loose fun none_named => written.loose fun none_written => ?_
      subst none_named none_written
      obtain ⟨lead, last, rfl, solid⟩ := names.ends
      refine @Solid.loose_of_apart (gap ++ lead) rest last solid ?_
      simpa using apart
    have trimmed : Text.trimStart (gap ++ (keywords ++ (named ++ constraints)) ++ rest) =
        keywords ++ (named ++ (constraints ++ rest)) := by
      rw [List.append_assoc, isGap.trimStart, List.append_assoc, List.append_assoc, names.starts]
    have plain : (Text.trimStart (constraints ++ rest)).head? ≠ some '\x7b' := by
      rcases written.head? rest with opened | same
      · simp [opened]
      · exact same ▸ closing.head?_ne rfl
    obtain ⟨started, word⟩ := names.read loose
    obtain ⟨behind, skipped, same⟩ := values.skip plain
    have passed := written.skip (closing.head?_ne rfl) same
    have reads : readSimpleType (keywords ++ (named ++ (constraints ++ rest))) =
        .ok (ofWord name, Text.trimStart rest) :=
      readSimpleType_eq_ok_iff.2 ⟨name, _, behind, word, skipped, passed, rfl⟩
    exact ⟨Text.trimStart rest,
      (ReadsType.simple (trimmed.symm ▸ started) (trimmed.symm ▸ reads)).readType_eq,
      List.dropWhile_idempotent Text.isBlank rest⟩

structure Lists (items : List Item) (text : List Char) : Prop where
  contained : Contained 1 text
  read : readItems (splitItems text) = .ok items

section

variable {items : List Item} {grouping : Grouping} {element : TypeExpr}
  {gap' inner constraints keyword : List Char}

theorem isWord_groupingWord : IsWord (groupingWord grouping) := by
  cases grouping <;> decide

theorem groupingWord_ne : ∀ keyword ∈ taggings ++ ["BEGIN"], groupingWord grouping ≠ keyword.toList := by
  cases grouping <;> decide

theorem Lists.group (lists : Lists items inner) : Contained 0 ('\x7b' :: (inner ++ ['\x7d'])) :=
  lists.contained.toSealed.group (by decide)

/-- A body in braces behind a keyword. -/
theorem Lists.body (lists : Lists items inner) (isGap : IsGap gap) (isWord : IsWord keyword)
    (isGap' : IsGap gap') (other : ∀ word ∈ taggings ++ ["BEGIN"], keyword ≠ word.toList) :
    Contained 0 (gap ++ (keyword ++ (gap' ++ '\x7b' :: (inner ++ ['\x7d'])))) ∧
      Led (gap ++ (keyword ++ (gap' ++ '\x7b' :: (inner ++ ['\x7d'])))) ∧
      Ended (gap ++ (keyword ++ (gap' ++ '\x7b' :: (inner ++ ['\x7d'])))) := by
  refine ⟨isGap.contained.append (isWord.contained.append (isGap'.contained.append lists.group)),
    .intro isGap isWord other (isGap'.loose (.inr rfl)), ?_⟩
  have closes := @ended_concat '\x7d' rfl ('\x7b' :: inner)
  exact ((closes.append_right gap').append_right keyword).append_right gap

theorem Lists.braces (lists : Lists items inner) (opened : Text.trimStart text =
    '\x7b' :: (inner ++ '\x7d' :: rest)) : readBraces text = .ok (inner, rest) :=
  readBraces_eq_ok_iff.2 ⟨_, opened, lists.contained.braces.enclosed?_eq (by decide) rest⟩

theorem tells_choice (isGap : IsGap gap) (isGap' : IsGap gap') (lists : Lists items inner) :
    Tells (.choice items) (gap ++ ("CHOICE".toList ++ (gap' ++ '\x7b' :: (inner ++ ['\x7d'])))) := by
  have isWord : IsWord "CHOICE".toList := by decide
  obtain ⟨contained, led, ended⟩ := lists.body isGap isWord isGap' (by decide)
  refine ⟨contained, led, ended, fun rest _ _ => ⟨rest, ?_, rfl⟩⟩
  have whole : gap ++ ("CHOICE".toList ++ (gap' ++ '\x7b' :: (inner ++ ['\x7d']))) ++ rest =
      gap ++ ("CHOICE".toList ++ (gap' ++ '\x7b' :: (inner ++ '\x7d' :: rest))) := by
    simp only [List.append_assoc, List.cons_append, List.nil_append]
  have started := @typeStart_choice_self (gap' ++ '\x7b' :: (inner ++ '\x7d' :: rest))
    (isGap'.loose (.inr rfl))
  rw [← isWord.solid.trimStart, ← isGap.trimStart, ← whole] at started
  exact (ReadsType.choice started (lists.braces (isGap'.trimStart _)) lists.read).readType_eq

theorem tells_record (isGap : IsGap gap) (isGap' : IsGap gap') (lists : Lists items inner) :
    Tells (.record grouping items)
      (gap ++ (groupingWord grouping ++ (gap' ++ '\x7b' :: (inner ++ ['\x7d'])))) := by
  obtain ⟨contained, led, ended⟩ := lists.body isGap isWord_groupingWord isGap' groupingWord_ne
  refine ⟨contained, led, ended, fun rest _ _ => ⟨rest, ?_, rfl⟩⟩
  have whole : gap ++ (groupingWord grouping ++ (gap' ++ '\x7b' :: (inner ++ ['\x7d']))) ++ rest =
      gap ++ (groupingWord grouping ++ (gap' ++ '\x7b' :: (inner ++ '\x7d' :: rest))) := by
    simp only [List.append_assoc, List.cons_append, List.nil_append]
  have started := @typeStart_groupingWord (gap' ++ '\x7b' :: (inner ++ '\x7d' :: rest)) grouping
    (isGap'.loose (.inr rfl))
  rw [← isWord_groupingWord.solid.trimStart, ← isGap.trimStart, ← whole] at started
  have opened : Text.trimStart (gap' ++ '\x7b' :: (inner ++ '\x7d' :: rest)) =
      '\x7b' :: (inner ++ '\x7d' :: rest) := isGap'.trimStart _
  have skipped : skipConstraints (gap' ++ '\x7b' :: (inner ++ '\x7d' :: rest)) =
      .ok ('\x7b' :: (inner ++ '\x7d' :: rest)) := by
    rw [skipConstraints_of_head? (by simp [opened]), opened]
  exact (ReadsType.record started skipped rfl (lists.braces rfl) lists.read).readType_eq

theorem tells_collection {text : List Char} (isGap : IsGap gap) (written : WrittenConstraints constraints)
    (isGap' : IsGap gap') (apart : Apart (groupingWord grouping) (constraints ++ (gap' ++ "OF".toList)))
    (tells : Tells element text) (apart' : Apart "OF".toList text) :
    Tells (.collection grouping element)
      (gap ++ (groupingWord grouping ++ (constraints ++ (gap' ++ ("OF".toList ++ text))))) where
  contained := by
    have isWord : IsWord "OF".toList := by decide
    exact isGap.contained.append (isWord_groupingWord.contained.append (written.contained.append
      (isGap'.contained.append (isWord.contained.append tells.contained))))
  led := .intro isGap isWord_groupingWord groupingWord_ne (by
    have loose := @Solid.loose_of_apart [] _ _ isWord_groupingWord.solid apart
    have whole := @Loose.append _ text loose fun none_left => by simp at none_left
    simpa using whole)
  ended := by
    have own := ((tells.ended.append_right "OF".toList).append_right gap').append_right constraints
    exact (own.append_right (groupingWord grouping)).append_right gap
  read rest apart'' closing := by
    have keyword : IsWord "OF".toList := by decide
    have loose : Loose (text ++ rest) :=
      (@Solid.loose_of_apart [] text _ keyword.solid apart').append fun none_left =>
        absurd none_left tells.led.ne_nil
    have within : Apart text rest := by
      refine @Apart.of_append text rest
        (gap ++ (groupingWord grouping ++ (constraints ++ (gap' ++ "OF".toList)))) ?_
      simpa using apart''
    have loose' : Loose (constraints ++ (gap' ++ ("OF".toList ++ (text ++ rest)))) := by
      have own := @Solid.loose_of_apart [] _ _ isWord_groupingWord.solid apart
      have whole := @Loose.append _ (text ++ rest) own fun none_left => by simp at none_left
      simpa using whole
    have opened : Text.trimStart (gap' ++ ("OF".toList ++ (text ++ rest))) =
        "OF".toList ++ (text ++ rest) := by
      rw [isGap'.trimStart, keyword.solid.trimStart]
    have started := @typeStart_groupingWord _ grouping loose'
    have whole : gap ++ (groupingWord grouping ++ (constraints ++ (gap' ++ ("OF".toList ++ text)))) ++
        rest = gap ++ (groupingWord grouping ++ (constraints ++ (gap' ++ ("OF".toList ++
          (text ++ rest))))) := by
      simp only [List.append_assoc]
    rw [← isWord_groupingWord.solid.trimStart, ← isGap.trimStart, ← whole] at started
    have skipped := @WrittenConstraints.skip (constraints ++ (gap' ++ ("OF".toList ++ (text ++ rest))))
      (gap' ++ ("OF".toList ++ (text ++ rest))) constraints written (by rw [opened]; rintro ⟨⟩) rfl
    have collected : keyword? "OF" (Text.trimStart ("OF".toList ++ (text ++ rest))) = some (text ++ rest) := by
      rw [keyword.solid.trimStart, keyword?_self loose]
    rw [opened] at skipped
    obtain ⟨after, typed, same⟩ := tells.read rest within closing
    exact ⟨after, (ReadsType.collection started skipped collected typed).readType_eq, same⟩

theorem tells_any (isGap : IsGap gap) : Tells (.any "") (gap ++ "ANY".toList) where
  contained := isGap.contained.append (IsWord.contained (by decide))
  led := by
    have own := @Led.intro gap "ANY".toList [] isGap (by decide) (by decide) rfl
    rwa [List.append_nil] at own
  ended := (IsWord.solid (by decide)).ended.append_right gap
  read rest apart closing := by
    have isWord : IsWord "ANY".toList := by decide
    have started := typeStart_any (isWord.solid.loose_of_apart apart)
    rw [← isWord.solid.trimStart, ← isGap.trimStart, ← List.append_assoc] at started
    refine ⟨rest, (ReadsType.any started ?_).readType_eq, rfl⟩
    rw [readAnyRest, closing.keyword?]

theorem tells_anyDefinedBy {gap₁ gap₂ gap₃ : List Char} (isGap : IsGap gap) (isGap₁ : IsGap gap₁)
    (some₁ : gap₁ ≠ []) (isGap₂ : IsGap gap₂) (some₂ : gap₂ ≠ []) (isGap₃ : IsGap gap₃) (some₃ : gap₃ ≠ [])
    (isWord : IsWord name) :
    Tells (.any (String.ofList name))
      (gap ++ ("ANY".toList ++ (gap₁ ++ ("DEFINED".toList ++ (gap₂ ++ ("BY".toList ++
        (gap₃ ++ name))))))) where
  contained := by
    have anyWord : IsWord "ANY".toList := by decide
    have defined : IsWord "DEFINED".toList := by decide
    have byWord : IsWord "BY".toList := by decide
    exact isGap.contained.append (anyWord.contained.append (isGap₁.contained.append
      (defined.contained.append (isGap₂.contained.append (byWord.contained.append
        (isGap₃.contained.append isWord.contained))))))
  led := .intro isGap (by decide) (by decide) (isGap₁.loose (.inl some₁))
  ended := by
    have own := ((isWord.solid.ended.append_right gap₃).append_right "BY".toList).append_right gap₂
    have all := ((own.append_right "DEFINED".toList).append_right gap₁).append_right "ANY".toList
    exact all.append_right gap
  read rest apart closing := by
    have anyWord : IsWord "ANY".toList := by decide
    have defined : IsWord "DEFINED".toList := by decide
    have byWord : IsWord "BY".toList := by decide
    have loose : Loose rest := by
      refine @Solid.loose_of_apart (gap ++ ("ANY".toList ++ (gap₁ ++ ("DEFINED".toList ++ (gap₂ ++
        ("BY".toList ++ gap₃)))))) rest name isWord.solid ?_
      simpa using apart
    have started := @typeStart_any (gap₁ ++ ("DEFINED".toList ++ (gap₂ ++ ("BY".toList ++
      (gap₃ ++ (name ++ rest)))))) (isGap₁.loose (.inl some₁))
    rw [← anyWord.solid.trimStart, ← isGap.trimStart] at started
    have read : readAnyRest (gap₁ ++ ("DEFINED".toList ++ (gap₂ ++ ("BY".toList ++
        (gap₃ ++ (name ++ rest)))))) = .ok (.any (String.ofList name), rest) := by
      rw [readAnyRest, isGap₁.trimStart, defined.solid.trimStart,
        keyword?_self (isGap₂.loose (.inl some₂))]
      dsimp only
      rw [isGap₂.trimStart, byWord.solid.trimStart, keyword?_self (isGap₃.loose (.inl some₃))]
      dsimp only
      rw [readName_word isWord isGap₃ loose]
      rfl
    refine ⟨rest, (ReadsType.any ?_ read).readType_eq, rfl⟩
    simpa using started

end

/-! ## Items -/

structure States (items : List Item) (piece : List Char) : Prop where
  contained : Contained 0 piece
  read {pieces : List (List Char)} {more : List Item} : readItems pieces = .ok more →
    readItems (piece :: pieces) = .ok (items ++ more)

/-- Without the blanks around it a text begins and ends as it does between them. -/
theorem trim_of_ended {core : List Char} (isGap : IsGap gap)
    (starts : ∀ tail, Text.trimStart (core ++ tail) = core ++ tail) (ended : Ended core)
    (tail : List Char) : Text.trim (gap ++ (core ++ tail)) = core ++ tail.rdropWhile Text.isBlank := by
  have trimmed (text : List Char) :
      Text.trim text = (Text.trimStart text).rdropWhile Text.isBlank := rfl
  rw [trimmed, isGap.trimStart, starts, ended.rdropWhile_append]

theorem IsGap.append {gap' : List Char} (isGap : IsGap gap) (isGap' : IsGap gap') : IsGap (gap ++ gap') :=
  fun c member => (List.mem_append.1 member).elim (isGap c) (isGap' c)

section

variable {piece item : List Char}

theorem itemStart_passed (trimmed : Text.trim piece = item)
    (idle : item = [] ∨ ∃ rest, item = ['.', '.', '.'] ++ rest) : itemStart piece = .ok .passed := by
  rw [itemStart, trimmed]
  refine if_pos ?_
  rcases idle with rfl | ⟨rest, rfl⟩
  · rfl
  · rw [strip?_eq_some_iff.2 rfl, Option.isSome_some, Bool.or_true]

/-- A text that begins with a word is neither blank nor a mark. -/
theorem IsWord.not_idle (isWord : IsWord word) (rest : List Char) :
    ¬((word ++ rest).isEmpty || (strip? ['.', '.', '.'] (word ++ rest)).isSome) = true := by
  obtain ⟨first, more, rfl⟩ := List.exists_cons_of_ne_nil isWord.ne_nil
  have dot : '.' ≠ first := by
    rintro rfl
    cases isWord.parts
  simp [strip?, dot]

theorem itemStart_named (trimmed : Text.trim piece = name ++ rest) (isWord : IsWord name)
    (other : name ≠ "COMPONENTS".toList) (loose : Loose rest) {tag : Option Tag} {type : List Char}
    (tagged : readTag rest = .ok (tag, type)) :
    itemStart piece = .ok (.component (String.ofList name) tag type) := by
  have none_found : componentsOf? (name ++ rest) = none := by
    rw [componentsOf?_eq, isWord.solid.trimStart, wordThenBlanks?_of_ne (by decide) isWord.solid loose other,
      Option.bind_none]
  have named : readName (name ++ rest) = .ok (String.ofList name, rest) :=
    @readName_word rest [] name isWord (by simp [IsGap]) loose
  rw [itemStart, trimmed]
  dsimp only
  rw [if_neg (isWord.not_idle rest), none_found]
  dsimp only
  rw [named]
  simp only [bind, Except.bind, tagged]
  rfl

theorem itemStart_componentsOf (trimmed : Text.trim piece = item) {source : String}
    (busy : ¬(item.isEmpty || (strip? ['.', '.', '.'] item).isSome) = true)
    (found : componentsOf? item = some source) : itemStart piece = .ok (.componentsOf source) := by
  rw [itemStart, trimmed]
  dsimp only
  rw [if_neg busy, found]

end

theorem states_blank (isGap : IsGap gap) : States [] gap where
  contained := isGap.contained
  read listed := by
    have trimmed : Text.trim gap = [] := by
      have own := isGap.trimStart []
      rw [List.append_nil] at own
      rw [Text.trim, own]
      rfl
    exact (ReadsItems.passed (itemStart_passed trimmed (.inl rfl)) listed).readItems_eq

theorem states_mark {gap' : List Char} (isGap : IsGap gap) (isGap' : IsGap gap') :
    States [] (gap ++ (['.', '.', '.'] ++ gap')) where
  contained := isGap.contained.append ((contained_of_all (by decide)).append isGap'.contained)
  read listed := by
    have trimmed := @trim_of_ended gap ['.', '.', '.'] isGap (fun _ => rfl) (ended_concat rfl ['.', '.']) gap'
    exact (ReadsItems.passed (itemStart_passed trimmed (.inr ⟨_, rfl⟩)) listed).readItems_eq

theorem states_componentsOf {gap₁ gap₂ gap₃ : List Char} (isGap : IsGap gap) (isGap₁ : IsGap gap₁)
    (some₁ : gap₁ ≠ []) (isGap₂ : IsGap gap₂) (some₂ : gap₂ ≠ []) (isWord : IsWord name)
    (isGap₃ : IsGap gap₃) :
    States [.componentsOf (String.ofList name)]
      (gap ++ ("COMPONENTS".toList ++ (gap₁ ++ ("OF".toList ++ (gap₂ ++ (name ++ gap₃)))))) := by
  have first : IsWord "COMPONENTS".toList := by decide
  have second : IsWord "OF".toList := by decide
  refine ⟨isGap.contained.append (first.contained.append (isGap₁.contained.append
    (second.contained.append (isGap₂.contained.append (isWord.contained.append isGap₃.contained))))),
    fun listed => ?_⟩
  have ended : Ended ("COMPONENTS".toList ++ (gap₁ ++ ("OF".toList ++ (gap₂ ++ name)))) :=
    (((isWord.solid.ended.append_right gap₂).append_right "OF".toList).append_right gap₁).append_right _
  have trimmed := trim_of_ended isGap (fun tail => by
    rw [List.append_assoc, first.solid.trimStart]) ended gap₃
  have source : source? name = some (String.ofList name) := by
    have parted := @dropWhile_append_of_all isJoint name [] isWord.solid.joint rfl
    rw [List.append_nil] at parted
    rw [source?, parted.1, parted.2]
    simp [isWord.ne_nil, Text.trimStart]
  have found : componentsOf? ("COMPONENTS".toList ++ (gap₁ ++ ("OF".toList ++ (gap₂ ++ name)))) =
      some (String.ofList name) := by
    have named := isWord.solid.trimStart []
    rw [List.append_nil] at named
    rw [componentsOf?_eq, first.solid.trimStart, wordThenBlanks?_self isGap₁ some₁, Option.bind_some,
      second.solid.trimStart, wordThenBlanks?_self isGap₂ some₂, Option.bind_some, named, source]
  rw [isGap₃.rdropWhile, List.append_nil] at trimmed
  refine (ReadsItems.componentsOf (itemStart_componentsOf ?_ (first.not_idle _) found) listed).readItems_eq
  simpa using trimmed

theorem Apart.of_prefix (pre : left <+: right) (apart : Apart text right) : Apart text left := by
  intro c last d first
  obtain ⟨more, rfl⟩ := pre
  refine apart c last d ?_
  rw [Option.mem_def] at first ⊢
  rw [List.head?_append, first, Option.some_or]

theorem states_component {tagText presence : List Char} {tag : Option Tag} {type : TypeExpr} {optional : Bool}
    (isGap : IsGap gap) (isWord : IsWord name) (other : name ≠ "COMPONENTS".toList)
    (tagged : WrittenTag tag tagText) (apart : Apart name (tagText ++ text)) (tells : Tells type text)
    (apart' : Apart tagText text) (written : WrittenPresence optional presence)
    (apart'' : Apart text presence) :
    States [.component (String.ofList name) tag type optional]
      (gap ++ (name ++ (tagText ++ (text ++ presence)))) := by
  have contained := isGap.contained.append (isWord.contained.append (tagged.contained.append
    (tells.contained.append written.contained)))
  refine ⟨contained, fun listed => ?_⟩
  obtain ⟨closing, present⟩ := written.kept
  have within := apart''.of_prefix (List.rdropWhile_prefix Text.isBlank presence)
  have trimmed : Text.trim (gap ++ (name ++ (tagText ++ (text ++ presence)))) =
      name ++ (tagText ++ (text ++ presence.rdropWhile Text.isBlank)) := by
    have ended : Ended (name ++ (tagText ++ text)) := (tells.ended.append_right tagText).append_right name
    have own := trim_of_ended isGap (fun tail => by
      rw [List.append_assoc, isWord.solid.trimStart]) ended presence
    simpa using own
  -- The piece is trimmed before it is read, so a default value can lose blanks at its end.
  generalize presence.rdropWhile Text.isBlank = kept at closing present within trimmed
  have loose : Loose (tagText ++ (text ++ kept)) := by
    have own := @Solid.loose_of_apart [] _ _ isWord.solid apart
    have whole := @Loose.append _ kept own fun none_left => by
      exact absurd (List.append_eq_nil_iff.1 none_left).2 tells.led.ne_nil
    simpa using whole
  have read := tagged.read (tells.led.append within) (apart'.append_right tells.led.ne_nil kept)
  obtain ⟨after, typed, same⟩ := tells.read kept within closing
  -- The reader of the type may have passed over blanks, which begin no word.
  have told : hasWord ["OPTIONAL", "DEFAULT"] false after = optional := by
    rw [← present, ← hasWord_trimStart kept, ← same, hasWord_trimStart]
    rfl
  rw [← told]
  exact (ReadsItems.component (itemStart_named trimmed isWord other loose read) (readType_trimStart typed)
    listed).readItems_eq

section

variable {first others items : List Item} {text' : List Char}

theorem lists_last (stated : States items text) : Lists items text where
  contained := stated.contained.mono (Nat.zero_le 1)
  read := by
    have single : splitItems text = [text] := by
      have passed := stated.contained.uncut 0 (Int.le_refl 0) [] []
      rw [List.append_nil, List.append_nil] at passed
      rw [splitItems, passed, splitItemsFrom, List.reverse_reverse]
    have none_left : readItems [] = .ok [] := ReadsItems.nil.readItems_eq
    rw [single, stated.read none_left, List.append_nil]

theorem lists_more (stated : States first text) (lists : Lists others text') :
    Lists (first ++ others) (text ++ ',' :: text') where
  contained := (stated.contained.mono (Nat.zero_le 1)).append (contained_comma.append lists.contained)
  read := by
    have cut : splitItems (text ++ ',' :: text') = text :: splitItems text' := by
      rw [splitItems, stated.contained.uncut 0 (Int.le_refl 0), List.append_nil, splitItemsFrom,
        if_neg (by decide), if_neg (by decide), if_pos (by decide), List.reverse_reverse]
      rfl
    rw [cut, stated.read lists.read]

end

/-! ## Everything that can be written -/

mutual

theorem WrittenType.tells : ∀ {type : TypeExpr} {text : List Char}, WrittenType type text →
    Tells type text
  | _, _, .builtin isGap builtin values constraints => by
      obtain ⟨names, member⟩ := builtin.names
      rw [← ofWord_builtin member]
      exact tells_simple names isGap values constraints
  | _, _, .reference isGap ordinary constraints => by
      rw [← ofWord_ordinary ordinary]
      exact tells_simple ordinary.names isGap .absent constraints
  | _, _, .record isGap isGap' items => tells_record isGap isGap' items.lists
  | _, _, .choice isGap isGap' items => tells_choice isGap isGap' items.lists
  | _, _, .collection isGap constraints isGap' apart element apart' =>
      tells_collection isGap constraints isGap' apart element.tells apart'
  | _, _, .any isGap => tells_any isGap
  | _, _, .anyDefinedBy isGap isGap₁ some₁ isGap₂ some₂ isGap₃ some₃ ordinary =>
      tells_anyDefinedBy isGap isGap₁ some₁ isGap₂ some₂ isGap₃ some₃ ordinary.isWord

theorem WrittenItem.states : ∀ {items : List Item} {text : List Char}, WrittenItem items text →
    States items text
  | _, _, .blank isGap => states_blank isGap
  | _, _, .mark isGap isGap' => states_mark isGap isGap'
  | _, _, .componentsOf isGap isGap₁ some₁ isGap₂ some₂ ordinary isGap₃ =>
      states_componentsOf isGap isGap₁ some₁ isGap₂ some₂ ordinary.isWord isGap₃
  | _, _, .component isGap ordinary tagged apart type apart' presence apart'' =>
      states_component isGap ordinary.isWord (ordinary.ne_reserved (by decide)) tagged apart
        type.tells apart' presence apart''

theorem WrittenItems.lists : ∀ {items : List Item} {text : List Char}, WrittenItems items text →
    Lists items text
  | _, _, .last item => lists_last item.states
  | _, _, .more item others => lists_more item.states others.lists

end

end BerRecords.Module
