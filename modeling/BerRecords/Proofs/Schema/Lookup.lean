import BerRecords.Proofs.Definition.Lookup

/-!
# Looking up and checking agree

Records, choices and schemas are refused when two of their items claim one key, and otherwise
every tag selects in them what is claimed for its key.
-/

set_option autoImplicit false

namespace BerRecords

namespace Definition

variable {γ δ : Type} {parent : String} {items items' : List Definition}

/-- An item that a record, a choice or a schema can be made of. -/
structure Eligible (item : Definition) : Prop where
  made : item.Made
  selectable : item.Selectable

/-- Something is made of items unless two of them claim one key. Then it is told which key
that is, and for which two definitions it is claimed. -/
structure Checked (parent : String) (items : List Definition) (result : Except SchemaError γ) :
    Prop where
  made : Apart items → ∃ value, result = .ok value
  refused : (∃ key first second, Clash key first second items) →
    ∃ key first second, Clash key first second items ∧
      result = .error (duplicate parent key first second)

theorem checked_checkItems (parent : String) (eligible : ∀ item ∈ items, item.Eligible) :
    Checked parent items (checkItems parent [] items) := by
  have checked := checks_checkItems parent [] (fun item member => (eligible item member).selectable)
    (fun item member => (eligible item member).made.distinct)
  generalize checkItems parent [] items = result at checked
  cases checked with
  | passed apart =>
      refine ⟨fun _ => ⟨(), rfl⟩, ?_⟩
      rintro ⟨key, first, second, clash⟩
      exact absurd clash (apart key first second)
  | among clash => exact ⟨fun apart => absurd clash (apart _ _ _), fun _ => ⟨_, _, _, clash, rfl⟩⟩
  | before known => cases known

theorem Checked.map {result : Except SchemaError γ} (checked : Checked parent items result)
    (build : γ → δ) : Checked parent items (result.map build) := by
  constructor
  · intro apart
    obtain ⟨value, rfl⟩ := checked.made apart
    exact ⟨build value, rfl⟩
  · intro clashing
    obtain ⟨key, first, second, clash, rfl⟩ := checked.refused clashing
    exact ⟨key, first, second, clash, rfl⟩

/-- What has been made was made of items without a clash. -/
theorem Checked.apart {result : Except SchemaError γ} (checked : Checked parent items result)
    {value : γ} (made : result = .ok value) : Apart items := by
  intro key first second clash
  obtain ⟨_, _, _, -, refused⟩ := checked.refused ⟨key, first, second, clash⟩
  cases made.symm.trans refused

theorem checked_ofComponents (name : String) (grouping : Grouping)
    (eligible : ∀ item ∈ items, item.Eligible) :
    Checked name items (ofComponents name grouping items) := by
  rw [ofComponents_eq]
  exact (checked_checkItems name eligible).map _

theorem checked_ofAlternatives (name : String) (eligible : ∀ item ∈ items, item.Eligible) :
    Checked name items (ofAlternatives name items) := by
  rw [ofAlternatives_eq]
  exact (checked_checkItems name eligible).map _

theorem distinct_of_apart (eligible : ∀ item ∈ items, item.Eligible) (apart : Apart items) :
    Distinct (claimsAll items) :=
  (apart_iff_distinct fun item member => (eligible item member).made.distinct).1 apart

theorem Apart.reordered (eligible : ∀ item ∈ items, item.Eligible) (perm : items.Perm items')
    (apart : Apart items) : Apart items' :=
  apart.perm (fun item member => (eligible item member).made.distinct) perm

/-- A look-up gives what a rule says of the key of the tag, and the rule says one thing. -/
def Finds {α β : Type} (look : Tag → α) (rule : Tag.Key → β → Prop) (answer : β → α) : Prop :=
  ∀ key, ∃ found, (∀ tag : Tag, tag.key = key → look tag = answer found) ∧
    ∀ other, rule key other ↔ other = found

theorem finds_of_rule {α β : Type} {look : Tag → α} {rule : Tag.Key → β → Prop} {answer : β → α}
    (unique : ∀ {key found other}, rule key found → rule key other → found = other)
    (meets : ∀ tag : Tag, ∃ found, look tag = answer found ∧ rule tag.key found) :
    Finds look rule answer := by
  intro key
  obtain ⟨found, -, ruled⟩ := meets ⟨key.tagClass, false, key.number⟩
  refine ⟨found, ?_, fun other => ⟨fun ruled' => unique ruled' ruled, fun same => same ▸ ruled⟩⟩
  rintro tag rfl
  obtain ⟨found', looked, ruled'⟩ := meets tag
  rw [looked, unique ruled' ruled]

theorem Finds.look_eq {α β : Type} {look : Tag → α} {rule : Tag.Key → β → Prop} {answer : β → α}
    (finds : Finds look rule answer) {tag : Tag} {found : β} (ruled : rule tag.key found) :
    look tag = answer found := by
  obtain ⟨found', looked, only⟩ := finds tag.key
  rw [looked tag rfl, (only found).1 ruled]

/-- A record finds what is claimed for the key of a tag. -/
theorem record_finds {name : String} {grouping : Grouping} {definition : Definition}
    (eligible : ∀ item ∈ items, item.Eligible)
    (made : ofComponents name grouping items = .ok definition) :
    Finds definition.select (Selects · items) .ok := by
  have apart := (checked_ofComponents name grouping eligible).apart made
  have each := fun item member => (eligible item member).made.distinct
  obtain rfl := eq_of_ofComponents made
  exact finds_of_rule (fun selects => selects.unique each apart)
    fun tag => ⟨_, rfl, selects_components tag each⟩

/-- With one component of any content at most, the order of the components does not matter. -/
theorem record_reordered {name : String} {grouping : Grouping} {definition : Definition}
    (eligible : ∀ item ∈ items, item.Eligible)
    (made : ofComponents name grouping items = .ok definition)
    (few : items.countP (·.isAny) ≤ 1) (perm : items.Perm items') :
    ∃ definition', ofComponents name grouping items' = .ok definition' ∧
      ∀ tag, definition'.child? tag = definition.child? tag := by
  have apart := (checked_ofComponents name grouping eligible).apart made
  have eligible' : ∀ item ∈ items', item.Eligible :=
    fun item member => eligible item (perm.mem_iff.2 member)
  obtain ⟨definition', made'⟩ :=
    (checked_ofComponents name grouping eligible').made (apart.reordered eligible perm)
  refine ⟨definition', made', fun tag => ?_⟩
  obtain rfl := eq_of_ofComponents made
  obtain rfl := eq_of_ofComponents made'
  rw [child?_record, child?_record, claimAmong?_perm (distinct_of_apart eligible apart) perm,
    find?_isAny_perm few perm]

/-- A choice finds what is claimed for the key of a tag. -/
theorem choice_finds {name : String} {definition : Definition}
    (eligible : ∀ item ∈ items, item.Eligible)
    (made : ofAlternatives name items = .ok definition) :
    Finds definition.select (Chooses · items) (fun found? => .ok (found?.map (⟨none, ·⟩))) := by
  have distinct := distinct_of_apart eligible ((checked_ofAlternatives name eligible).apart made)
  obtain ⟨rfl, -⟩ := eq_of_ofAlternatives made
  exact finds_of_rule (fun chooses => chooses.unique distinct)
    fun tag => ⟨_, rfl, chooses_claimAmong? tag distinct⟩

theorem choice_reordered {name : String} {definition : Definition}
    (eligible : ∀ item ∈ items, item.Eligible)
    (made : ofAlternatives name items = .ok definition) (perm : items.Perm items') :
    ∃ definition', ofAlternatives name items' = .ok definition' ∧
      ∀ tag, definition'.child? tag = definition.child? tag := by
  have apart := (checked_ofAlternatives name eligible).apart made
  have eligible' : ∀ item ∈ items', item.Eligible :=
    fun item member => eligible item (perm.mem_iff.2 member)
  obtain ⟨definition', made'⟩ :=
    (checked_ofAlternatives name eligible').made (apart.reordered eligible perm)
  refine ⟨definition', made', fun tag => ?_⟩
  obtain ⟨rfl, -⟩ := eq_of_ofAlternatives made
  obtain ⟨rfl, -⟩ := eq_of_ofAlternatives made'
  rw [child?, child?, select, select, claimAmong?_perm (distinct_of_apart eligible apart) perm]

end Definition

namespace Schema.Draft

open Definition (checkItems)

variable {draft : Draft} {schema : Schema}

def listed (draft : Draft) : List Definition :=
  draft.roots ++ draft.rootNames.filterMap fun name => draft.types.find? (·.name = name)

def NamesDefined (draft : Draft) : Prop :=
  ∀ name ∈ draft.rootNames, ∃ definition, draft.types.find? (·.name = name) = some definition

theorem mapM_eq_filterMap {α β : Type} {read : α → Except SchemaError β} {known : α → Option β}
    {inputs : List α}
    (each : ∀ input ∈ inputs, ∃ value, known input = some value ∧ read input = .ok value) :
    inputs.mapM read = .ok (inputs.filterMap known) := by
  induction inputs with
  | nil => rfl
  | cons input rest ih =>
      rw [List.forall_mem_cons] at each
      obtain ⟨⟨value, found, given⟩, later⟩ := each
      rw [List.mapM_cons, ih later, List.filterMap_cons_some found, given]
      rfl

theorem allRoots_eq (defined : draft.NamesDefined) : draft.allRoots = .ok draft.listed := by
  rw [allRoots, @mapM_eq_filterMap _ _ _ fun name => draft.types.find? (·.name = name)]
  · rfl
  · intro name member
    obtain ⟨definition, known⟩ := defined name member
    exact ⟨definition, known, by rw [known]⟩

/-- If every root can be selected, the roots are checked as the items of a record are. -/
theorem checkRoots_eq {roots : List Definition} (seen : List (Tag.Key × Definition))
    (claiming : ∀ root ∈ roots, ∃ key target, Definition.Claims key root target) :
    checkRoots seen roots = checkItems topLevel seen roots := by
  induction roots generalizing seen with
  | nil => rfl
  | cons root rest ih =>
      rw [List.forall_mem_cons] at claiming
      obtain ⟨⟨key, target, claimed⟩, later⟩ := claiming
      rw [checkRoots, checkItems]
      cases listed : root.itemClaims with
      | error => rfl
      | ok table =>
          have selectable := Definition.selectable_of_itemClaims listed
          cases listed.symm.trans (Definition.itemClaims_of_selectable selectable)
          have some_claim : root.claims.isEmpty = false :=
            List.isEmpty_eq_false_iff.2 (List.ne_nil_of_mem (Definition.mem_claims claimed))
          simp only [bind, Except.bind, some_claim, Bool.false_eq_true, ↓reduceIte]
          cases Definition.addClaims topLevel seen root.claims with
          | error => rfl
          | ok seen => exact ih seen later

structure Rooted (draft : Draft) : Prop where
  defined : draft.NamesDefined
  claiming : ∀ root ∈ draft.listed, ∃ key target, Definition.Claims key root target

theorem build_eq (rooted : draft.Rooted) :
    draft.build = (checkItems topLevel [] draft.listed).map fun _ =>
      ⟨draft.types, draft.listed, draft.encoding⟩ := by
  rw [build, allRoots_eq rooted.defined]
  simp only [bind, Except.bind, checkRoots_eq [] rooted.claiming]
  cases checkItems topLevel [] draft.listed with
  | error => rfl
  | ok => rfl

theorem checked_build (eligible : ∀ root ∈ draft.listed, root.Eligible) (rooted : draft.Rooted) :
    Definition.Checked topLevel draft.listed draft.build := by
  rw [build_eq rooted]
  exact (Definition.checked_checkItems topLevel eligible).map _

theorem roots_of_build (rooted : draft.Rooted) (built : draft.build = .ok schema) :
    schema.roots = draft.listed := by
  rw [build_eq rooted] at built
  cases passed : checkItems topLevel [] draft.listed with
  | error => simp [passed, Except.map] at built
  | ok =>
      rw [passed] at built
      cases built
      rfl

/-- A schema finds the root that is claimed for the key of a tag. -/
theorem schema_finds (eligible : ∀ root ∈ draft.listed, root.Eligible) (rooted : draft.Rooted)
    (built : draft.build = .ok schema) :
    Definition.Finds schema.root? (Definition.Chooses · draft.listed) id := by
  have apart := (checked_build eligible rooted).apart built
  have distinct := Definition.distinct_of_apart eligible apart
  rw [← roots_of_build rooted built] at distinct ⊢
  exact Definition.finds_of_rule (fun chooses => chooses.unique distinct)
    fun tag => ⟨_, rfl, Definition.chooses_claimAmong? tag distinct⟩

theorem schema_reordered (eligible : ∀ root ∈ draft.listed, root.Eligible) (rooted : draft.Rooted)
    (built : draft.build = .ok schema) {draft' : Draft} (defined' : draft'.NamesDefined)
    (perm : draft.listed.Perm draft'.listed) :
    ∃ schema', draft'.build = .ok schema' ∧ ∀ tag, schema'.root? tag = schema.root? tag := by
  have apart := (checked_build eligible rooted).apart built
  have eligible' : ∀ root ∈ draft'.listed, root.Eligible :=
    fun root member => eligible root (perm.mem_iff.2 member)
  have rooted' : draft'.Rooted :=
    ⟨defined', fun root member => rooted.claiming root (perm.mem_iff.2 member)⟩
  obtain ⟨schema', built'⟩ := (checked_build eligible' rooted').made (apart.reordered eligible perm)
  refine ⟨schema', built', fun tag => ?_⟩
  rw [root?, root?, roots_of_build rooted built, roots_of_build rooted' built',
    Definition.claimAmong?_perm (Definition.distinct_of_apart eligible apart) perm]

end Schema.Draft

namespace Schema

open Definition Draft

/-- Records, choices and schemas are made of items unless two of these claim one key, and then
the error names such a key. Each tag selects what is claimed for its key, wherever its
constructed bit stands; a record falls back on its first component of any content. What is
found does not depend on the order of the items, as long as the fallback does not. -/
theorem lookup_agrees_with_check {items : List Definition}
    (eligible : ∀ item ∈ items, item.Eligible) (name : String) (grouping : Grouping) :
    (Checked name items (ofComponents name grouping items) ∧
      ∀ definition, ofComponents name grouping items = .ok definition →
        Finds definition.select (Selects · items) .ok ∧
        (items.countP (·.isAny) ≤ 1 → ∀ items', items.Perm items' →
          ∃ definition', ofComponents name grouping items' = .ok definition' ∧
            ∀ tag, definition'.child? tag = definition.child? tag)) ∧
    (Checked name items (ofAlternatives name items) ∧
      ∀ definition, ofAlternatives name items = .ok definition →
        Finds definition.select (Chooses · items) (fun found? => .ok (found?.map (⟨none, ·⟩))) ∧
        ∀ items', items.Perm items' →
          ∃ definition', ofAlternatives name items' = .ok definition' ∧
            ∀ tag, definition'.child? tag = definition.child? tag) ∧
    ∀ draft : Draft, draft.Rooted → draft.listed = items →
      Checked topLevel items draft.build ∧
      ∀ schema, draft.build = .ok schema →
        Finds schema.root? (Chooses · items) id ∧
        ∀ draft' : Draft, draft'.NamesDefined → items.Perm draft'.listed →
          ∃ schema', draft'.build = .ok schema' ∧ ∀ tag, schema'.root? tag = schema.root? tag := by
  refine ⟨⟨checked_ofComponents name grouping eligible, ?_⟩,
    ⟨checked_ofAlternatives name eligible, ?_⟩, ?_⟩
  · intro definition made
    exact ⟨record_finds eligible made,
      fun few items' perm => record_reordered eligible made few perm⟩
  · intro definition made
    exact ⟨choice_finds eligible made, fun items' perm => choice_reordered eligible made perm⟩
  · rintro draft rooted rfl
    refine ⟨checked_build eligible rooted, fun schema built => ?_⟩
    exact ⟨schema_finds eligible rooted built,
      fun draft' defined' perm => schema_reordered eligible rooted built defined' perm⟩

/-- A record with a choice inside a choice, any content and a number; the same key twice
inside a choice and beside it; and a schema with that choice and the number, which is named. -/
theorem lookup_agrees_with_check_of_message :
    let x : Definition := .scalar ⟨"x", some (.context 0), false⟩ .integer
    let y : Definition := .scalar ⟨"y", some (.context 1), false⟩ .integer
    let pick : Definition := .choice ⟨"pick", none, true⟩ [.choice ⟨"deep", none, false⟩ [x, y]]
    let body : Definition := .any ⟨"body", none, false⟩ "x"
    let number : Definition := .scalar ⟨"number", some .integer, false⟩ .integer
    let draft : Draft := ⟨[number], [pick], ["number"], .singleOctet⟩
    (∃ message, ofComponents "msg" .sequence [pick, body, number] = .ok message ∧
      message.select (.context 1) = .ok (some ⟨some 0, y⟩) ∧
      message.select (Tag.context 1).asConstructed = .ok (some ⟨some 0, y⟩) ∧
      message.select .boolean = .ok (some ⟨some 1, body⟩) ∧
      ∃ message', ofComponents "msg" .sequence [body, number, pick] = .ok message' ∧
        message'.child? (.context 1) = message.child? (.context 1)) ∧
    (∃ key first second, Clash key first second [pick, y] ∧
      ofAlternatives "other" [pick, y] = .error (duplicate "other" key first second)) ∧
    ∃ schema, draft.build = .ok schema ∧ schema.root? (.context 1) = some y := by
  intro x y pick body number draft
  have x_made : x.Made := .retagged (.context 0) (.ofScalar "x" .integer)
  have y_made : y.Made := .retagged (.context 1) (.ofScalar "y" .integer)
  have deep_made : (Definition.choice ⟨"deep", none, false⟩ [x, y]).Made :=
    @Made.ofAlternatives "deep" [x, y] _ (by simp [x_made, y_made]) (by rfl)
  have pick_made : pick.Made :=
    @Made.asOptional (.choice ⟨"pick", none, false⟩ [.choice ⟨"deep", none, false⟩ [x, y]])
      (@Made.ofAlternatives "pick" [.choice ⟨"deep", none, false⟩ [x, y]] _
        (by simp [deep_made]) (by rfl))
  have pick_eligible : pick.Eligible := ⟨pick_made, fun _ => .inl rfl⟩
  have y_eligible : y.Eligible := ⟨y_made, fun untagged => nomatch untagged⟩
  have body_eligible : body.Eligible := ⟨.ofAny "body" "x", fun _ => .inr rfl⟩
  have number_eligible : number.Eligible :=
    ⟨.ofScalar "number" .integer, fun untagged => nomatch untagged⟩
  have y_claimed : Claims (Tag.context 1).key pick y :=
    .alternative rfl (.head _) (.alternative rfl (.tail _ (.head _)) (.own rfl rfl))
  have unclaimed : Unclaimed Tag.boolean.key [pick, body, number] := by
    intro item member target claimed
    have listed := mem_claimsAll_iff.2 ⟨item, member, claimed⟩
    have present : Tag.boolean.key ∈ (claimsAll [pick, body, number]).map (·.1) :=
      List.mem_map.2 ⟨_, listed, rfl⟩
    exact absurd present (by decide)
  refine ⟨?_, ?_, ?_⟩
  · obtain ⟨-, found⟩ := (@lookup_agrees_with_check [pick, body, number]
      (by simp [pick_eligible, body_eligible, number_eligible]) "msg" .sequence).1
    obtain ⟨finds, reordered⟩ := found _ rfl
    have perm : [pick, body, number].Perm [body, number, pick] :=
      @List.perm_append_comm _ [pick] [body, number]
    obtain ⟨message', made', same⟩ := reordered (by decide) _ perm
    refine ⟨_, rfl, ?_, ?_, ?_, message', made', same _⟩
    · exact finds.look_eq (.claimed rfl y_claimed)
    · exact finds.look_eq (.claimed rfl y_claimed)
    · exact finds.look_eq (.fallback unclaimed rfl rfl (by decide))
  · obtain ⟨checked, -⟩ := (@lookup_agrees_with_check [pick, y]
      (by simp [pick_eligible, y_eligible]) "other" .sequence).2.1
    exact checked.refused ⟨_, _, _, .here y_claimed (.head _) (.own rfl rfl)⟩
  · have known : draft.NamesDefined := by
      intro name member
      cases List.mem_singleton.1 member
      exact ⟨number, rfl⟩
    have claiming : ∀ root ∈ [pick, number], ∃ key target, Claims key root target := by
      simp only [List.forall_mem_cons]
      exact ⟨⟨_, _, y_claimed⟩, ⟨_, _, .own rfl rfl⟩, nofun⟩
    obtain ⟨-, found⟩ := (@lookup_agrees_with_check [pick, number]
      (by simp [pick_eligible, number_eligible]) "" .sequence).2.2 draft ⟨known, claiming⟩ rfl
    obtain ⟨finds, -⟩ := found _ rfl
    exact ⟨_, rfl, finds.look_eq (.claimed (.head _) y_claimed)⟩

end Schema

end BerRecords
