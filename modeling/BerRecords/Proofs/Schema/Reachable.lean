import BerRecords.Proofs.Definition.Reachable
import BerRecords.Proofs.Schema.Lookup

/-!
# What an accepted schema can reach

The roots of a schema are checked for a key, the items of a definition only for keys that
clash. So every root can be selected, and an item exactly if it claims a key or is what its
parent falls back on.
-/

set_option autoImplicit false

namespace BerRecords

namespace Schema.Draft

open Definition (Claiming Made checkItems)

variable {draft : Draft} {schema : Schema} {roots : List Definition}

/-- Drafted step by step, from definitions that the operations make. -/
inductive Drafted : Draft → Prop where
  | empty (encoding : TagEncoding) : Drafted (empty encoding)
  | define {definition : Definition} {draft : Draft} : definition.Made → Drafted draft →
      Drafted (draft.define definition)
  | root {definition : Definition} {draft : Draft} : definition.Made → Drafted draft →
      Drafted (draft.root definition)
  | rootNamed {draft : Draft} (name : String) : Drafted draft → Drafted (draft.rootNamed name)

theorem made_of_define {definition other : Definition} (made : definition.Made)
    (known : ∀ type ∈ draft.types, type.Made) (member : other ∈ (draft.define definition).types) :
    other.Made := by
  rcases List.mem_cons.1 member with rfl | earlier
  · exact made
  · exact known other (List.mem_of_mem_filter earlier)

theorem Drafted.made (drafted : Drafted draft) :
    (∀ type ∈ draft.types, type.Made) ∧ ∀ root ∈ draft.roots, root.Made := by
  induction drafted with
  | empty => exact ⟨List.forall_mem_nil _, List.forall_mem_nil _⟩
  | define made _ ih => exact ⟨fun _ => made_of_define made ih.1, ih.2⟩
  | root made _ ih =>
      refine ⟨fun _ => made_of_define made ih.1, fun root member => ?_⟩
      rcases List.mem_append.1 member with earlier | added
      · exact ih.2 root earlier
      · exact List.mem_singleton.1 added ▸ made
  | rootNamed _ _ ih => exact ih

theorem Drafted.made_listed (drafted : Drafted draft) : ∀ root ∈ draft.listed, root.Made := by
  intro root member
  rcases List.mem_append.1 member with given | named
  · exact drafted.made.2 root given
  · obtain ⟨name, -, found⟩ := List.mem_filterMap.1 named
    exact drafted.made.1 root (List.mem_of_find?_eq_some found)

/-! ## What building checks -/

theorem read_of_mapM {α β : Type} {read : α → Except SchemaError β} {inputs : List α}
    {values : List β} (done : inputs.mapM read = .ok values) :
    ∀ input ∈ inputs, ∃ value, read input = .ok value := by
  induction inputs generalizing values with
  | nil => exact List.forall_mem_nil _
  | cons input rest ih =>
      rw [List.mapM_cons] at done
      cases first : read input with
      | error => rw [first] at done; cases done
      | ok value =>
          rw [first] at done
          cases later : rest.mapM read with
          | error => rw [later] at done; cases done
          | ok values => exact List.forall_mem_cons.2 ⟨⟨value, first⟩, ih later⟩

theorem namesDefined_of_allRoots (listed : draft.allRoots = .ok roots) : draft.NamesDefined := by
  rw [allRoots] at listed
  simp only [bind, Except.bind] at listed
  split at listed
  · cases listed
  · rename_i named read
    intro name member
    obtain ⟨definition, found⟩ := read_of_mapM read name member
    split at found
    · rename_i definition known
      exact ⟨definition, known⟩
    · cases found

theorem claiming_of_checkRoots {seen : List (Tag.Key × Definition)}
    (passed : checkRoots seen roots = .ok ()) : ∀ root ∈ roots, Claiming root := by
  induction roots generalizing seen with
  | nil => exact List.forall_mem_nil _
  | cons root rest ih =>
      rw [checkRoots] at passed
      cases listed : root.itemClaims with
      | error => rw [listed] at passed; cases passed
      | ok table =>
          have selectable := Definition.selectable_of_itemClaims listed
          cases listed.symm.trans (Definition.itemClaims_of_selectable selectable)
          rw [listed] at passed
          simp only [bind, Except.bind] at passed
          split at passed
          · cases passed
          · rename_i some_claim
            split at passed
            · cases passed
            · refine List.forall_mem_cons.2 ⟨?_, ih passed⟩
              cases table : root.claims with
              | nil => simp [table] at some_claim
              | cons entry =>
                  exact ⟨entry.1, entry.2, Definition.claims_of_mem (table ▸ .head _)⟩

theorem rooted_of_build (built : draft.build = .ok schema) : draft.Rooted := by
  rw [build] at built
  cases given : draft.allRoots with
  | error => rw [given] at built; cases built
  | ok roots =>
      have defined := namesDefined_of_allRoots given
      rw [allRoots_eq defined] at given
      obtain rfl := Except.ok.inj given
      rw [allRoots_eq defined] at built
      simp only [bind, Except.bind] at built
      split at built
      · cases built
      · rename_i passed
        exact ⟨defined, claiming_of_checkRoots passed⟩

theorem types_of_build (built : draft.build = .ok schema) : schema.types = draft.types := by
  rw [build_eq (rooted_of_build built)] at built
  cases passed : checkItems topLevel [] draft.listed with
  | error => simp [passed, Except.map] at built
  | ok =>
      rw [passed] at built
      cases built
      rfl

/-- Each root of a schema can be selected, as itself or by its alternatives. -/
theorem Drafted.root_reached (drafted : Drafted draft) (built : draft.build = .ok schema)
    {root : Definition} (member : root ∈ schema.roots) :
    ∃ tag found, schema.root? tag = some found ∧ root.StandsFor found := by
  have rooted := rooted_of_build built
  have each := fun root inside => (drafted.made_listed root inside).distinct
  rw [build_eq rooted] at built
  have passed : checkItems topLevel [] draft.listed = .ok () := by
    cases passed : checkItems topLevel [] draft.listed with
    | error => simp [passed, Except.map] at built
    | ok => rfl
  have apart := Definition.apart_of_checkItems passed each
  have distinct := (Definition.apart_iff_distinct each).1 apart
  rw [passed] at built
  obtain rfl := (Except.ok.inj built).symm
  obtain ⟨key, target, claimed⟩ := rooted.claiming root member
  refine ⟨⟨key.tagClass, false, key.number⟩, target, ?_, claimed.standsFor⟩
  exact (Definition.claimAmong?_eq_some_iff distinct).2 ⟨root, member, claimed⟩

end Schema.Draft

namespace Schema

open Definition Draft

/-- An item of what the operations make can be selected exactly if it is not silent or its
parent falls back on it. The fallback needs no more numbers than the parent claims keys, and
only a component that can be selected ever gets its place. Each root of a schema can be
selected. -/
theorem reached_unless_silent (definition parent : Definition) (draft : Draft)
    (schema : Schema) :
    (definition.Made → Within parent definition →
      ∀ place item, Item parent place item →
        (Reached parent place item ↔ ¬item.Silent ∨ Fallback parent place item) ∧
        (Fallback parent place item → ∃ number ≤ (claimsAll parent.parts).length,
          parent.select (.universal number) = .ok (some ⟨place, item⟩)) ∧
        ∀ tag index found, place = some index →
          parent.select tag = .ok (some ⟨some index, found⟩) → Reached parent place item) ∧
    (Drafted draft → draft.build = .ok schema →
      (∀ type ∈ schema.types, type.Made) ∧
      ∀ root ∈ schema.roots, root.Made ∧
        ∃ tag found, schema.root? tag = some found ∧ root.StandsFor found) := by
  constructor
  · intro made within place item member
    have made' := made.within within
    refine ⟨reached_iff made' member, reached_of_fallback made', ?_⟩
    rintro tag index found rfl selected
    exact reached_of_place made' member selected
  · intro drafted built
    have listed := roots_of_build (rooted_of_build built) built
    refine ⟨types_of_build built ▸ drafted.made.1, fun root member => ⟨?_, ?_⟩⟩
    · exact drafted.made_listed root (listed ▸ member)
    · exact drafted.root_reached built member

/-- A record with a choice of any content alone, two components of any content and a set whose
elements have no tag is accepted. That choice, its alternative, the second of the two and the
elements cannot be selected; and as a root the choice is refused. -/
theorem reached_unless_silent_of_message :
    let number : Definition := .scalar ⟨"id", some .integer, false⟩ .integer
    let body : Definition := .any ⟨"body", none, false⟩ "id"
    let pick : Definition := .choice ⟨"pick", none, false⟩ [body]
    let one : Definition := .any ⟨"one", none, false⟩ "id"
    let two : Definition := .any ⟨"two", none, false⟩ "id"
    let entry : Definition := .scalar ⟨"entry", none, false⟩ .choice
    let list : Definition := .collection ⟨"list", some .set, false⟩ .set entry
    let message : Definition :=
      .record ⟨"message", some .sequence, false⟩ .sequence [number, pick, one, two, list]
    let draft := (Draft.empty .singleOctet).root message
    ofComponents "message" .sequence [number, pick, one, two, list] = .ok message ∧
    (∃ schema, draft.build = .ok schema ∧ schema.roots = [message] ∧
      ∃ tag found, schema.root? tag = some found ∧ message.StandsFor found) ∧
    (Reached message (some 0) number ∧ ¬Reached message (some 1) pick ∧ ¬Reached pick none body) ∧
    (Reached message (some 2) one ∧ message.select .boolean = .ok (some ⟨some 2, one⟩) ∧
      ¬Reached message (some 3) two) ∧
    (Reached message (some 4) list ∧ ¬Reached list none entry) ∧
    ((Draft.empty .singleOctet).root pick).build = .error (.missingTag "pick") := by
  intro number body pick one two entry list message draft
  have body_silent : body.Silent := .untagged rfl rfl
  have pick_silent : pick.Silent := .choice rfl (by simp [body_silent])
  have two_silent : two.Silent := .untagged rfl rfl
  have entry_silent : entry.Silent := .untagged rfl rfl
  have pick_made : pick.Made :=
    @Made.ofAlternatives "pick" [body] _ (List.forall_mem_singleton.2 (.ofAny "body" "id")) rfl
  have list_made : list.Made := .ofElement "list" .set (.ofScalar "entry" .choice)
  have each : ∀ component ∈ [number, pick, one, two, list], component.Made := by
    simp only [List.forall_mem_cons]
    exact ⟨.ofScalar "id" .integer, pick_made, .ofAny "one" "id", .ofAny "two" "id", list_made,
      List.forall_mem_nil _⟩
  have accepted :
      ofComponents "message" .sequence [number, pick, one, two, list] = .ok message := rfl
  have made : message.Made := .ofComponents each accepted
  have drafted : Drafted draft := .root made (.empty .singleOctet)
  obtain ⟨schema, built, roots⟩ : ∃ schema, draft.build = .ok schema ∧ schema.roots = [message] :=
    ⟨_, rfl, rfl⟩
  have items := fun parent => (reached_unless_silent parent parent draft schema).1
  have of_message := items message made (.refl message)
  refine ⟨accepted, ?_, ⟨?_, ?_, ?_⟩, ⟨?_, ?_, ?_⟩, ⟨?_, ?_⟩, rfl⟩
  · have selectable := ((reached_unless_silent message message draft schema).2 drafted built).2
    exact ⟨schema, built, roots, (selectable message (roots ▸ .head _)).2⟩
  · refine (of_message _ _ (.component rfl)).1.2 (.inl ?_)
    exact claiming_iff_not_silent.1 ⟨_, _, .own rfl rfl⟩
  · intro selected
    rcases (of_message _ _ (.component rfl)).1.1 selected with loud | fallback
    · exact loud pick_silent
    · cases fallback.any
  · intro selected
    rcases (items pick pick_made (.refl pick) _ _ (.alternative (.head _))).1.1 selected with
      loud | fallback
    · exact loud body_silent
    · exact not_fallback_choice fallback
  · refine (of_message _ _ (.component rfl)).1.2 (.inr (.component rfl rfl ?_))
    intro earlier below other stands
    obtain rfl | rfl : earlier = 0 ∨ earlier = 1 := by omega
    all_goals
      cases stands
      rfl
  · rfl
  · intro selected
    rcases (of_message _ _ (.component rfl)).1.1 selected with loud | fallback
    · exact loud two_silent
    · cases fallback.first 2 (by decide) one rfl
  · refine (of_message _ _ (.component rfl)).1.2 (.inl ?_)
    exact claiming_iff_not_silent.1 ⟨_, _, .own rfl rfl⟩
  · intro selected
    rcases (items list list_made (.refl list) _ _ (.element ..)).1.1 selected with loud | fallback
    · exact loud entry_silent
    · cases fallback.any

end Schema

end BerRecords
