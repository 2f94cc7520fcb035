import BerRecords.Definition

/-!
# Which keys a definition claims

An item claims the key of its tag, and an untagged choice the keys that its alternatives
claim. Both the table that a record is checked with and the search that answers a look-up
are about these claims.
-/

set_option autoImplicit false

namespace BerRecords.Definition

/-- The item claims the key for a definition: for itself under its own tag, and for whatever
an alternative claims it for if it is an untagged choice. -/
inductive Claims (key : Tag.Key) : Definition → Definition → Prop where
  | own {item : Definition} {tag : Tag} : item.tag? = some tag → tag.key = key →
      Claims key item item
  | alternative {head : Head} {alternatives : List Definition} {alternative target : Definition} :
      head.tag = none → alternative ∈ alternatives → Claims key alternative target →
      Claims key (.choice head alternatives) target

variable {key : Tag.Key} {tag : Tag} {head : Head} {item target target' : Definition}
  {items alternatives : List Definition}

/-! ## The table of claims -/

theorem claims_of_tag (tagged : item.tag? = some tag) : item.claims = [(tag.key, item)] := by
  cases item with
  | choice head alternatives =>
      replace tagged : head.tag = some tag := tagged
      rw [claims, tagged]
  | scalar head | record head | collection head | any head =>
      replace tagged : head.tag = some tag := tagged
      simp [claims, Definition.head, tagged]

theorem claims_choice (untagged : head.tag = none) :
    (choice head alternatives).claims = claimsAll alternatives := by
  rw [claims, untagged]

theorem claims_of_untagged (untagged : item.tag? = none) (plain : item.isChoice = false) :
    item.claims = [] := by
  cases item with
  | choice => cases plain
  | scalar head | record head | collection head | any head =>
      replace untagged : head.tag = none := untagged
      simp [claims, Definition.head, untagged]

theorem claimsAll_eq_flatMap (items : List Definition) :
    claimsAll items = items.flatMap claims := by
  induction items with
  | nil => rfl
  | cons item rest ih => rw [claimsAll, ih, List.flatMap_cons]

theorem mem_claims (claimed : Claims key item target) : (key, target) ∈ item.claims := by
  induction claimed with
  | own tagged same =>
      rw [claims_of_tag tagged, same]
      exact List.mem_singleton_self _
  | alternative untagged member _ ih =>
      rw [claims_choice untagged, claimsAll_eq_flatMap]
      exact List.mem_flatMap.2 ⟨_, member, ih⟩

mutual

theorem claims_of_mem {item : Definition} (member : (key, target) ∈ item.claims) :
    Claims key item target := by
  cases tagged : item.tag? with
  | some tag =>
      rw [claims_of_tag tagged, List.mem_singleton] at member
      cases member
      exact .own tagged rfl
  | none =>
      match item with
      | .choice head alternatives =>
          replace tagged : head.tag = none := tagged
          rw [claims_choice tagged] at member
          obtain ⟨alternative, inside, claimed⟩ := claims_of_mem_all member
          exact .alternative tagged inside claimed
      | .scalar head type | .record head grouping components | .collection head grouping element
      | .any head definedBy =>
          rw [claims_of_untagged tagged rfl] at member
          cases member

theorem claims_of_mem_all {items : List Definition} (member : (key, target) ∈ claimsAll items) :
    ∃ item ∈ items, Claims key item target := by
  match items with
  | [] => cases member
  | item :: rest =>
      rw [claimsAll, List.mem_append] at member
      rcases member with own | later
      · exact ⟨item, .head _, claims_of_mem own⟩
      · obtain ⟨other, inside, claimed⟩ := claims_of_mem_all later
        exact ⟨other, .tail _ inside, claimed⟩

end

theorem mem_claims_iff : (key, target) ∈ item.claims ↔ Claims key item target :=
  ⟨claims_of_mem, mem_claims⟩

theorem mem_claimsAll_iff :
    (key, target) ∈ claimsAll items ↔ ∃ item ∈ items, Claims key item target := by
  rw [claimsAll_eq_flatMap, List.mem_flatMap]
  simp only [mem_claims_iff]

/-! ## The search among claims -/

def firstClaim? (key : Tag.Key) (table : List (Tag.Key × Definition)) : Option Definition :=
  (table.find? (·.1 = key)).map (·.2)

theorem firstClaim?_append (key : Tag.Key) (front back : List (Tag.Key × Definition)) :
    firstClaim? key (front ++ back) = (firstClaim? key front).or (firstClaim? key back) := by
  rw [firstClaim?, List.find?_append]
  cases found : front.find? (·.1 = key) with
  | none => simp [firstClaim?, found]
  | some => simp [firstClaim?, found]

theorem claim?_of_tag {own : Tag} (tagged : item.tag? = some own) :
    item.claim? tag = if own.selects tag then some item else none := by
  cases item with
  | choice head alternatives =>
      replace tagged : head.tag = some own := tagged
      rw [claim?, tagged]
  | scalar head | record head | collection head | any head =>
      replace tagged : head.tag = some own := tagged
      simp [claim?, Definition.head, tagged]

mutual

/-- The search finds what the table of claims has first. -/
theorem claim?_eq_firstClaim? (tag : Tag) (item : Definition) :
    item.claim? tag = firstClaim? tag.key item.claims := by
  cases tagged : item.tag? with
  | some own =>
      rw [claim?_of_tag tagged, claims_of_tag tagged, firstClaim?, List.find?_singleton, Tag.selects]
      by_cases same : own.key = tag.key
      · simp [same]
      · simp [same]
  | none =>
      match item with
      | .choice head alternatives =>
          replace tagged : head.tag = none := tagged
          rw [claim?, tagged, claims_choice tagged]
          exact claimAmong?_eq_firstClaim? tag alternatives
      | .scalar head type | .record head grouping components | .collection head grouping element
      | .any head definedBy =>
          rw [claims_of_untagged tagged rfl]
          replace tagged : head.tag = none := tagged
          simp [claim?, Definition.head, tagged, firstClaim?]

theorem claimAmong?_eq_firstClaim? (tag : Tag) (items : List Definition) :
    claimAmong? tag items = firstClaim? tag.key (claimsAll items) := by
  match items with
  | [] => rfl
  | item :: rest =>
      rw [claimAmong?, claimsAll, firstClaim?_append, claim?_eq_firstClaim? tag item,
        claimAmong?_eq_firstClaim? tag rest]
      cases firstClaim? tag.key item.claims with
      | none => rfl
      | some => rfl

end

theorem claimingComponent?_congr {tag tag' : Tag} (same : tag.key = tag'.key) (place : Nat)
    (items : List Definition) :
    claimingComponent? tag place items = claimingComponent? tag' place items := by
  induction items generalizing place with
  | nil => rfl
  | cons item rest ih =>
      rw [claimingComponent?, claimingComponent?, claim?_eq_firstClaim?, claim?_eq_firstClaim?, same,
        ih]

/-- What a tag selects depends on its class and number only. -/
theorem select_congr {tag tag' : Tag} (same : tag.key = tag'.key) (definition : Definition) :
    definition.select tag = definition.select tag' := by
  cases definition with
  | scalar | any => rfl
  | record => rw [select, select, claimingComponent?_congr same]
  | collection => rw [select, select, claim?_eq_firstClaim?, claim?_eq_firstClaim?, same]
  | choice => rw [select, select, claimAmong?_eq_firstClaim?, claimAmong?_eq_firstClaim?, same]

/-! ## Claims without clashes -/

def Distinct (table : List (Tag.Key × Definition)) : Prop :=
  (table.map (·.1)).Nodup

theorem firstClaim?_eq_some_iff {table : List (Tag.Key × Definition)} (distinct : Distinct table) :
    firstClaim? key table = some target ↔ (key, target) ∈ table := by
  induction table with
  | nil => simp [firstClaim?]
  | cons entry rest ih =>
      rw [Distinct, List.map_cons, List.nodup_cons] at distinct
      obtain ⟨own, found⟩ := entry
      by_cases same : own = key
      · subst same
        -- The key stands nowhere else.
        have absent : (own, target) ∉ rest := fun later =>
          distinct.1 (List.mem_map.2 ⟨_, later, rfl⟩)
        simp [firstClaim?, absent, eq_comm]
      · have later := ih distinct.2
        have skipped : firstClaim? key ((own, found) :: rest) = firstClaim? key rest := by
          simp [firstClaim?, same]
        rw [skipped, later]
        simp [Ne.symm same]

theorem claim?_eq_some_iff (distinct : Distinct item.claims) :
    item.claim? tag = some target ↔ Claims tag.key item target := by
  rw [claim?_eq_firstClaim?, firstClaim?_eq_some_iff distinct, mem_claims_iff]

theorem claimAmong?_eq_some_iff (distinct : Distinct (claimsAll items)) :
    claimAmong? tag items = some target ↔ ∃ item ∈ items, Claims tag.key item target := by
  rw [claimAmong?_eq_firstClaim?, firstClaim?_eq_some_iff distinct, mem_claimsAll_iff]

theorem Claims.unique (distinct : Distinct item.claims) (claimed : Claims key item target)
    (claimed' : Claims key item target') : target = target' := by
  have first := (firstClaim?_eq_some_iff distinct).2 (mem_claims claimed)
  have second := (firstClaim?_eq_some_iff distinct).2 (mem_claims claimed')
  exact Option.some.inj (first.symm.trans second)

/-- An item and one after it claim the key, each for a definition. -/
inductive Clash (key : Tag.Key) (first second : Definition) : List Definition → Prop where
  | here {item other : Definition} {rest : List Definition} : Claims key item first →
      other ∈ rest → Claims key other second → Clash key first second (item :: rest)
  | later {item : Definition} {rest : List Definition} : Clash key first second rest →
      Clash key first second (item :: rest)

def Apart (items : List Definition) : Prop :=
  ∀ key first second, ¬Clash key first second items

theorem Apart.rest {rest : List Definition} (apart : Apart (item :: rest)) : Apart rest :=
  fun key first second clash => apart key first second (.later clash)

theorem Clash.of_places {first second item' : Definition} {place place' : Nat}
    (before : place < place') (stands : items[place]? = some item)
    (stands' : items[place']? = some item') (claimed : Claims key item first)
    (claimed' : Claims key item' second) : Clash key first second items := by
  induction items generalizing place place' with
  | nil => cases stands
  | cons other rest ih =>
      obtain ⟨place', rfl⟩ : ∃ earlier, place' = earlier + 1 :=
        Nat.exists_eq_succ_of_ne_zero (Nat.ne_zero_of_lt before)
      rw [List.getElem?_cons_succ] at stands'
      cases place with
      | zero =>
          cases stands
          exact .here claimed (List.mem_of_getElem? stands') claimed'
      | succ place => exact .later (ih (Nat.lt_of_succ_lt_succ before) stands stands')

theorem apart_iff_distinct (each : ∀ item ∈ items, Distinct item.claims) :
    Apart items ↔ Distinct (claimsAll items) := by
  induction items with
  | nil => exact ⟨fun _ => .nil, fun _ _ _ _ clash => by cases clash⟩
  | cons item rest ih =>
      rw [List.forall_mem_cons] at each
      have split : Distinct (claimsAll (item :: rest)) ↔ Distinct item.claims ∧
          Distinct (claimsAll rest) ∧
          ∀ key first second, Claims key item first →
            ¬∃ other ∈ rest, Claims key other second := by
        rw [Distinct, claimsAll, List.map_append, List.nodup_append]
        refine and_congr_right fun _ => and_congr_right fun _ => ?_
        constructor
        · intro apart key first second claimed later
          exact apart key (List.mem_map_of_mem (mem_claims claimed)) key
            (List.mem_map_of_mem (mem_claimsAll_iff.2 later)) rfl
        · rintro apart key own _ later rfl
          obtain ⟨⟨_, first⟩, claimed, rfl⟩ := List.mem_map.1 own
          obtain ⟨⟨_, second⟩, claimed', same⟩ := List.mem_map.1 later
          dsimp only at same
          subst same
          exact apart _ first second (claims_of_mem claimed) (claims_of_mem_all claimed')
      rw [split, ← ih each.2]
      constructor
      · intro apart
        refine ⟨each.1, apart.rest, ?_⟩
        rintro key first second claimed ⟨other, member, claimed'⟩
        exact apart key first second (.here claimed member claimed')
      · rintro ⟨-, apart, none_shared⟩ key first second clash
        cases clash with
        | here claimed member claimed' =>
            exact none_shared key first second claimed ⟨_, member, claimed'⟩
        | later clash => exact apart key first second clash

end BerRecords.Definition
