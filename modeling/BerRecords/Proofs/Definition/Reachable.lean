import BerRecords.Proofs.Definition.Lookup
import Mathlib.Data.List.Perm.Subperm

/-!
# Which items can be selected

A look-up selects an item by a key that it claims, or as what takes the keys that no item
claims. An item that claims no key and is no fallback stands in its definition in vain.
-/

set_option autoImplicit false

namespace BerRecords.Definition

variable {key : Tag.Key} {tag : Tag} {name : String} {head : Head} {grouping : Grouping}
  {item definition parent inner found target element : Definition} {items : List Definition}
  {place : Option Nat}

/-! ## The parts of a definition -/

def parts : Definition → List Definition
  | record _ _ components => components
  | collection _ _ element => [element]
  | choice _ alternatives => alternatives
  | scalar .. | any .. => []

/-- A definition, or one inside it at any depth. -/
inductive Within : Definition → Definition → Prop where
  | refl (definition : Definition) : Within definition definition
  | part {inner item definition : Definition} : item ∈ definition.parts → Within inner item →
      Within inner definition

inductive Item : Definition → Option Nat → Definition → Prop where
  | component {head : Head} {grouping : Grouping} {components : List Definition} {place : Nat}
      {component : Definition} : components[place]? = some component →
      Item (.record head grouping components) (some place) component
  | element (head : Head) (grouping : Grouping) (element : Definition) :
      Item (.collection head grouping element) none element
  | alternative {head : Head} {alternatives : List Definition} {alternative : Definition} :
      alternative ∈ alternatives → Item (.choice head alternatives) none alternative

/-- The item takes every key that no item of its parent claims. -/
inductive Fallback : Definition → Option Nat → Definition → Prop where
  | component {head : Head} {grouping : Grouping} {components : List Definition} {place : Nat}
      {component : Definition} : components[place]? = some component → component.isAny = true →
      (∀ earlier < place, ∀ other, components[earlier]? = some other → other.isAny = false) →
      Fallback (.record head grouping components) (some place) component
  | element (head : Head) (grouping : Grouping) {element : Definition} : element.isAny = true →
      Fallback (.collection head grouping element) none element

/-- What a definition stands for as an item: for itself, and if it is an untagged choice for
what its alternatives stand for. -/
inductive StandsFor : Definition → Definition → Prop where
  | itself (item : Definition) : StandsFor item item
  | alternative {head : Head} {alternatives : List Definition} {alternative target : Definition} :
      head.tag = none → alternative ∈ alternatives → StandsFor alternative target →
      StandsFor (.choice head alternatives) target

/-- Some tag makes the look-up in the parent select the item at its place, or one of its
alternatives if it is an untagged choice. -/
def Reached (parent : Definition) (place : Option Nat) (item : Definition) : Prop :=
  ∃ tag found, parent.select tag = .ok (some ⟨place, found⟩) ∧ StandsFor item found

def Claiming (item : Definition) : Prop :=
  ∃ key target, Claims key item target

/-- The item has no tag, and no alternatives that have one. -/
inductive Silent : Definition → Prop where
  | untagged {item : Definition} : item.tag? = none → item.isChoice = false → Silent item
  | choice {head : Head} {alternatives : List Definition} : head.tag = none →
      (∀ alternative ∈ alternatives, Silent alternative) → Silent (.choice head alternatives)

/-! ## Parts of what is made -/

theorem parts_withHead (head : Head) (definition : Definition) :
    (definition.withHead head).parts = definition.parts := by
  cases definition with
  | scalar | record | collection | choice | any => rfl

theorem Made.of_part (made : definition.Made) (member : item ∈ definition.parts) : item.Made := by
  induction made with
  | ofScalar | ofAny => cases member
  | ofComponents each accepted =>
      rw [eq_of_ofComponents accepted] at member
      exact each item member
  | ofElement _ _ made =>
      obtain rfl := List.mem_singleton.1 member
      exact made
  | ofAlternatives each accepted =>
      rw [(eq_of_ofAlternatives accepted).1] at member
      exact each item member
  | retagged | asOptional | renamed =>
      rename_i ih
      exact ih (parts_withHead _ _ ▸ member)

theorem Made.within (made : definition.Made) (within : Within inner definition) : inner.Made := by
  induction within with
  | refl => exact made
  | part member _ ih => exact ih (made.of_part member)

theorem Made.distinct_part (made : definition.Made) :
    ∀ item ∈ definition.parts, Distinct item.claims :=
  fun _ member => (made.of_part member).distinct

theorem passed_of_ofComponents (accepted : ofComponents name grouping items = .ok definition) :
    checkItems name [] items = .ok () := by
  rw [ofComponents_eq] at accepted
  cases passed : checkItems name [] items with
  | error => simp [passed, Except.map] at accepted
  | ok => rfl

/-- The parts of a definition claim no key twice. -/
theorem Made.distinct_parts (made : definition.Made) : Distinct (claimsAll definition.parts) := by
  induction made with
  | ofScalar | ofAny => exact .nil
  | ofComponents each accepted =>
      have distinct := fun item member => (each item member).distinct
      have passed := passed_of_ofComponents accepted
      rw [eq_of_ofComponents accepted]
      exact (apart_iff_distinct distinct).1 (apart_of_checkItems passed distinct)
  | @ofElement element _ _ made =>
      have single : claimsAll [element] = element.claims := List.append_nil _
      exact single ▸ made.distinct
  | ofAlternatives each accepted =>
      have distinct := fun item member => (each item member).distinct
      obtain ⟨rfl, passed⟩ := eq_of_ofAlternatives accepted
      exact (apart_iff_distinct distinct).1 (apart_of_checkItems passed distinct)
  | retagged | asOptional | renamed =>
      rename_i ih
      exact (parts_withHead _ _).symm ▸ ih

/-! ## Claims and what an item stands for -/

theorem Claims.standsFor (claimed : Claims key item target) : StandsFor item target := by
  induction claimed with
  | own => exact .itself _
  | alternative untagged member _ ih => exact .alternative untagged member ih

theorem Claims.tagged (claimed : Claims key item target) :
    ∃ tag, target.tag? = some tag ∧ tag.key = key := by
  induction claimed with
  | own tagged same => exact ⟨_, tagged, same⟩
  | alternative _ _ _ ih => exact ih

/-- An item claims whatever it stands for that has a tag. -/
theorem StandsFor.claims (stands : StandsFor item found) (tagged : found.tag? = some tag) :
    Claims tag.key item found := by
  induction stands with
  | itself => exact .own tagged rfl
  | alternative untagged member _ ih => exact .alternative untagged member (ih tagged)

theorem Silent.not_claims (silent : item.Silent) : ¬Claims key item target := by
  induction silent generalizing target with
  | untagged untagged plain =>
      intro claimed
      cases claimed with
      | own tagged => cases untagged.symm.trans tagged
      | alternative => cases plain
  | choice untagged _ ih =>
      intro claimed
      cases claimed with
      | own tagged => cases untagged.symm.trans tagged
      | alternative _ member claimed => exact ih _ member claimed

mutual

theorem silent_of_not_claiming {item : Definition} (idle : ¬Claiming item) : item.Silent := by
  cases tagged : item.tag? with
  | some tag => exact absurd ⟨tag.key, item, .own tagged rfl⟩ idle
  | none =>
      match item with
      | .choice head alternatives =>
          refine .choice tagged (silent_of_not_claiming_all fun alternative member claiming => ?_)
          obtain ⟨key, target, claimed⟩ := claiming
          exact idle ⟨key, target, .alternative tagged member claimed⟩
      | .scalar .. | .record .. | .collection .. | .any .. => exact .untagged tagged rfl

theorem silent_of_not_claiming_all {items : List Definition}
    (idle : ∀ item ∈ items, ¬Claiming item) : ∀ item ∈ items, item.Silent := by
  match items with
  | [] => exact List.forall_mem_nil _
  | item :: rest =>
      rw [List.forall_mem_cons] at idle
      exact List.forall_mem_cons.2
        ⟨silent_of_not_claiming idle.1, silent_of_not_claiming_all idle.2⟩

end

theorem claiming_iff_not_silent : Claiming item ↔ ¬item.Silent :=
  ⟨fun ⟨_, _, claimed⟩ silent => silent.not_claims claimed,
    fun loud => by_contra fun idle => loud (silent_of_not_claiming idle)⟩

/-- Some key is not in a table, and its number is no more than the length of the table. -/
theorem exists_number_unclaimed (items : List Definition) :
    ∃ number ≤ (claimsAll items).length, Unclaimed (Tag.universal number).key items := by
  by_contra! every
  let numbers := (claimsAll items).map (·.1.number)
  have among : List.range (numbers.length + 1) ⊆ numbers := by
    intro number member
    have few : number ≤ (claimsAll items).length := by
      simpa [numbers, Nat.lt_succ_iff] using member
    have claimed := every number few
    simp only [Unclaimed, not_forall, not_not] at claimed
    obtain ⟨item, inside, target, claimed⟩ := claimed
    exact List.mem_map.2 ⟨_, mem_claimsAll_iff.2 ⟨item, inside, claimed⟩, rfl⟩
  have short := (List.Nodup.subperm List.nodup_range among).length_le
  rw [List.length_range] at short
  exact absurd short (Nat.not_succ_le_self _)

/-! ## Reaching an item -/

theorem select_collection (tag : Tag) (head : Head) (grouping : Grouping) (element : Definition) :
    (collection head grouping element).select tag =
      .ok (((element.claim? tag).or (if element.isAny then some element else none)).map
        (⟨none, ·⟩)) :=
  rfl

/-- A claimed key selects the item at its place. -/
theorem reached_of_claims (made : parent.Made) (member : Item parent place item)
    (claimed : Claims tag.key item target) : parent.select tag = .ok (some ⟨place, target⟩) := by
  have distinct := made.distinct_parts
  have each := made.distinct_part
  cases member with
  | @component head grouping components place _ stands =>
      have selected := selects_components tag each
      have apart := (apart_iff_distinct each).2 distinct
      exact congrArg Except.ok (selected.unique each apart (.claimed stands claimed))
  | element =>
      have own := each item (List.mem_singleton_self _)
      rw [select_collection, (claim?_eq_some_iff own).2 claimed]
      rfl
  | @alternative head alternatives _ inside =>
      have chosen : claimAmong? tag alternatives = some target :=
        (claimAmong?_eq_some_iff distinct).2 ⟨item, inside, claimed⟩
      rw [select, chosen]
      rfl

/-- A key that no item claims selects the fallback. -/
theorem select_fallback (made : parent.Made) (fallback : Fallback parent place item)
    (unclaimed : Unclaimed tag.key parent.parts) :
    parent.select tag = .ok (some ⟨place, item⟩) := by
  have each := made.distinct_part
  cases fallback with
  | component stands any first =>
      have apart := (apart_iff_distinct each).2 made.distinct_parts
      have selected := selects_components tag each
      exact congrArg Except.ok (selected.unique each apart (.fallback unclaimed stands any first))
  | element _ _ any =>
      have own := List.mem_singleton_self item
      cases found : item.claim? tag with
      | some target =>
          exact absurd ((claim?_eq_some_iff (each item own)).1 found) (unclaimed item own target)
      | none => simp [select_collection, found, any]

/-- What a look-up selects is claimed by the item at that place, or is the fallback. -/
theorem claims_or_fallback_of_select (made : parent.Made)
    (selected : parent.select tag = .ok (some ⟨place, found⟩)) :
    (∃ item, Item parent place item ∧ Claims tag.key item found) ∨ Fallback parent place found := by
  have each := made.distinct_part
  cases parent with
  | scalar | any => cases selected
  | record head grouping components =>
      have selects : Selects tag.key components (some ⟨place, found⟩) :=
        Except.ok.inj selected ▸ selects_components tag each
      cases selects with
      | claimed stands claimed => exact .inl ⟨_, .component stands, claimed⟩
      | fallback _ stands any first => exact .inr (.component stands any first)
  | collection head grouping element =>
      rw [select_collection] at selected
      replace selected := Except.ok.inj selected
      cases claimed : element.claim? tag with
      | some target =>
          rw [claimed] at selected
          cases selected
          have own := each element (List.mem_singleton_self _)
          exact .inl ⟨element, .element .., (claim?_eq_some_iff own).1 claimed⟩
      | none =>
          rw [claimed, Option.none_or] at selected
          split at selected
          · rename_i any
            cases selected
            exact .inr (.element _ _ any)
          · cases selected
  | choice head alternatives =>
      rw [select] at selected
      replace selected := Except.ok.inj selected
      cases chosen : claimAmong? tag alternatives with
      | none => rw [chosen] at selected; cases selected
      | some target =>
          rw [chosen] at selected
          cases selected
          obtain ⟨item, inside, claimed⟩ := (claimAmong?_eq_some_iff made.distinct_parts).1 chosen
          exact .inl ⟨item, .alternative inside, claimed⟩

theorem Fallback.stands_at (fallback : Fallback parent place found)
    (member : Item parent place item) : found = item := by
  cases fallback with
  | component stands =>
      cases member with
      | component stands' => exact Option.some.inj (stands.symm.trans stands')
  | element =>
      cases member with
      | element => rfl

theorem Fallback.any (fallback : Fallback parent place item) : item.isAny = true := by
  cases fallback with
  | component _ any => exact any
  | element _ _ any => exact any

theorem Fallback.first {index : Nat}
    (fallback : Fallback (.record head grouping items) (some index) item) :
    ∀ earlier < index, ∀ other, items[earlier]? = some other → other.isAny = false := by
  cases fallback with
  | component _ _ first => exact first

/-- A choice falls back on nothing. -/
theorem not_fallback_choice : ¬Fallback (.choice head items) place item := nofun

/-- The fallback needs no more numbers than its parent claims keys. -/
theorem reached_of_fallback (made : parent.Made) (fallback : Fallback parent place item) :
    ∃ number ≤ (claimsAll parent.parts).length,
      parent.select (.universal number) = .ok (some ⟨place, item⟩) := by
  obtain ⟨number, few, unclaimed⟩ := exists_number_unclaimed parent.parts
  exact ⟨number, few, select_fallback made fallback unclaimed⟩

/-- An item can be selected exactly if it claims a key or is the fallback. -/
theorem reached_iff (made : parent.Made) (member : Item parent place item) :
    Reached parent place item ↔ ¬item.Silent ∨ Fallback parent place item := by
  rw [← claiming_iff_not_silent]
  constructor
  · rintro ⟨tag, found, selected, stands⟩
    rcases claims_or_fallback_of_select made selected with ⟨other, -, claimed⟩ | fallback
    · obtain ⟨own, tagged, -⟩ := claimed.tagged
      exact .inl ⟨own.key, found, stands.claims tagged⟩
    · obtain rfl := fallback.stands_at member
      exact .inr fallback
  · rintro (⟨key, target, claimed⟩ | fallback)
    · exact ⟨⟨key.tagClass, false, key.number⟩, target, reached_of_claims made member claimed,
        claimed.standsFor⟩
    · obtain ⟨number, -, selected⟩ := reached_of_fallback made fallback
      exact ⟨.universal number, item, selected, .itself item⟩

/-- Whatever is selected at the place of a component is that component or stands for it. -/
theorem reached_of_place {index : Nat} (made : parent.Made)
    (member : Item parent (some index) item)
    (selected : parent.select tag = .ok (some ⟨some index, found⟩)) :
    Reached parent (some index) item := by
  refine ⟨tag, found, selected, ?_⟩
  rcases claims_or_fallback_of_select made selected with ⟨other, member', claimed⟩ | fallback
  · cases member with
    | component stands =>
        cases member' with
        | component stands' =>
            obtain rfl := Option.some.inj (stands.symm.trans stands')
            exact claimed.standsFor
  · obtain rfl := fallback.stands_at member
    exact .itself _

end BerRecords.Definition
