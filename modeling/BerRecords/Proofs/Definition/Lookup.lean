import BerRecords.Proofs.Definition.Check
import Mathlib.Data.List.Find

/-!
# What a tag selects

Among items that no tag confuses a look-up finds the one definition that is claimed for the
key of the tag. A record falls back on its first component of any content. The order of the
items does not matter for what is found.
-/

set_option autoImplicit false

namespace BerRecords.Definition

variable {key : Tag.Key} {tag : Tag} {name : String} {grouping : Grouping} {item : Definition}
  {items items' : List Definition} {place : Nat}

def Unclaimed (key : Tag.Key) (items : List Definition) : Prop :=
  ∀ item ∈ items, ∀ target, ¬Claims key item target

/-- What a key selects among the alternatives of a choice or the roots of a schema. -/
inductive Chooses (key : Tag.Key) (items : List Definition) : Option Definition → Prop where
  | claimed {item target : Definition} : item ∈ items → Claims key item target →
      Chooses key items (some target)
  | nothing : Unclaimed key items → Chooses key items none

/-- What a key selects among the components of a record. -/
inductive Selects (key : Tag.Key) (items : List Definition) : Option Selection → Prop where
  | claimed {place : Nat} {item target : Definition} : items[place]? = some item →
      Claims key item target → Selects key items (some ⟨some place, target⟩)
  | fallback {place : Nat} {item : Definition} : Unclaimed key items → items[place]? = some item →
      item.isAny = true →
      (∀ earlier < place, ∀ other, items[earlier]? = some other → other.isAny = false) →
      Selects key items (some ⟨some place, item⟩)
  | nothing : Unclaimed key items → (∀ item ∈ items, item.isAny = false) → Selects key items none

/-! ## The specification has one answer -/

theorem Chooses.unique (distinct : Distinct (claimsAll items)) {found? found?' : Option Definition}
    (chosen : Chooses key items found?) (chosen' : Chooses key items found?') : found? = found?' := by
  have single {item item' target target' : Definition} (member : item ∈ items)
      (member' : item' ∈ items) (claimed : Claims key item target)
      (claimed' : Claims key item' target') : target = target' := by
    have first := (firstClaim?_eq_some_iff distinct).2 (mem_claimsAll_iff.2 ⟨item, member, claimed⟩)
    have second :=
      (firstClaim?_eq_some_iff distinct).2 (mem_claimsAll_iff.2 ⟨item', member', claimed'⟩)
    exact Option.some.inj (first.symm.trans second)
  cases chosen with
  | claimed member claimed =>
      cases chosen' with
      | claimed member' claimed' => rw [single member member' claimed claimed']
      | nothing unclaimed => exact absurd claimed (unclaimed _ member _)
  | nothing unclaimed =>
      cases chosen' with
      | claimed member claimed => exact absurd claimed (unclaimed _ member _)
      | nothing => rfl

/-- Items without clashes claim a key at one place. -/
theorem Apart.place_unique (apart : Apart items) {place' : Nat} {item' target target' : Definition}
    (stands : items[place]? = some item) (stands' : items[place']? = some item')
    (claimed : Claims key item target) (claimed' : Claims key item' target') : place = place' := by
  rcases Nat.lt_trichotomy place place' with before | same | after
  · exact absurd (Clash.of_places before stands stands' claimed claimed') (apart _ _ _)
  · exact same
  · exact absurd (Clash.of_places after stands' stands claimed' claimed) (apart _ _ _)

theorem Selects.unique (each : ∀ item ∈ items, Distinct item.claims) (apart : Apart items)
    {selection? selection?' : Option Selection} (selected : Selects key items selection?)
    (selected' : Selects key items selection?') : selection? = selection?' := by
  cases selected with
  | claimed stands claimed =>
      have member := List.mem_of_getElem? stands
      cases selected' with
      | claimed stands' claimed' =>
          obtain rfl := apart.place_unique stands stands' claimed claimed'
          cases stands.symm.trans stands'
          rw [claimed.unique (each _ member) claimed']
      | fallback unclaimed | nothing unclaimed => exact absurd claimed (unclaimed _ member _)
  | @fallback place _ unclaimed stands any before =>
      cases selected' with
      | claimed stands' claimed => exact absurd claimed (unclaimed _ (List.mem_of_getElem? stands') _)
      | @fallback place' _ _ stands' any' before' =>
          rcases Nat.lt_trichotomy place place' with earlier | rfl | later
          · cases any.symm.trans (before' place earlier _ stands)
          · cases stands.symm.trans stands'
            rfl
          · cases any'.symm.trans (before place' later _ stands')
      | nothing _ plain => cases any.symm.trans (plain _ (List.mem_of_getElem? stands))
  | nothing unclaimed plain =>
      cases selected' with
      | claimed stands claimed => exact absurd claimed (unclaimed _ (List.mem_of_getElem? stands) _)
      | fallback _ stands any => cases any.symm.trans (plain _ (List.mem_of_getElem? stands))
      | nothing => rfl

/-! ## The searches meet it -/

theorem chooses_claimAmong? (tag : Tag) (distinct : Distinct (claimsAll items)) :
    Chooses tag.key items (claimAmong? tag items) := by
  cases found : claimAmong? tag items with
  | some target =>
      obtain ⟨item, member, claimed⟩ := (claimAmong?_eq_some_iff distinct).1 found
      exact .claimed member claimed
  | none =>
      refine .nothing fun item member target claimed => ?_
      have found' := (claimAmong?_eq_some_iff distinct).2 ⟨item, member, claimed⟩
      cases found.symm.trans found'

theorem claimingComponent?_eq_some (each : ∀ item ∈ items, Distinct item.claims)
    {selection : Selection} (found : claimingComponent? tag place items = some selection) :
    ∃ index item, items[index]? = some item ∧ selection.place = some (place + index) ∧
      Claims tag.key item selection.definition := by
  induction items generalizing place with
  | nil => cases found
  | cons item rest ih =>
      rw [List.forall_mem_cons] at each
      rw [claimingComponent?] at found
      split at found
      · rename_i target claimed
        cases found
        exact ⟨0, item, rfl, rfl, (claim?_eq_some_iff each.1).1 claimed⟩
      · obtain ⟨index, other, stands, placed, claimed⟩ := ih each.2 found
        refine ⟨index + 1, other, stands, ?_, claimed⟩
        rw [placed, Nat.add_assoc, Nat.add_comm 1]

theorem unclaimed_of_claimingComponent? (each : ∀ item ∈ items, Distinct item.claims)
    (absent : claimingComponent? tag place items = none) : Unclaimed tag.key items := by
  induction items generalizing place with
  | nil => exact fun _ member => by cases member
  | cons item rest ih =>
      rw [List.forall_mem_cons] at each
      rw [claimingComponent?] at absent
      split at absent
      · cases absent
      · rename_i unclaimed
        refine List.forall_mem_cons.2 ⟨fun target claimed => ?_, ih each.2 absent⟩
        cases unclaimed.symm.trans ((claim?_eq_some_iff each.1).2 claimed)

theorem anyComponent?_eq_some {selection : Selection}
    (found : anyComponent? place items = some selection) :
    ∃ index, items[index]? = some selection.definition ∧ selection.place = some (place + index) ∧
      selection.definition.isAny = true ∧
      ∀ earlier < index, ∀ other, items[earlier]? = some other → other.isAny = false := by
  induction items generalizing place with
  | nil => cases found
  | cons item rest ih =>
      rw [anyComponent?] at found
      split at found
      · rename_i any
        cases found
        exact ⟨0, rfl, rfl, any, fun _ below => absurd below (Nat.not_lt_zero _)⟩
      · rename_i plain
        obtain ⟨index, stands, placed, any, before⟩ := ih found
        refine ⟨index + 1, stands, ?_, any, ?_⟩
        · rw [placed, Nat.add_assoc, Nat.add_comm 1]
        · intro earlier below other stands'
          cases earlier with
          | zero =>
              cases stands'
              exact Bool.not_eq_true _ ▸ plain
          | succ earlier => exact before earlier (Nat.lt_of_succ_lt_succ below) other stands'

theorem plain_of_anyComponent? (absent : anyComponent? place items = none) :
    ∀ item ∈ items, item.isAny = false := by
  induction items generalizing place with
  | nil => exact fun _ member => by cases member
  | cons item rest ih =>
      rw [anyComponent?] at absent
      split at absent
      · cases absent
      · rename_i plain
        exact List.forall_mem_cons.2 ⟨Bool.not_eq_true _ ▸ plain, ih absent⟩

theorem selects_components (tag : Tag) (each : ∀ item ∈ items, Distinct item.claims) :
    Selects tag.key items ((claimingComponent? tag 0 items).or (anyComponent? 0 items)) := by
  cases found : claimingComponent? tag 0 items with
  | some selection =>
      obtain ⟨index, item, stands, placed, claimed⟩ := claimingComponent?_eq_some each found
      obtain ⟨place, target⟩ := selection
      rw [Nat.zero_add] at placed
      subst placed
      exact .claimed stands claimed
  | none =>
      have unclaimed := unclaimed_of_claimingComponent? each found
      rw [Option.none_or]
      cases any : anyComponent? 0 items with
      | some selection =>
          obtain ⟨index, stands, placed, any, before⟩ := anyComponent?_eq_some any
          obtain ⟨place, item⟩ := selection
          rw [Nat.zero_add] at placed
          subst placed
          exact .fallback unclaimed stands any before
      | none => exact .nothing unclaimed (plain_of_anyComponent? any)

/-! ## Order does not matter -/

theorem Apart.perm (each : ∀ item ∈ items, Distinct item.claims) (perm : items.Perm items')
    (apart : Apart items) : Apart items' := by
  have each' : ∀ item ∈ items', Distinct item.claims :=
    fun item member => each item (perm.mem_iff.2 member)
  rw [apart_iff_distinct each, claimsAll_eq_flatMap] at apart
  rw [apart_iff_distinct each', claimsAll_eq_flatMap]
  exact ((perm.flatMap_right claims).map _).nodup_iff.1 apart

theorem claimAmong?_perm (distinct : Distinct (claimsAll items)) (perm : items.Perm items') :
    claimAmong? tag items = claimAmong? tag items' := by
  rw [claimAmong?_eq_firstClaim?, claimAmong?_eq_firstClaim?, claimsAll_eq_flatMap items']
  rw [claimsAll_eq_flatMap] at distinct ⊢
  refine congrArg (Option.map _) (List.find?_eq_find?_of_perm (perm.flatMap_right claims) ?_)
  rintro ⟨key, target⟩ ⟨member, same⟩ ⟨key', target'⟩ ⟨member', same'⟩
  obtain rfl : key = tag.key := by simpa using same
  obtain rfl : key' = tag.key := by simpa using same'
  have first := (firstClaim?_eq_some_iff distinct).2 member
  rw [(firstClaim?_eq_some_iff distinct).2 member'] at first
  rw [Option.some.inj first]

theorem find?_isAny_perm (few : items.countP (·.isAny) ≤ 1) (perm : items.Perm items') :
    items.find? (·.isAny) = items'.find? (·.isAny) := by
  refine List.find?_eq_find?_of_perm perm ?_
  rintro item ⟨member, any⟩ item' ⟨member', any'⟩
  have kept := List.mem_filter.2 ⟨member, any⟩
  have kept' := List.mem_filter.2 ⟨member', any'⟩
  rw [List.countP_eq_length_filter] at few
  generalize items.filter isAny = anys at few kept kept'
  match anys with
  | [] => cases kept
  | [single] => rw [List.mem_singleton.1 kept, List.mem_singleton.1 kept']
  | _ :: _ :: rest => exact absurd few (by simp)

theorem map_claimingComponent? (tag : Tag) (place : Nat) (items : List Definition) :
    (claimingComponent? tag place items).map (·.definition) = claimAmong? tag items := by
  induction items generalizing place with
  | nil => rfl
  | cons item rest ih =>
      rw [claimingComponent?, claimAmong?]
      cases item.claim? tag with
      | some => rfl
      | none => exact ih (place + 1)

theorem map_anyComponent? (place : Nat) (items : List Definition) :
    (anyComponent? place items).map (·.definition) = items.find? (·.isAny) := by
  induction items generalizing place with
  | nil => rfl
  | cons item rest ih =>
      rw [anyComponent?, List.find?_cons]
      cases item.isAny with
      | true => rfl
      | false => exact ih (place + 1)

theorem child?_record (tag : Tag) (head : Head) (grouping : Grouping) (items : List Definition) :
    (record head grouping items).child? tag =
      .ok ((claimAmong? tag items).or (items.find? (·.isAny))) := by
  rw [← map_claimingComponent? tag 0, ← map_anyComponent? 0]
  show Except.ok (Option.map _ (Option.or _ _)) = _
  cases claimingComponent? tag 0 items with
  | none => rfl
  | some => rfl

end BerRecords.Definition
