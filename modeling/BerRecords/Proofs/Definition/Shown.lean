import BerRecords.Proofs.Definition.Reachable
import Mathlib.Data.List.Nodup

/-!
# The names that show inside an element

Inside an element every child goes by the name of what it was selected as, and a component that is
missing by its own. If the names of all that can be selected differ, a name comes twice only if
something is selected twice, or if a choice without a tag is missing whose own name shows already.
-/

set_option autoImplicit false

namespace BerRecords.Definition

variable {key : Tag.Key} {tag : Tag} {head : Head} {grouping : Grouping}
  {item definition parent found : Definition} {items components : List Definition}
  {place : Nat} {selection other : Selection} {selected : List Selection}

mutual

/-- What shows of an item: itself, or if it is an untagged choice what shows of its alternatives. -/
def shown : Definition → List Definition
  | definition@(choice head alternatives) =>
    match head.tag with
    | some _ => [definition]
    | none => shownAll alternatives
  | definition => [definition]

def shownAll : List Definition → List Definition
  | [] => []
  | item :: rest => shown item ++ shownAll rest

end

/-- Inside the definition all names differ that can show in one element. -/
def TellsApart (definition : Definition) : Prop :=
  ∀ parent, Within parent definition → ((shownAll parent.parts).map name).Nodup

theorem shownAll_eq_flatMap (items : List Definition) : shownAll items = items.flatMap shown := by
  induction items with
  | nil => rfl
  | cons item rest ih => rw [shownAll, ih, List.flatMap_cons]

/-- Only an untagged choice does not show itself. -/
theorem shown_eq_self (apparent : ¬(item.isChoice = true ∧ item.tag? = none)) : item.shown = [item] := by
  cases item with
  | choice head alternatives =>
      cases tagged : head.tag with
      | some tag => rw [shown, tagged]
      | none => exact absurd ⟨rfl, tagged⟩ apparent
  | scalar | record | collection | any => rw [shown]; simp

theorem Claims.mem_shown (claimed : Claims key item found) : found ∈ item.shown := by
  induction claimed with
  | own tagged =>
      rw [shown_eq_self (by simp [tagged])]
      exact List.mem_singleton_self _
  | alternative untagged member _ ih =>
      rw [shown, untagged, shownAll_eq_flatMap]
      exact List.mem_flatMap.2 ⟨_, member, ih⟩

theorem Claims.within (claimed : Claims key item found) : Within found item := by
  induction claimed with
  | own => exact .refl _
  | alternative _ member _ ih => exact .part member ih

theorem claims_of_claim? (claimed : item.claim? tag = some found) : Claims tag.key item found := by
  rw [claim?_eq_firstClaim?, firstClaim?] at claimed
  obtain ⟨entry, found, rfl⟩ := Option.map_eq_some_iff.1 claimed
  obtain ⟨key, target⟩ := entry
  obtain rfl : key = tag.key := by simpa using List.find?_some found
  exact claims_of_mem (List.mem_of_find?_eq_some found)

theorem claims_of_claimingComponent? (claimed : claimingComponent? tag place components = some selection) :
    ∃ index component, components[index]? = some component ∧
      selection.place = some (place + index) ∧ Claims tag.key component selection.definition := by
  induction components generalizing place with
  | nil => cases claimed
  | cons component rest ih =>
      rw [claimingComponent?] at claimed
      split at claimed
      · rename_i found own
        cases claimed
        exact ⟨0, component, rfl, rfl, claims_of_claim? own⟩
      · obtain ⟨index, component, stands, placed, claims⟩ := ih claimed
        refine ⟨index + 1, component, stands, ?_, claims⟩
        rw [placed, Nat.add_assoc, Nat.add_comm 1]

theorem claims_of_claimAmong? (claimed : claimAmong? tag items = some found) :
    ∃ item ∈ items, Claims tag.key item found := by
  induction items with
  | nil => cases claimed
  | cons item rest ih =>
      rw [claimAmong?] at claimed
      split at claimed
      · rename_i own
        cases claimed
        exact ⟨item, List.mem_cons_self, claims_of_claim? own⟩
      · obtain ⟨other, member, claims⟩ := ih claimed
        exact ⟨other, List.mem_cons_of_mem _ member, claims⟩

theorem Within.trans (within : Within item parent) (within' : Within parent definition) :
    Within item definition := by
  induction within' with
  | refl => exact within
  | part member _ ih => exact .part member ih

/-- What is selected inside a definition is a part of it. -/
theorem within_of_select (chosen : parent.select tag = .ok (some selection)) :
    Within selection.definition parent := by
  cases parent with
  | scalar | any => cases chosen
  | record head grouping components =>
      simp only [select, Except.ok.injEq, Option.or_eq_some_iff] at chosen
      rcases chosen with claimed | ⟨-, anything⟩
      · obtain ⟨place, component, stands, -, claims⟩ := claims_of_claimingComponent? claimed
        exact .part (List.mem_of_getElem? stands) claims.within
      · obtain ⟨place, stands, -, -, -⟩ := anyComponent?_eq_some anything
        exact .part (List.mem_of_getElem? stands) (.refl _)
  | collection head grouping element =>
      simp only [select, Except.ok.injEq, Option.map_eq_some_iff, Option.or_eq_some_iff] at chosen
      obtain ⟨found, claimed | ⟨-, anything⟩, rfl⟩ := chosen
      · exact .part (List.mem_singleton_self _) (claims_of_claim? claimed).within
      · split at anything
        · cases anything
          exact .part (List.mem_singleton_self _) (.refl _)
        · cases anything
  | choice head alternatives =>
      simp only [select, Except.ok.injEq, Option.map_eq_some_iff] at chosen
      obtain ⟨found, claimed, rfl⟩ := chosen
      obtain ⟨alternative, member, claims⟩ := claims_of_claimAmong? claimed
      exact .part member claims.within

theorem TellsApart.within (apart : definition.TellsApart) (within : Within parent definition) :
    parent.TellsApart :=
  fun _ deeper => apart _ (deeper.trans within)

structure Picks (components : List Definition) (selection : Selection) (place : Nat)
    (component : Definition) : Prop where
  place_eq : selection.place = some place
  stands : components[place]? = some component
  shows : selection.definition ∈ component.shown

theorem picks_of_select (chosen : (record head grouping components).select tag = .ok (some selection)) :
    ∃ place component, Picks components selection place component := by
  simp only [select, Except.ok.injEq, Option.or_eq_some_iff] at chosen
  rcases chosen with claimed | ⟨-, anything⟩
  · obtain ⟨place, component, stands, placed, claims⟩ := claims_of_claimingComponent? claimed
    exact ⟨place, component, by rw [placed, Nat.zero_add], stands, claims.mem_shown⟩
  · obtain ⟨place, stands, placed, any, -⟩ := anyComponent?_eq_some anything
    refine ⟨place, selection.definition, by rw [placed, Nat.zero_add], stands, ?_⟩
    rw [shown_eq_self]
    · exact List.mem_singleton_self _
    · rintro ⟨choice, -⟩
      cases kind : selection.definition with
      | any => rw [kind] at choice; cases choice
      | scalar | record | collection | choice => rw [kind] at any; cases any

/-- What shows under one name is one selection. -/
theorem Picks.unique (apart : ((shownAll components).map name).Nodup) {place' : Nat}
    {component component' : Definition} (picks : Picks components selection place component)
    (picks' : Picks components other place' component')
    (same : selection.definition.name = other.definition.name) : selection = other := by
  have listed {selection : Selection} {place : Nat} {component : Definition}
      (picks : Picks components selection place component) :
      selection.definition ∈ shownAll components := by
    rw [shownAll_eq_flatMap]
    exact List.mem_flatMap.2 ⟨component, List.mem_of_getElem? picks.stands, picks.shows⟩
  have definition_eq := List.inj_on_of_nodup_map apart (listed picks) (listed picks') same
  -- One definition does not show at two places.
  have place_eq : place = place' := by
    rw [shownAll_eq_flatMap, List.map_flatMap, List.nodup_flatMap, List.pairwise_iff_getElem] at apart
    obtain ⟨below, stands⟩ := List.getElem?_eq_some_iff.1 picks.stands
    obtain ⟨below', stands'⟩ := List.getElem?_eq_some_iff.1 picks'.stands
    have shows : selection.definition.name ∈ component.shown.map name :=
      List.mem_map_of_mem picks.shows
    have shows' : selection.definition.name ∈ component'.shown.map name :=
      definition_eq ▸ List.mem_map_of_mem picks'.shows
    rcases Nat.lt_trichotomy place place' with before | same | behind
    · have disjoint : List.Disjoint (components[place].shown.map name) (components[place'].shown.map name) :=
        apart.2 place place' below below' before
      rw [stands, stands'] at disjoint
      exact absurd shows' (disjoint shows)
    · exact same
    · have disjoint : List.Disjoint (components[place'].shown.map name) (components[place].shown.map name) :=
        apart.2 place' place below' below behind
      rw [stands, stands'] at disjoint
      exact absurd shows (disjoint shows')
  obtain ⟨first, definition⟩ := selection
  obtain ⟨second, definition'⟩ := other
  obtain rfl : definition = definition' := definition_eq
  obtain rfl : first = some place := picks.place_eq
  obtain rfl : second = some place' := picks'.place_eq
  rw [place_eq]

/-- The components that must appear and were not selected, each at its place. -/
def lacking (definition : Definition) (selected : List Selection) : List Selection :=
  (definition.components?.getD []).zipIdx.filterMap fun (component, place) =>
    if selected.any (·.place = some place) || component.isOptional then none
    else some ⟨some place, component⟩

theorem mem_lacking (record : definition.components? = some components)
    (lacks : selection ∈ definition.lacking selected) :
    ∃ place, selection.place = some place ∧ components[place]? = some selection.definition ∧
      ∀ other ∈ selected, other.place ≠ some place := by
  rw [lacking, record, Option.getD_some, List.mem_filterMap] at lacks
  obtain ⟨⟨component, place⟩, member, kept⟩ := lacks
  simp only [Option.ite_none_left_eq_some, Option.some.injEq] at kept
  obtain ⟨unseen, rfl⟩ := kept
  simp only [Bool.or_eq_true, List.any_eq_true, decide_eq_true_eq, not_or, not_exists, not_and] at unseen
  exact ⟨place, rfl, List.mk_mem_zipIdx_iff_getElem?.1 member, unseen.1⟩

theorem nodup_lacking (definition : Definition) (selected : List Selection) :
    (definition.lacking selected).Nodup := by
  have places : (definition.components?.getD []).zipIdx.Nodup := by
    refine List.Nodup.of_map Prod.snd ?_
    rw [List.zipIdx_map_snd]
    exact List.nodup_range'
  refine places.filterMap ?_
  rintro ⟨component, place⟩ ⟨component', place'⟩ selection kept kept'
  simp only [Option.mem_def, Option.ite_none_left_eq_some, Option.some.injEq] at kept kept'
  obtain ⟨-, rfl⟩ := kept
  obtain ⟨-, same⟩ := kept'
  simp only [Selection.mk.injEq, Option.some.injEq] at same
  rw [same.1, same.2]

/-- All that shows inside an element: what its children were selected as, and if that is told
the components that are missing. -/
def members (mandatory : Bool) (definition : Definition) (selected : List Selection) :
    List Selection :=
  selected ++ if mandatory then definition.lacking selected else []

/-- Two members of a record go by one name: something was selected twice, or an untagged choice is
missing, which then goes by its own name, and another member has that. -/
inductive Confuses (mandatory : Bool) (definition : Definition) (selected : List Selection) : Prop where
  | twice {components : List Definition} : definition.components? = some components →
      ¬selected.Nodup → Confuses mandatory definition selected
  | missing {choice other : Selection} : mandatory = true → choice ∈ definition.lacking selected →
      choice.definition.isChoice = true → choice.definition.tag? = none →
      other ∈ definition.members mandatory selected → other ≠ choice →
      other.definition.name = choice.definition.name → Confuses mandatory definition selected

variable {mandatory : Bool}

theorem nodup_members (record : definition.components? = some components)
    (once : selected.Nodup) : (definition.members mandatory selected).Nodup := by
  rw [members]
  split
  · refine once.append (nodup_lacking definition selected) ?_
    intro selection chosen lacks
    obtain ⟨place, placed, -, unseen⟩ := mem_lacking record lacks
    exact unseen selection chosen placed
  · rwa [List.append_nil]

/-- Every member is a pick that shows its own name, or an untagged choice that is missing. -/
theorem member_cases
    (chosen : ∀ selection ∈ selected, ∃ tag,
      (record head grouping components).select tag = .ok (some selection))
    (member : selection ∈ (record head grouping components).members mandatory selected) :
    (∃ place component, Picks components selection place component) ∨
      mandatory = true ∧ selection ∈ (record head grouping components).lacking selected ∧
        selection.definition.isChoice = true ∧ selection.definition.tag? = none := by
  rw [members, List.mem_append] at member
  rcases member with selects | absent
  · obtain ⟨tag, selects⟩ := chosen selection selects
    exact .inl (picks_of_select selects)
  · split at absent
    · rename_i told
      by_cases hidden : selection.definition.isChoice = true ∧ selection.definition.tag? = none
      · exact .inr ⟨told, absent, hidden⟩
      · obtain ⟨place, placed, stands, -⟩ := mem_lacking rfl absent
        refine .inl ⟨place, selection.definition, placed, stands, ?_⟩
        rw [shown_eq_self hidden]
        exact List.mem_singleton_self _
    · cases absent

/-- The names of the members of a record differ unless they are confused. -/
theorem nodup_names_iff
    (apart : ((shownAll components).map name).Nodup)
    (chosen : ∀ selection ∈ selected, ∃ tag,
      (record head grouping components).select tag = .ok (some selection)) :
    (((record head grouping components).members mandatory selected).map
      (·.definition.name)).Nodup ↔
        ¬Confuses mandatory (record head grouping components) selected := by
  constructor
  · intro differ confuses
    cases confuses with
    | twice _ repeated =>
        have once := List.Nodup.of_map _ differ
        rw [members] at once
        exact repeated once.of_append_left
    | @missing choice other told lacks _ _ shows unlike same =>
        refine unlike (List.inj_on_of_nodup_map differ shows ?_ same)
        rw [members, if_pos told]
        exact List.mem_append_right _ lacks
  · intro clear
    have once : selected.Nodup := by
      by_contra repeated
      exact clear (.twice rfl repeated)
    have members_once := @nodup_members (record head grouping components) components selected
      mandatory rfl once
    refine members_once.map_on ?_
    intro selection member other member' same
    by_contra unlike
    rcases member_cases chosen member with ⟨place, component, picks⟩ | ⟨told, lacks, choice, untagged⟩
    · rcases member_cases chosen member' with ⟨place', component', picks'⟩ | ⟨told, lacks, choice, untagged⟩
      · exact unlike (picks.unique apart picks' same)
      · exact clear (.missing told lacks choice untagged member unlike same)
    · exact clear (.missing told lacks choice untagged member' (Ne.symm unlike) same.symm)

end BerRecords.Definition
