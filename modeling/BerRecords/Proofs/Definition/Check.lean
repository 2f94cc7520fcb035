import BerRecords.Proofs.Definition.Claims
import BerRecords.Schema

/-!
# When items can stand together

Records, choices and schemas are made of items exactly when no two items claim one key. Since
all definitions are made in this way, an untagged choice claims no key twice.
-/

set_option autoImplicit false

namespace BerRecords

namespace Definition

variable {parent name : String} {grouping : Grouping} {key : Tag.Key} {head : Head}
  {item first second : Definition} {items : List Definition}
  {table seen : List (Tag.Key × Definition)}

def Selectable (item : Definition) : Prop :=
  item.tag? = none → item.isChoice = true ∨ item.isAny = true

inductive Made : Definition → Prop where
  | ofScalar (name : String) (type : DeclaredType) : Made (ofScalar name type)
  | ofComponents {name : String} {grouping : Grouping} {components : List Definition}
      {definition : Definition} : (∀ component ∈ components, Made component) →
      ofComponents name grouping components = .ok definition → Made definition
  | ofElement {element : Definition} (name : String) (grouping : Grouping) : Made element →
      Made (ofElement name grouping element)
  | ofAlternatives {name : String} {alternatives : List Definition} {definition : Definition} :
      (∀ alternative ∈ alternatives, Made alternative) →
      ofAlternatives name alternatives = .ok definition → Made definition
  | ofAny (name definedBy : String) : Made (ofAny name definedBy)
  | retagged {definition : Definition} (tag : Tag) : Made definition →
      Made (definition.retagged tag)
  | asOptional {definition : Definition} : Made definition → Made definition.asOptional
  | renamed {definition : Definition} (name : String) : Made definition →
      Made (definition.renamed name)

/-! ## The check -/

theorem itemClaims_of_selectable (selectable : item.Selectable) :
    item.itemClaims = .ok item.claims := by
  cases tagged : item.tag? with
  | some tag => simp [itemClaims, tagged]
  | none =>
      cases item with
      | choice | any => simp [itemClaims, tagged]
      | scalar | record | collection =>
          rcases selectable tagged with choice | any
          · cases choice
          · cases any

theorem selectable_of_itemClaims (listed : item.itemClaims = .ok table) : item.Selectable := by
  intro untagged
  cases item with
  | choice => exact .inl rfl
  | any => exact .inr rfl
  | scalar | record | collection =>
      simp [itemClaims, untagged] at listed

def duplicate (parent : String) (key : Tag.Key) (first second : Definition) : SchemaError :=
  .duplicateTag parent key first.name second.name

/-- A table without duplicates is added to the keys seen, or shares a key with them. -/
inductive Adds (parent : String) (seen table : List (Tag.Key × Definition)) :
    Except SchemaError (List (Tag.Key × Definition)) → Prop where
  | added : (∀ key first second, (key, first) ∈ seen → (key, second) ∉ table) →
      Adds parent seen table (.ok (table.reverse ++ seen))
  | refused {key : Tag.Key} {first second : Definition} : (key, first) ∈ seen →
      (key, second) ∈ table → Adds parent seen table (.error (duplicate parent key first second))

theorem adds_addClaims (parent : String) (seen : List (Tag.Key × Definition))
    (distinct : Distinct table) : Adds parent seen table (addClaims parent seen table) := by
  induction table generalizing seen with
  | nil => exact .added (fun _ _ _ _ => List.not_mem_nil)
  | cons entry rest ih =>
      obtain ⟨key, second⟩ := entry
      rw [Distinct, List.map_cons, List.nodup_cons] at distinct
      rw [addClaims]
      split
      · rename_i other first found
        obtain rfl : other = key := by simpa using List.find?_some found
        exact .refused (List.mem_of_find?_eq_some found) (.head _)
      · rename_i fresh
        have added := ih ((key, second) :: seen) distinct.2
        generalize addClaims parent ((key, second) :: seen) rest = result at added
        cases added with
        | added apart =>
            have moved : rest.reverse ++ (key, second) :: seen =
                ((key, second) :: rest).reverse ++ seen := by
              rw [List.reverse_cons, List.append_assoc, List.singleton_append]
            rw [moved]
            refine .added ?_
            intro other first second' before later
            rcases List.mem_cons.1 later with same | later
            · cases same
              simpa using List.find?_eq_none.1 fresh _ before
            · exact apart other first second' (.tail _ before) later
        | refused before later =>
            rcases List.mem_cons.1 before with same | before
            · cases same
              exact absurd (List.mem_map.2 ⟨_, later, rfl⟩) distinct.1
            · exact .refused before (.tail _ later)

/-- Items can stand together with those whose keys were seen, or two claim one key. -/
inductive Checks (parent : String) (seen : List (Tag.Key × Definition)) (items : List Definition) :
    Except SchemaError Unit → Prop where
  | passed : Apart items →
      (∀ key first second, (key, first) ∈ seen → ∀ item ∈ items, ¬Claims key item second) →
      Checks parent seen items (.ok ())
  | among {key : Tag.Key} {first second : Definition} : Clash key first second items →
      Checks parent seen items (.error (duplicate parent key first second))
  | before {key : Tag.Key} {first second item : Definition} : (key, first) ∈ seen → item ∈ items →
      Claims key item second → Checks parent seen items (.error (duplicate parent key first second))

theorem checks_checkItems (parent : String) (seen : List (Tag.Key × Definition))
    (selectable : ∀ item ∈ items, item.Selectable) (each : ∀ item ∈ items, Distinct item.claims) :
    Checks parent seen items (checkItems parent seen items) := by
  induction items generalizing seen with
  | nil => exact .passed (fun _ _ _ clash => by cases clash) (by simp)
  | cons item rest ih =>
      rw [List.forall_mem_cons] at selectable each
      rw [checkItems, itemClaims_of_selectable selectable.1]
      have adds := adds_addClaims parent seen each.1
      simp only [bind, Except.bind]
      generalize addClaims parent seen item.claims = added at adds
      cases adds with
      | refused before member => exact .before before (.head _) (claims_of_mem member)
      | added apart =>
          have checked := ih (item.claims.reverse ++ seen) selectable.2 each.2
          dsimp only
          generalize checkItems parent (item.claims.reverse ++ seen) rest = result at checked
          cases checked with
          | among clash => exact .among clash.later
          | before known member claimed =>
              rcases List.mem_append.1 known with own | known
              · exact .among (.here (claims_of_mem (List.mem_reverse.1 own)) member claimed)
              · exact .before known (.tail _ member) claimed
          | passed apart' fresh =>
              refine .passed ?_ ?_
              · intro key first second clash
                cases clash with
                | here claimed member claimed' =>
                    refine fresh key first second ?_ _ member claimed'
                    exact List.mem_append_left _ (List.mem_reverse.2 (mem_claims claimed))
                | later clash => exact apart' key first second clash
              · intro key first second known other member claimed
                rcases List.mem_cons.1 member with rfl | member
                · exact apart key first second known (mem_claims claimed)
                · exact fresh key first second (List.mem_append_right _ known) other member claimed

/-! ## What is made claims no key twice -/

theorem tag?_withHead (head : Head) (item : Definition) : (item.withHead head).tag? = head.tag := by
  cases item with
  | scalar | record | collection | choice | any => rfl

theorem distinct_of_tag {tag : Tag} (tagged : item.tag? = some tag) : Distinct item.claims := by
  rw [claims_of_tag tagged]
  exact List.pairwise_singleton _ _

theorem distinct_withHead (distinct : Distinct item.claims) (same : head.tag = item.tag?) :
    Distinct (item.withHead head).claims := by
  cases tagged : item.tag? with
  | some tag => exact distinct_of_tag ((tag?_withHead head item).trans (same.trans tagged))
  | none =>
      cases item with
      | choice own alternatives =>
          replace tagged : own.tag = none := tagged
          rw [claims_choice tagged] at distinct
          rw [withHead, claims_choice (same.trans tagged)]
          exact distinct
      | scalar | record | collection | any =>
          rw [claims_of_untagged ((tag?_withHead head _).trans (same.trans tagged)) rfl]
          exact .nil

theorem selectable_of_checkItems {seen : List (Tag.Key × Definition)}
    (passed : checkItems parent seen items = .ok ()) : ∀ item ∈ items, item.Selectable := by
  induction items generalizing seen with
  | nil => exact fun _ member => by cases member
  | cons item rest ih =>
      rw [checkItems] at passed
      simp only [bind, Except.bind] at passed
      split at passed
      · cases passed
      · rename_i table listed
        split at passed
        · cases passed
        · exact List.forall_mem_cons.2 ⟨selectable_of_itemClaims listed, ih passed⟩

theorem apart_of_checkItems (passed : checkItems parent [] items = .ok ())
    (each : ∀ item ∈ items, Distinct item.claims) : Apart items := by
  have checked := checks_checkItems parent [] (selectable_of_checkItems passed) each
  rw [passed] at checked
  cases checked with
  | passed apart => exact apart

theorem ofComponents_eq (name : String) (grouping : Grouping) (items : List Definition) :
    ofComponents name grouping items =
      (checkItems name [] items).map fun _ =>
        record ⟨name, some grouping.tag, false⟩ grouping items := by
  rw [ofComponents]
  cases checkItems name [] items with
  | error => rfl
  | ok => rfl

theorem ofAlternatives_eq (name : String) (items : List Definition) :
    ofAlternatives name items =
      (checkItems name [] items).map fun _ => choice ⟨name, none, false⟩ items := by
  rw [ofAlternatives]
  cases checkItems name [] items with
  | error => rfl
  | ok => rfl

theorem eq_of_ofComponents (accepted : ofComponents name grouping items = .ok item) :
    item = record ⟨name, some grouping.tag, false⟩ grouping items := by
  rw [ofComponents_eq] at accepted
  cases passed : checkItems name [] items with
  | error => simp [passed, Except.map] at accepted
  | ok =>
      rw [passed] at accepted
      exact (Except.ok.inj accepted).symm

theorem eq_of_ofAlternatives (accepted : ofAlternatives name items = .ok item) :
    item = choice ⟨name, none, false⟩ items ∧ checkItems name [] items = .ok () := by
  rw [ofAlternatives_eq] at accepted
  cases passed : checkItems name [] items with
  | error => simp [passed, Except.map] at accepted
  | ok =>
      rw [passed] at accepted
      exact ⟨(Except.ok.inj accepted).symm, rfl⟩

theorem Made.distinct (made : item.Made) : Distinct item.claims := by
  induction made with
  | ofScalar name type =>
      cases tagged : (Definition.ofScalar name type).tag? with
      | some tag => exact distinct_of_tag tagged
      | none =>
          rw [claims_of_untagged tagged rfl]
          exact .nil
  | ofComponents _ accepted =>
      rw [eq_of_ofComponents accepted]
      exact distinct_of_tag rfl
  | ofElement => exact distinct_of_tag rfl
  | ofAlternatives _ accepted ih =>
      obtain ⟨rfl, passed⟩ := eq_of_ofAlternatives accepted
      rw [claims_choice rfl]
      exact (apart_iff_distinct ih).1 (apart_of_checkItems passed ih)
  | ofAny =>
      rw [claims_of_untagged rfl rfl]
      exact .nil
  | retagged tag => exact distinct_of_tag (tag?_withHead _ _)
  | asOptional _ ih => exact distinct_withHead ih rfl
  | renamed _ _ ih => exact distinct_withHead ih rfl

end Definition

end BerRecords
