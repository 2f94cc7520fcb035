import BerRecords.Proofs.Walk.Resolution
import Mathlib.Logic.ExistsUnique

/-!
# What an account says of a single element

All that is told of places inside an element that the schema was asked for is known from
what the schema made of it. Every element of a record is such an element, or lies inside
one of which nothing is told but one thing.
-/

set_option autoImplicit false

namespace BerRecords

variable {encoding : TagEncoding}

namespace Account

/-- What a script tells about places inside an element. -/
def about (element : Element encoding) (place : Nat) (script : List Telling) : List Telling :=
  script.filter (·.place?.any (element.spans place))

def fields (script : List Telling) : List Field :=
  script.filterMap Telling.field?

def issues (script : List Telling) : List Issue :=
  script.filterMap Telling.issue?

theorem fields_cons (telling : Telling) (script : List Telling) :
    fields (telling :: script) = telling.field?.toList ++ fields script := by
  cases told : telling.field? with
  | none => exact List.filterMap_cons_none told
  | some field => exact List.filterMap_cons_some told

theorem issues_cons (telling : Telling) (script : List Telling) :
    issues (telling :: script) = telling.issue?.toList ++ issues script := by
  cases told : telling.issue? with
  | none => exact List.filterMap_cons_none told
  | some issue => exact List.filterMap_cons_some told

theorem fields_append (front back : List Telling) :
    fields (front ++ back) = fields front ++ fields back :=
  List.filterMap_append

theorem issues_append (front back : List Telling) :
    issues (front ++ back) = issues front ++ issues back :=
  List.filterMap_append

end Account

namespace Telling

theorem place?_of_field? {telling : Telling} {field : Field} (told : telling.field? = some field) :
    telling.place? = some field.offset := by
  cases telling with
  | issue => cases told
  | event event =>
      cases event with
      | field | missing =>
          cases told
          rfl
      | enter | leave => cases told

theorem place?_of_issue? {telling : Telling} {issue : Issue} (told : telling.issue? = some issue) :
    telling.place? = some issue.offset := by
  cases telling with
  | event => cases told
  | issue =>
      cases told
      rfl

end Telling

namespace Account

variable {element top inner : Element encoding} {place offset : Nat}
  {script front back : List Telling}
  {schema : Schema} {definition found : Definition} {mandatory : Bool}

theorem filter_filterMap {β γ : Type} (pick : β → Option γ) (place? : β → Option Nat)
    (offset : γ → Nat) (test : Nat → Bool)
    (placed : ∀ told picked, pick told = some picked → place? told = some (offset picked))
    (script : List β) :
    (script.filterMap pick).filter (fun picked => test (offset picked)) =
      (script.filter (fun told => (place? told).any test)).filterMap pick := by
  induction script with
  | nil => rfl
  | cons told script ih =>
      cases picked : pick told with
      | none =>
          rw [List.filterMap_cons_none picked, ih, List.filter_cons]
          split
          · rw [List.filterMap_cons_none picked]
          · rfl
      | some value =>
          rw [List.filterMap_cons_some picked, List.filter_cons, List.filter_cons, ih,
            placed told value picked, Option.any_some]
          split
          · rw [List.filterMap_cons_some picked]
          · rfl

theorem filter_fields (element : Element encoding) (place : Nat) (script : List Telling) :
    (fields script).filter (element.spans place ·.offset) =
      fields (about element place script) :=
  filter_filterMap _ _ _ _ (fun _ _ => Telling.place?_of_field?) script

theorem filter_issues (element : Element encoding) (place : Nat) (script : List Telling) :
    (issues script).filter (element.spans place ·.offset) =
      issues (about element place script) :=
  filter_filterMap _ _ _ _ (fun _ _ => Telling.place?_of_issue?) script

theorem about_append (front back : List Telling) :
    about element place (front ++ back) = about element place front ++ about element place back :=
  List.filter_append _ _

theorem Avoids.about (avoids : Avoids place (place + element.octets.length) script) :
    about element place script = [] := by
  rw [Account.about, List.filter_eq_nil_iff]
  intro telling member
  have apart := avoids telling member
  cases placed : telling.place? with
  | none => simp
  | some offset =>
      have apart := apart offset placed
      simp only [Option.any_some, Element.spans, Bool.and_eq_true, decide_eq_true_eq]
      omega

theorem Lies.about (lies : Lies place (place + element.octets.length) script) :
    about element place script = script.filter (·.place?.isSome) := by
  apply List.filter_congr
  intro telling member
  have inside := lies telling member
  cases placed : telling.place? with
  | none => rfl
  | some offset => simpa [Element.spans] using inside offset placed

theorem Accounts.lies {found : Option Definition}
    (accounts : Accounts mandatory element place found script) :
    Lies place (place + element.octets.length) script := by
  cases accounts with
  | found path definition => exact lies_ofElement mandatory element path definition place
  | leftOut path parent =>
      have positive := element.length_octets_pos
      exact (lies_leftOut path parent _).mono (Nat.le_refl _) (by simp only [Heading.header]; omega)

/-- All that the account of a record tells about places inside an element that the schema
was asked for. -/
theorem about_record (mandatory : Bool) {found : Option Definition}
    (root : schema.root? top.heading.tag = some definition)
    (resolves : Resolves schema top offset inner place found) :
    ∃ own, Accounts mandatory inner place found own ∧
      about inner place (ofElement mandatory "" definition offset top) =
        own.filter (·.place?.isSome) := by
  obtain ⟨front, own, back, whole, accounts, avoids, avoids'⟩ :=
    located mandatory root resolves
  refine ⟨own, accounts, ?_⟩
  rw [whole, about_append, about_append, avoids.about, avoids'.about, accounts.lies.about]
  simp

theorem ofElement_any (any : definition.isAny = true) (path : String) (offset : Nat)
    (element : Element encoding) :
    ofElement mandatory path definition offset element =
      valued (Walk.extendPath path definition.name) definition (element.heading.header offset)
        element.content ++ [.event .leave] := by
  have either := Definition.constructed?_eq_none_iff.2 any
  cases element with
  | leaf heading value => simp [ofElement, either, Element.heading, Element.content]
  | branch heading inside => simp [ofElement, either, any, Element.heading, Element.content]

theorem ofElement_misformed (formed : element.Formed) (misformed : element.Misformed definition)
    (path : String) (offset : Nat) :
    ofElement mandatory path definition offset element =
      replaced (Walk.extendPath path definition.name) definition (element.heading.header offset) ++
        [.event .leave] := by
  cases element with
  | leaf heading value =>
      rw [Element.Formed] at formed
      simp only [Element.Misformed, Element.heading, formed] at misformed
      simp [ofElement, misformed, Element.heading]
  | branch heading inside =>
      rw [Element.Formed] at formed
      simp only [Element.Misformed, Element.heading, formed.1] at misformed
      simp [ofElement, misformed, Element.heading]

theorem filter_valued (path : String) (header : Header) (value : Octets) :
    (valued path definition header value ++ [Telling.event .leave]).filter (·.place?.isSome) =
      valued path definition header value := rfl

theorem filter_replaced (path : String) (header : Header) :
    (replaced path definition header ++ [Telling.event .leave]).filter (·.place?.isSome) =
      replaced path definition header := rfl

/-- Of an element of any content nothing is told but what it holds. -/
theorem about_any (mandatory : Bool) (root : schema.root? top.heading.tag = some definition)
    (resolves : Resolves schema top offset inner place (some found))
    (any : found.isAny = true) :
    ∃ path, about inner place (ofElement mandatory "" definition offset top) =
      valued path found (inner.heading.header place) inner.content := by
  obtain ⟨_, ⟨path⟩, all⟩ := about_record mandatory root resolves
  rw [ofElement_any any, filter_valued] at all
  exact ⟨_, all⟩

/-- Of a leaf that may be one nothing is told but its value. -/
theorem about_leaf (mandatory : Bool) (root : schema.root? top.heading.tag = some definition)
    {heading : Heading encoding} {value : Octets}
    (resolves : Resolves schema top offset (.leaf heading value) place (some found))
    (primitive : found.constructed? ≠ some true) :
    ∃ path, about (.leaf heading value) place (ofElement mandatory "" definition offset top) =
      valued path found (heading.header place) value := by
  obtain ⟨_, ⟨path⟩, all⟩ := about_record mandatory root resolves
  rw [ofElement, if_neg primitive, filter_valued] at all
  exact ⟨_, all⟩

end Account

def Element.Lost (element : Element encoding) : Option Definition → Prop
  | none => True
  | some definition => element.Misformed definition

namespace Account

variable {top inner : Element encoding} {place offset : Nat} {schema : Schema}
  {definition : Definition} {found : Option Definition} {mandatory : Bool}

/-- Of an element that is lost nothing is told but one issue, and that null stands for it. -/
theorem about_lost (mandatory : Bool) (root : schema.root? top.heading.tag = some definition)
    (resolves : Resolves schema top offset inner place found) (formed : inner.Formed)
    (lost : inner.Lost found) :
    ∃ issue nulls, about inner place (ofElement mandatory "" definition offset top) =
        .issue issue :: nulls ∧ issue.offset = place ∧ issues nulls = [] ∧
      ∀ field ∈ fields nulls, field.value = none := by
  obtain ⟨_, accounts, all⟩ := about_record mandatory root resolves
  cases accounts with
  | found path found =>
      rw [ofElement_misformed formed lost, filter_replaced] at all
      exact ⟨_, _, all, rfl, rfl, by simp [fields, Telling.field?]⟩
  | leftOut path parent =>
      obtain ⟨issue, place_eq, -, told⟩ := leftOut_eq path parent (inner.heading.header place)
      rw [told] at all
      exact ⟨issue, [], all, place_eq, rfl, by simp [fields]⟩

end Account

/-- The schema makes an element of any content of this one. -/
def AnyAt (schema : Schema) (top : Element encoding) (offset : Nat) (element : Element encoding)
    (place : Nat) : Prop :=
  ∃ definition : Definition,
    Resolves schema top offset element place (some definition) ∧ definition.isAny = true

/-- The schema is asked for this element, and it is lost. -/
def LostAt (schema : Schema) (top : Element encoding) (offset : Nat) (element : Element encoding)
    (place : Nat) : Prop :=
  ∃ found, Resolves schema top offset element place found ∧ element.Lost found

inductive Fate where
  | kept
  | captured
  | forgone

/-- What becomes of a leaf of a record with these fields and issues: it has its own field, or
it is covered by that of an element of any content, or by the issue of one that is lost. -/
inductive Fate.Befalls (schema : Schema) (top : Element encoding) (offset : Nat)
    (fields : List Field) (issues : List Issue) (leaf : Element encoding) (place : Nat) :
    Fate → Prop where
  | kept {definition : Definition} {path : String} :
      (∀ outer outerPlace, outer.Holds outerPlace leaf place →
        ¬AnyAt schema top offset outer outerPlace ∧ ¬LostAt schema top offset outer outerPlace) →
      Resolves schema top offset leaf place (some definition) →
      fields.filter (leaf.spans place ·.offset) =
        [⟨path, some leaf.content, definition.type, place⟩] →
      Befalls schema top offset fields issues leaf place .kept
  | captured {outer : Element encoding} {outerPlace : Nat} {path : String} :
      AnyAt schema top offset outer outerPlace → outer.Holds outerPlace leaf place →
      fields.filter (outer.spans outerPlace ·.offset) =
        [⟨path, some outer.content, .any, outerPlace⟩] →
      Befalls schema top offset fields issues leaf place .captured
  | forgone {outer : Element encoding} {outerPlace : Nat} {issue : Issue} :
      LostAt schema top offset outer outerPlace → outer.Holds outerPlace leaf place →
      issues.filter (outer.spans outerPlace ·.offset) = [issue] → issue.offset = outerPlace →
      Befalls schema top offset fields issues leaf place .forgone

theorem Resolves.holds {top inner : Element encoding} {offset place : Nat} {schema : Schema}
    {found : Option Definition} (resolves : Resolves schema top offset inner place found) :
    top.Holds offset inner place := by
  induction resolves with
  | top => exact .itself
  | child _ _ ih => exact .child ih

namespace Element

variable {top inner : Element encoding} {place offset : Nat} {schema : Schema}
  {definition : Definition}

/-- Every element of a record is one that the schema was asked for, or it lies inside one of
any content, or inside one that is lost. -/
theorem Holds.covered (holds : top.Holds offset inner place) (formed : top.Formed)
    (root : schema.root? top.heading.tag = some definition) :
    (∃ found, Resolves schema top offset inner place found) ∨
      ∃ outer outerPlace, outer.Holds outerPlace inner place ∧
        (AnyAt schema top offset outer outerPlace ∨ LostAt schema top offset outer outerPlace) := by
  induction holds with
  | itself => exact .inl ⟨_, .top root⟩
  | @child heading front back child place holds ih =>
      rcases ih with ⟨found, resolves⟩ | ⟨outer, outerPlace, inside, closed⟩
      · have parentFormed := holds.formed formed
        rw [Formed] at parentFormed
        cases found with
        | none => exact .inr ⟨_, _, .child .itself, .inr ⟨none, resolves, trivial⟩⟩
        | some found =>
            cases form : found.constructed? with
            | none =>
                have any := Definition.constructed?_eq_none_iff.1 form
                exact .inr ⟨_, _, .child .itself, .inl ⟨found, resolves, any⟩⟩
            | some constructed =>
                cases constructed with
                | true => exact .inl ⟨_, .child resolves form⟩
                | false =>
                    refine .inr ⟨_, _, .child .itself, .inr ⟨_, resolves, ?_⟩⟩
                    simp [Lost, Misformed, form, Element.heading, parentFormed.1]
      · exact .inr ⟨outer, outerPlace, .child inside, closed⟩

theorem Holds.spans (holds : top.Holds offset inner place) : top.spans offset place = true := by
  have within := holds.within
  have positive := inner.length_octets_pos
  simp only [Element.spans, Bool.and_eq_true, decide_eq_true_eq]
  omega

end Element

namespace Account

variable {top outer leaf : Element encoding} {offset place outerPlace : Nat} {schema : Schema}
  {definition found : Definition} {mandatory : Bool}

theorem mem_about {element : Element encoding} {script : List Telling} {telling : Telling}
    {position : Nat} (told : telling ∈ script) (placed : telling.place? = some position)
    (inside : element.spans place position = true) : telling ∈ about element place script := by
  rw [about, List.mem_filter, placed]
  exact ⟨told, inside⟩

theorem mem_of_about {element : Element encoding} {script : List Telling} {telling : Telling}
    (told : telling ∈ about element place script) : telling ∈ script :=
  (List.mem_filter.1 told).1

theorem field_of_about_any {script : List Telling} {path : String} {header : Header}
    {value : Octets} (any : found.isAny = true)
    (all : about outer outerPlace script = valued path found header value) :
    (fields script).filter (outer.spans outerPlace ·.offset) =
      [⟨path, some value, .any, header.offset⟩] := by
  rw [filter_fields, all, valued, Definition.type_of_isAny any]
  rfl

section

variable (root : schema.root? top.heading.tag = some definition)

include root

/-- A leaf with a field of its own lies inside no element of any content. -/
theorem not_anyAt_of_leaf {heading : Heading encoding} {value : Octets}
    (resolves : Resolves schema top offset (.leaf heading value) place (some found))
    (primitive : found.constructed? = some false)
    (holds : outer.Holds outerPlace (.leaf heading value) place) :
    ¬AnyAt schema top offset outer outerPlace := by
  rintro ⟨wide, resolves', any⟩
  obtain ⟨path, all⟩ := about_leaf false root resolves (by simp [primitive])
  obtain ⟨path', all'⟩ := about_any false root resolves' any
  have told : Telling.event (.enter found (heading.header place)) ∈
      about (.leaf heading value) place (ofElement false "" definition offset top) := by
    simp [all, valued]
  have again := mem_about (mem_of_about told) rfl holds.spans
  simp only [all', valued, List.mem_cons, Telling.event.injEq, FieldEvent.enter.injEq, reduceCtorEq,
    List.not_mem_nil, or_false] at again
  rw [again.1, Definition.constructed?_eq_none_iff.2 any] at primitive
  cases primitive

/-- No element lies inside a lost one and has a field of its own with a value. -/
theorem not_lostAt_of_value {element : Element encoding} {path : String} {header : Header}
    {value : Octets} (formed : top.Formed)
    (all : about element place (ofElement mandatory "" definition offset top) =
      valued path found header value)
    (inside : outer.spans outerPlace header.offset = true) :
    ¬LostAt schema top offset outer outerPlace := by
  rintro ⟨lost, resolves, gone⟩
  obtain ⟨issue, nulls, all', -, -, null⟩ := about_lost mandatory root resolves
    (resolves.holds.formed formed) gone
  have told : Telling.event (.field ⟨path, some value, found.type, header.offset⟩) ∈
      about element place (ofElement mandatory "" definition offset top) := by
    simp [all, valued]
  have again := mem_about (mem_of_about told) rfl inside
  simp only [all', List.mem_cons, reduceCtorEq, false_or] at again
  have empty := null _ (List.mem_filterMap.2 ⟨_, again, rfl⟩)
  cases empty

/-- No leaf is held by an element of any content and by a lost one. -/
theorem not_lostAt_of_anyAt {other : Element encoding} {otherPlace : Nat} (formed : top.Formed)
    (holds : outer.Holds outerPlace leaf place) (holds' : other.Holds otherPlace leaf place)
    (any : AnyAt schema top offset outer outerPlace) :
    ¬LostAt schema top offset other otherPlace := by
  obtain ⟨wide, resolves, any⟩ := any
  obtain ⟨path, all⟩ := about_any false root resolves any
  -- Elements that hold one leaf lie one inside the other. If the lost one is the outer one, the
  -- value of the other would lie in it, else its own issue would lie in the other.
  by_cases inside : other.spans otherPlace outerPlace = true
  · exact not_lostAt_of_value root formed all inside
  · rintro ⟨lost, resolves', gone⟩
    obtain ⟨issue, nulls, all', rfl, -, -⟩ := about_lost false root resolves'
      (resolves'.holds.formed formed) gone
    have within := holds.spans
    have within' := holds'.spans
    have told : Telling.issue issue ∈
        about other issue.offset (ofElement false "" definition offset top) := by
      simp [all']
    have again : Telling.issue issue ∈
        about outer outerPlace (ofElement false "" definition offset top) := by
      refine mem_about (mem_of_about told) rfl ?_
      simp only [Element.spans, Bool.and_eq_true, decide_eq_true_eq] at inside within within' ⊢
      omega
    simp [all, valued] at again

theorem captured_befalls {issues : List Issue} (holds : outer.Holds outerPlace leaf place)
    (any : AnyAt schema top offset outer outerPlace) :
    Fate.captured.Befalls schema top offset
      (fields (ofElement mandatory "" definition offset top)) issues leaf place := by
  obtain ⟨wide, resolves, any⟩ := any
  obtain ⟨path, all⟩ := about_any mandatory root resolves any
  exact .captured ⟨wide, resolves, any⟩ holds (field_of_about_any any all)

theorem forgone_befalls {fields : List Field} (formed : top.Formed)
    (holds : outer.Holds outerPlace leaf place)
    (lost : LostAt schema top offset outer outerPlace) :
    Fate.forgone.Befalls schema top offset fields
      (issues (ofElement mandatory "" definition offset top)) leaf place := by
  obtain ⟨lost, resolves, gone⟩ := lost
  obtain ⟨issue, nulls, all, own, none, -⟩ := about_lost mandatory root resolves
    (resolves.holds.formed formed) gone
  refine .forgone ⟨lost, resolves, gone⟩ holds ?_ own
  rw [filter_issues, all]
  exact congrArg (List.cons issue) none

theorem kept_befalls {issues : List Issue} {heading : Heading encoding} {value : Octets}
    (formed : top.Formed)
    (resolves : Resolves schema top offset (.leaf heading value) place (some found))
    (primitive : found.constructed? = some false) :
    Fate.kept.Befalls schema top offset (fields (ofElement mandatory "" definition offset top))
      issues (.leaf heading value) place := by
  obtain ⟨path, all⟩ := about_leaf mandatory root resolves (by simp [primitive])
  have own : (fields (ofElement mandatory "" definition offset top)).filter
      ((Element.leaf heading value).spans place ·.offset) =
        [⟨path, some value, found.type, place⟩] := by
    rw [filter_fields, all]
    rfl
  refine .kept ?_ resolves own
  intro outer outerPlace holds
  exact ⟨not_anyAt_of_leaf root resolves primitive holds,
    not_lostAt_of_value root formed all holds.spans⟩

/-- Exactly one thing becomes of every leaf of a record. -/
theorem fate_unique (formed : top.Formed) {heading : Heading encoding} {value : Octets}
    (holds : top.Holds offset (.leaf heading value) place) :
    ∃! fate : Fate, fate.Befalls schema top offset
      (fields (ofElement mandatory "" definition offset top))
      (issues (ofElement mandatory "" definition offset top)) (.leaf heading value) place := by
  refine existsUnique_of_exists_of_unique ?_ ?_
  · rcases holds.covered formed root with ⟨found, resolves⟩ | ⟨outer, outerPlace, holds, any | lost⟩
    · have leaf := holds.formed formed
      rw [Element.Formed] at leaf
      cases found with
      | none => exact ⟨_, forgone_befalls root formed .itself ⟨none, resolves, trivial⟩⟩
      | some found =>
          cases form : found.constructed? with
          | none =>
              have any := Definition.constructed?_eq_none_iff.1 form
              exact ⟨_, captured_befalls root .itself ⟨found, resolves, any⟩⟩
          | some constructed =>
              cases constructed with
              | false => exact ⟨_, kept_befalls root formed resolves form⟩
              | true =>
                  have lost : (Element.leaf heading value).Lost (some found) := by
                    simp [Element.Lost, Element.Misformed, form, Element.heading, leaf]
                  exact ⟨_, forgone_befalls root formed .itself ⟨_, resolves, lost⟩⟩
    · exact ⟨_, captured_befalls root holds any⟩
    · exact ⟨_, forgone_befalls root formed holds lost⟩
  · intro fate fate' befalls befalls'
    cases befalls with
    | kept apart =>
        cases befalls' with
        | kept => rfl
        | captured any holds => exact absurd any (apart _ _ holds).1
        | forgone lost holds => exact absurd lost (apart _ _ holds).2
    | captured any holds =>
        cases befalls' with
        | kept apart => exact absurd any (apart _ _ holds).1
        | captured => rfl
        | forgone lost holds' =>
            exact absurd lost (not_lostAt_of_anyAt root formed holds holds' any)
    | forgone lost holds =>
        cases befalls' with
        | kept apart => exact absurd lost (apart _ _ holds).2
        | captured any holds' =>
            exact absurd lost (not_lostAt_of_anyAt root formed holds' holds any)
        | forgone => rfl

end

def valuedOffsets (script : List Telling) : List Nat :=
  ((fields script).filter (·.value.isSome)).map (·.offset)

theorem valuedOffsets_append (front back : List Telling) :
    valuedOffsets (front ++ back) = valuedOffsets front ++ valuedOffsets back := by
  simp [valuedOffsets, fields]

theorem Lies.valuedOffsets {start stop : Nat} {script : List Telling}
    (lies : Lies start stop script) :
    ∀ offset ∈ valuedOffsets script, start ≤ offset ∧ offset < stop := by
  intro offset member
  simp only [Account.valuedOffsets, fields, List.mem_map, List.mem_filter, List.mem_filterMap]
    at member
  obtain ⟨field, ⟨⟨telling, told, picked⟩, -⟩, rfl⟩ := member
  exact lies telling told _ (Telling.place?_of_field? picked)

theorem valuedOffsets_missing (path parent : String) (offset : Nat)
    (components : List (Definition × Bool)) :
    valuedOffsets (missing path parent offset components) = [] := by
  induction components with
  | nil => rfl
  | cons component rest ih =>
      rw [missing]
      split
      · exact ih
      · exact ih

theorem valuedOffsets_closing (path : String) (header : Header)
    (selected : List Definition.Selection) :
    valuedOffsets (closing mandatory path definition header selected) = [] := by
  rw [closing, valuedOffsets_append]
  have unnamed : valuedOffsets (unchosen path definition header selected) = [] := by
    rw [unchosen]
    split
    · rfl
    · rfl
  rw [unnamed]
  split
  · exact valuedOffsets_missing _ _ _ _
  · rfl

mutual

theorem ascending_ofElement (mandatory : Bool) (element : Element encoding) (path : String)
    (definition : Definition) (offset : Nat) :
    (valuedOffsets (ofElement mandatory path definition offset element)).Pairwise (· < ·) := by
  match element with
  | .leaf heading value =>
      rw [ofElement]
      split
      · exact .nil
      · exact List.pairwise_singleton _ _
  | .branch heading inside =>
      rw [ofElement]
      split
      · exact .nil
      · split
        · exact List.pairwise_singleton _ _
        · have children := ascending_ofChildren mandatory inside
            (Walk.extendPath path definition.name) definition (offset + heading.octets.length) []
          have plain (enter : Telling) (told closed : List Telling)
              (silent : valuedOffsets closed = []) (dumb : enter.field? = none) :
              valuedOffsets (enter :: (told ++ closed) ++ [.event .leave]) = valuedOffsets told := by
            have shut : valuedOffsets [.event .leave] = [] := rfl
            rw [valuedOffsets_append, shut, List.append_nil, valuedOffsets, fields,
              List.filterMap_cons_none dumb]
            change valuedOffsets (told ++ closed) = _
            rw [valuedOffsets_append, silent, List.append_nil]
          rw [plain _ _ _ (valuedOffsets_closing _ _ _) rfl]
          exact children

theorem ascending_ofChildren (mandatory : Bool) (children : List (Element encoding))
    (path : String) (definition : Definition) (offset : Nat)
    (selected : List Definition.Selection) :
    (valuedOffsets (ofChildren mandatory path definition offset selected children)).Pairwise
      (· < ·) := by
  match children with
  | [] =>
      rw [ofChildren]
      exact .nil
  | child :: rest =>
      rw [ofChildren, valuedOffsets_append]
      have later := ascending_ofChildren mandatory rest path definition
        (offset + child.octets.length)
      cases definition.accept selected child.heading.tag with
      | none =>
          obtain ⟨issue, -, -, told⟩ := leftOut_eq path definition (child.heading.header offset)
          have silent : valuedOffsets [.issue issue] = [] := rfl
          rw [told, silent, List.nil_append]
          exact later _
      | some selection =>
          refine List.pairwise_append.2
            ⟨ascending_ofElement mandatory child path selection.definition offset, later _, ?_⟩
          intro earlier member after member'
          have inside := (lies_ofElement mandatory child path selection.definition
            offset).valuedOffsets earlier member
          have beyond := (lies_ofChildren mandatory rest path definition
            (offset + child.octets.length) _).valuedOffsets after member'
          exact Nat.lt_of_lt_of_le inside.2 beyond.1

end

end Account

end BerRecords
