import BerRecords.Proofs.Definition.Shape
import BerRecords.Proofs.Walk.Coverage
import Mathlib.Data.List.Forall2

/-!
# Accounts that resemble each other

Two series of elements are parallel if they are nested alike, hold the same values, and are of
definitions of the same shape. Their tags and places in a stream may differ, and so may the
schemas and the tag encodings. What is told of them then differs in tags and offsets only.
-/

set_option autoImplicit false

namespace BerRecords

def Field.gist (field : Field) : String × DeclaredType × Option Octets :=
  (field.path, field.type, field.value)

namespace Account

/-- The scripts tell of fields that say the same, and of as many issues. -/
structure Resembles (script script' : List Telling) : Prop where
  gists_eq : (fields script).map Field.gist = (fields script').map Field.gist
  issues_eq : (issues script).length = (issues script').length

namespace Resembles

variable {script script' front front' back back' : List Telling}

theorem refl (script : List Telling) : Resembles script script :=
  ⟨rfl, rfl⟩

theorem append (ahead : Resembles front front') (behind : Resembles back back') :
    Resembles (front ++ back) (front' ++ back') where
  gists_eq := by
    simp only [fields_append, List.map_append, ahead.gists_eq, behind.gists_eq]
  issues_eq := by
    simp only [issues_append, List.length_append, ahead.issues_eq, behind.issues_eq]

theorem enter {definition definition' : Definition} {header header' : Header}
    (later : Resembles script script') :
    Resembles (.event (.enter definition header) :: script)
      (.event (.enter definition' header') :: script') :=
  ⟨later.gists_eq, later.issues_eq⟩

theorem issueless (resembles : Resembles script script') :
    issues script = [] ↔ issues script' = [] := by
  rw [← List.length_eq_zero_iff, ← List.length_eq_zero_iff, resembles.issues_eq]

end Resembles

end Account

namespace Definition

def finds (definition : Definition) (tag : Tag) : Option Selection :=
  (definition.select tag).toOption.join

def Selection.shape (selection : Selection) : Option Nat × Definition :=
  (selection.place, selection.definition.shape)

def Selection.inside : Option Selection → Tag → Option Selection
  | none => fun _ => none
  | some selection => selection.definition.finds

theorem Selection.found_of_shape {found found' : Option Selection} {selection : Selection}
    (matched : found.map Selection.shape = found'.map Selection.shape)
    (known : found = some selection) :
    ∃ selection', found' = some selection' ∧ selection.place = selection'.place ∧
      SameShape selection.definition selection'.definition := by
  rw [known, Option.map_some, eq_comm, Option.map_eq_some_iff] at matched
  obtain ⟨selection', found', same⟩ := matched
  obtain ⟨place_eq, shape_eq⟩ := Prod.mk.inj same
  exact ⟨selection', found', place_eq.symm, shape_eq.symm⟩

theorem finds_of_accept {definition : Definition} {selected : List Selection} {tag : Tag}
    {selection : Selection} (chosen : definition.accept selected tag = some selection) :
    definition.finds tag = some selection := by
  rw [finds, select_of_accept chosen]
  rfl

/-- A choice that has selected a child selects no second one. -/
theorem accept_eq (definition : Definition) (selected : List Selection) (tag : Tag) :
    definition.accept selected tag =
      if definition.isChoice && !selected.isEmpty then none else definition.finds tag := by
  rw [accept, finds]
  rcases definition.select tag with error | _ | selection
  · simp [Except.toOption]
  · simp [Except.toOption]
  · simp [Except.toOption]

end Definition

namespace Element

open Definition (Selection)

variable {encoding encoding' : TagEncoding}

/-- The elements are nested alike, with the same values, and what is found for one, where it is
looked up, has the place and the shape of what is found for the other. Of elements of any content
only the content counts. -/
inductive Parallel : (Tag → Option Selection) → (Tag → Option Selection) →
    List (Element encoding) → List (Element encoding') → Prop where
  | nil {look look' : Tag → Option Selection} : Parallel look look' [] []
  | leaf {look look' : Tag → Option Selection} {heading : Heading encoding}
      {heading' : Heading encoding'} {value : Octets} {rest : List (Element encoding)}
      {rest' : List (Element encoding')} :
      (look heading.tag).map Selection.shape = (look' heading'.tag).map Selection.shape →
      Parallel look look' rest rest' →
      Parallel look look' (.leaf heading value :: rest) (.leaf heading' value :: rest')
  | branch {look look' : Tag → Option Selection} {heading : Heading encoding}
      {heading' : Heading encoding'} {children rest : List (Element encoding)}
      {children' rest' : List (Element encoding')} :
      (look heading.tag).map Selection.shape = (look' heading'.tag).map Selection.shape →
      (∀ selection ∈ look heading.tag, selection.definition.isAny = false) →
      Parallel (Selection.inside (look heading.tag)) (Selection.inside (look' heading'.tag))
        children children' →
      Parallel look look' rest rest' →
      Parallel look look' (.branch heading children :: rest) (.branch heading' children' :: rest')
  | any {look look' : Tag → Option Selection} {heading : Heading encoding}
      {heading' : Heading encoding'} {content rest : List (Element encoding)}
      {content' rest' : List (Element encoding')} {selection : Selection} :
      (look heading.tag).map Selection.shape = (look' heading'.tag).map Selection.shape →
      look heading.tag = some selection → selection.definition.isAny = true →
      octetsAll content = octetsAll content' →
      Parallel look look' rest rest' →
      Parallel look look' (.branch heading content :: rest) (.branch heading' content' :: rest')

end Element

namespace Account

open Definition (Selection SameShape)

variable {encoding encoding' : TagEncoding} {mandatory : Bool} {path : String}
  {definition definition' : Definition} {offset offset' : Nat} {header header' : Header}
  {selected selected' : List Selection}

theorem resembles_valued (same : SameShape definition definition') (value : Octets) :
    Resembles (valued path definition header value) (valued path definition' header' value) where
  gists_eq := by
    rw [valued, valued, same.type_eq]
    rfl
  issues_eq := rfl

theorem resembles_replaced (same : SameShape definition definition') :
    Resembles (replaced path definition header) (replaced path definition' header') where
  gists_eq := by
    rw [replaced, replaced, same.type_eq]
    rfl
  issues_eq := rfl

theorem resembles_leftOut :
    Resembles (leftOut path definition header) (leftOut path definition' header') := by
  obtain ⟨issue, -, -, told⟩ := leftOut_eq path definition header
  obtain ⟨issue', -, -, told'⟩ := leftOut_eq path definition' header'
  rw [told, told']
  exact ⟨rfl, rfl⟩

theorem resembles_missing (parent parent' : String) (offset offset' : Nat)
    {components components' : List Definition}
    (same : List.Forall₂ SameShape components components') (seen : List Bool) :
    Resembles (missing path parent offset (components.zip seen))
      (missing path parent' offset' (components'.zip seen)) := by
  induction same generalizing seen with
  | nil => exact .refl _
  | @cons component component' rest rest' like _ ih =>
      cases seen with
      | nil => exact .refl _
      | cons appeared seen =>
          rw [List.zip_cons_cons, List.zip_cons_cons, missing, missing, like.isOptional_eq]
          split
          · exact ih seen
          · refine ⟨?_, ?_⟩
            · simpa [fields_cons, Telling.field?, Field.ofMissing, Field.gist, like.name_eq,
                like.type_eq] using (ih seen).gists_eq
            · simpa [issues_cons, Telling.issue?] using (ih seen).issues_eq

theorem resembles_closing (same : SameShape definition definition')
    (places_eq : selected.map (·.place) = selected'.map (·.place)) :
    Resembles (closing mandatory path definition header selected)
      (closing mandatory path definition' header' selected') := by
  have seen (place : Nat) :
      selected.any (·.place = some place) = selected'.any (·.place = some place) := by
    have counted := congrArg (List.any · (· = some place)) places_eq
    simpa [List.any_map, Function.comp_def] using counted
  have appeared (components components' : List Definition)
      (like : List.Forall₂ SameShape components components') :
      (components.mapIdx fun place _ => selected.any (·.place = some place)) =
        components'.mapIdx fun place _ => selected'.any (·.place = some place) := by
    simp only [seen]
    apply List.ext_getElem
    · simp [like.length_eq]
    · intro place _ _
      simp
  rw [closing, closing]
  apply Resembles.append
  · rw [unchosen, unchosen, same.isChoice_eq,
      show selected.isEmpty = selected'.isEmpty by
        simpa using congrArg List.isEmpty places_eq]
    split
    · exact ⟨rfl, rfl⟩
    · exact .refl _
  · split
    · dsimp only
      rw [appeared _ _ same.components]
      exact resembles_missing _ _ _ _ same.components _
    · exact .refl _

theorem resembles_leaf (same : SameShape definition definition') (heading : Heading encoding)
    (heading' : Heading encoding') (value : Octets) :
    Resembles (ofElement mandatory path definition offset (.leaf heading value))
      (ofElement mandatory path definition' offset' (.leaf heading' value)) := by
  rw [ofElement, ofElement, same.constructed?_eq, same.name_eq]
  refine .append ?_ (.refl _)
  split
  · exact resembles_replaced same
  · exact resembles_valued same value

theorem resembles_any (same : SameShape definition definition') (any : definition.isAny = true)
    (heading : Heading encoding) (heading' : Heading encoding')
    {content : List (Element encoding)} {content' : List (Element encoding')}
    (contents_eq : Element.octetsAll content = Element.octetsAll content') :
    Resembles (ofElement mandatory path definition offset (.branch heading content))
      (ofElement mandatory path definition' offset' (.branch heading' content')) := by
  rw [ofElement_any any, ofElement_any (same.isAny_eq ▸ any), same.name_eq]
  refine .append ?_ (.refl _)
  simp only [Element.content, contents_eq]
  exact resembles_valued same _

/-- What is told of an element, given what is told of its children. -/
theorem resembles_branch (same : SameShape definition definition')
    (unlike : definition.isAny = false) (heading : Heading encoding) (heading' : Heading encoding')
    {children : List (Element encoding)} {children' : List (Element encoding')}
    (inside : ∀ path, Resembles
        (ofChildren mandatory path definition (offset + heading.octets.length) [] children)
        (ofChildren mandatory path definition' (offset' + heading'.octets.length) [] children') ∧
      (definition.acceptAll [] (children.map (·.heading.tag))).map (·.place) =
        (definition'.acceptAll [] (children'.map (·.heading.tag))).map (·.place)) :
    Resembles (ofElement mandatory path definition offset (.branch heading children))
      (ofElement mandatory path definition' offset' (.branch heading' children')) := by
  have unlike' : definition'.isAny = false := same.isAny_eq ▸ unlike
  rw [ofElement, ofElement, same.constructed?_eq, same.name_eq, unlike, unlike']
  refine .append ?_ (.refl _)
  split
  · exact resembles_replaced same
  · obtain ⟨told, places_eq⟩ := inside (Walk.extendPath path definition'.name)
    exact .enter (told.append (resembles_closing same places_eq))

theorem accept_shape (same : SameShape definition definition')
    (places_eq : selected.map (·.place) = selected'.map (·.place)) {tag tag' : Tag}
    (matched : (definition.finds tag).map Selection.shape =
      (definition'.finds tag').map Selection.shape) :
    (definition.accept selected tag).map Selection.shape =
      (definition'.accept selected' tag').map Selection.shape := by
  rw [Definition.accept_eq, Definition.accept_eq, same.isChoice_eq,
    show selected.isEmpty = selected'.isEmpty by simpa using congrArg List.isEmpty places_eq]
  split
  · rfl
  · exact matched

/-- One more child on both sides. -/
theorem resembles_cons (same : SameShape definition definition') {child : Element encoding}
    {child' : Element encoding'} {rest : List (Element encoding)} {rest' : List (Element encoding')}
    (matched : (definition.finds child.heading.tag).map Selection.shape =
      (definition'.finds child'.heading.tag).map Selection.shape)
    (own : ∀ selection selection', definition.finds child.heading.tag = some selection →
      definition'.finds child'.heading.tag = some selection' →
      SameShape selection.definition selection'.definition →
      Resembles (ofElement mandatory path selection.definition offset child)
        (ofElement mandatory path selection'.definition offset' child'))
    (later : ∀ selected selected' : List Selection,
      selected.map (·.place) = selected'.map (·.place) →
      Resembles
          (ofChildren mandatory path definition (offset + child.octets.length) selected rest)
          (ofChildren mandatory path definition' (offset' + child'.octets.length) selected' rest') ∧
        (definition.acceptAll selected (rest.map (·.heading.tag))).map (·.place) =
          (definition'.acceptAll selected' (rest'.map (·.heading.tag))).map (·.place))
    (places_eq : selected.map (·.place) = selected'.map (·.place)) :
    Resembles (ofChildren mandatory path definition offset selected (child :: rest))
        (ofChildren mandatory path definition' offset' selected' (child' :: rest')) ∧
      (definition.acceptAll selected ((child :: rest).map (·.heading.tag))).map (·.place) =
        (definition'.acceptAll selected' ((child' :: rest').map (·.heading.tag))).map
          (·.place) := by
  have shapes_eq := accept_shape same places_eq matched
  rw [ofChildren, ofChildren, List.map_cons, List.map_cons, Definition.acceptAll,
    Definition.acceptAll]
  cases chosen : definition.accept selected child.heading.tag with
  | none =>
      rw [chosen, Option.map_none, eq_comm, Option.map_eq_none_iff] at shapes_eq
      rw [shapes_eq, Option.toList_none, List.append_nil, List.append_nil]
      obtain ⟨told, places_eq⟩ := later _ _ places_eq
      exact ⟨resembles_leftOut.append told, places_eq⟩
  | some selection =>
      obtain ⟨selection', chosen', place_eq, like⟩ := Selection.found_of_shape shapes_eq chosen
      rw [chosen']
      obtain ⟨told, places_eq⟩ := later (selected ++ [selection]) (selected' ++ [selection'])
        (by simp [places_eq, place_eq])
      have resembles := own _ _ (Definition.finds_of_accept chosen)
        (Definition.finds_of_accept chosen') like
      exact ⟨resembles.append told, places_eq⟩

/-- What is told of parallel elements inside definitions of one shape resembles each other, and so
does what is selected. -/
theorem resembles_ofChildren {look look' : Tag → Option Selection}
    {children : List (Element encoding)} {children' : List (Element encoding')}
    (parallel : Element.Parallel look look' children children')
    {definition definition' : Definition} (same : SameShape definition definition')
    (looked : look = definition.finds) (looked' : look' = definition'.finds) (path : String)
    (offset offset' : Nat)
    {selected selected' : List Selection}
    (places_eq : selected.map (·.place) = selected'.map (·.place)) :
    Resembles (ofChildren mandatory path definition offset selected children)
        (ofChildren mandatory path definition' offset' selected' children') ∧
      (definition.acceptAll selected (children.map (·.heading.tag))).map (·.place) =
        (definition'.acceptAll selected' (children'.map (·.heading.tag))).map (·.place) := by
  induction parallel generalizing definition definition' path offset offset' selected selected' with
  | nil => exact ⟨.refl _, places_eq⟩
  | @leaf look look' heading heading' value rest rest' matched _ ih =>
      subst looked looked'
      refine resembles_cons same matched (fun _ _ _ _ like => ?_) (fun _ _ places_eq => ?_)
        places_eq
      · exact resembles_leaf like _ _ _
      · exact ih same rfl rfl _ _ _ places_eq
  | @branch look look' heading heading' children rest children' rest' matched unlike _ _ inside
      ih =>
      subst looked looked'
      refine resembles_cons same matched (fun selection selection' found found' like => ?_)
        (fun _ _ places_eq => ?_) places_eq
      · refine resembles_branch like (unlike selection found) _ _ fun path => ?_
        exact inside like (congrArg Selection.inside found) (congrArg Selection.inside found')
          _ _ _ rfl
      · exact ih same rfl rfl _ _ _ places_eq
  | @any look look' heading heading' content rest content' rest' selection matched found any
      contents_eq _ ih =>
      subst looked looked'
      refine resembles_cons same matched (fun selection' _ found' _ like => ?_)
        (fun _ _ places_eq => ?_) places_eq
      · cases found.symm.trans found'
        exact resembles_any like any _ _ contents_eq
      · exact ih same rfl rfl _ _ _ places_eq

/-- What is found for parallel elements is of one shape, and what is told of them resembles each
other. -/
theorem resembles_ofElement {look look' : Tag → Option Selection} {element : Element encoding}
    {element' : Element encoding'} {rest : List (Element encoding)}
    {rest' : List (Element encoding')} {selection : Selection}
    (parallel : Element.Parallel look look' (element :: rest) (element' :: rest'))
    (found : look element.heading.tag = some selection) :
    ∃ selection', look' element'.heading.tag = some selection' ∧ ∀ path offset offset',
      Resembles (ofElement mandatory path selection.definition offset element)
        (ofElement mandatory path selection'.definition offset' element') := by
  cases parallel with
  | leaf matched =>
      obtain ⟨selection', found', -, same⟩ := Selection.found_of_shape matched found
      exact ⟨selection', found', fun _ _ _ => resembles_leaf same _ _ _⟩
  | branch matched unlike inside =>
      obtain ⟨selection', found', -, same⟩ := Selection.found_of_shape matched found
      refine ⟨selection', found', fun _ _ _ => ?_⟩
      refine resembles_branch same (unlike _ found) _ _ fun _ => ?_
      exact resembles_ofChildren inside same (congrArg Selection.inside found)
        (congrArg Selection.inside found') _ _ _ rfl
  | any matched known any contents_eq =>
      cases found.symm.trans known
      obtain ⟨selection', found', -, same⟩ := Selection.found_of_shape matched found
      exact ⟨selection', found', fun _ _ _ => resembles_any same any _ _ contents_eq⟩

end Account

namespace Element

open Definition (Selection)

variable {encoding encoding' : TagEncoding} {look look' : Tag → Option Selection}
  {elements : List (Element encoding)} {elements' : List (Element encoding')}

theorem Parallel.symm (parallel : Parallel look look' elements elements') :
    Parallel look' look elements' elements := by
  induction parallel with
  | nil => exact .nil
  | leaf matched _ ih => exact .leaf matched.symm ih
  | branch matched unlike _ _ inside ih =>
      refine .branch matched.symm (fun selection' found' => ?_) inside ih
      obtain ⟨selection, found, -, same⟩ := Selection.found_of_shape matched.symm found'
      exact same.isAny_eq.trans (unlike selection found)
  | any matched found any contents_eq _ ih =>
      obtain ⟨selection', found', -, same⟩ := Selection.found_of_shape matched found
      exact .any matched.symm found' (same.isAny_eq.symm.trans any) contents_eq.symm ih

theorem Parallel.rest {element : Element encoding} {element' : Element encoding'}
    (parallel : Parallel look look' (element :: elements) (element' :: elements')) :
    Parallel look look' elements elements' := by
  cases parallel with
  | leaf _ rest => exact rest
  | branch _ _ _ rest => exact rest
  | any _ _ _ _ rest => exact rest

/-- Elements are parallel to themselves. -/
theorem Parallel.refl (look : Tag → Option Selection) (elements : List (Element encoding)) :
    Parallel look look elements elements := by
  match elements with
  | [] => exact .nil
  | .leaf heading value :: rest => exact .leaf rfl (refl look rest)
  | .branch heading children :: rest =>
      by_cases any : ∃ selection, look heading.tag = some selection ∧
        selection.definition.isAny = true
      · obtain ⟨selection, found, any⟩ := any
        exact .any rfl found any rfl (refl look rest)
      · refine .branch rfl (fun selection found => ?_) (refl _ children) (refl look rest)
        simpa using fun like => any ⟨selection, found, like⟩

end Element

end BerRecords
