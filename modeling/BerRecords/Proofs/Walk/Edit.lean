import BerRecords.Proofs.Definition.Claims
import BerRecords.Proofs.Walk.Resemblance
import BerRecords.Proofs.Walk.Tolerance

/-!
# One change inside a record

A primitive element gives way to a constructed one, or an unknown leaf is put in. With recovery
that shows in one place only: a value becomes null, or nothing becomes of what was put in, and
one issue is told. Paths, what was selected and what is missing stay as they were.
-/

set_option autoImplicit false

namespace BerRecords

/-- A change of one element, which starts at `place` afterwards. -/
inductive Edit where
  | replaced (type : DeclaredType) (value : Octets) (origin place : Nat)
  | inserted (place : Nat)

namespace Edit

def place : Edit → Nat
  | replaced _ _ _ place | inserted place => place

def nulls : Edit → Bool
  | replaced .. => true
  | inserted _ => false

def before (path : String) : Edit → List Field
  | replaced type value origin _ => [⟨path, some value, type, origin⟩]
  | inserted _ => []

def after (path : String) : Edit → List Field
  | replaced type _ _ place => [⟨path, none, type, place⟩]
  | inserted _ => []

/-- The change shows in the fields of one element, and in one issue. All other fields say what
they said. -/
inductive Shows (edit : Edit) (fields fields' : List Field) (issues' : List Issue) : Prop where
  | shows (path : String) (cause : DecodeError) (front front' back back' : List Field) :
      fields = front ++ (edit.before path ++ back) →
      fields' = front' ++ (edit.after path ++ back') →
      front.map Field.gist = front'.map Field.gist → back.map Field.gist = back'.map Field.gist →
      issues' = [⟨path, edit.place, cause, edit.nulls⟩] → Shows edit fields fields' issues'

def ShowsIn (edit : Edit) (told told' : List Telling) : Prop :=
  edit.Shows (Account.fields told) (Account.fields told') (Account.issues told')

open Account (Resembles)

variable {edit : Edit} {told told' more more' : List Telling}

theorem ShowsIn.append_left (shows : edit.ShowsIn told told') (resembles : Resembles more more')
    (none_told : Account.issues more = []) : edit.ShowsIn (more ++ told) (more' ++ told') := by
  obtain ⟨path, cause, front, front', back, back', held, holds, ahead, behind, noted⟩ := shows
  refine ⟨path, cause, Account.fields more ++ front, Account.fields more' ++ front', back, back',
    ?_, ?_, ?_, behind, ?_⟩
  · rw [Account.fields_append, held, List.append_assoc]
  · rw [Account.fields_append, holds, List.append_assoc]
  · rw [List.map_append, List.map_append, resembles.gists_eq, ahead]
  · rw [Account.issues_append, resembles.issueless.1 none_told, List.nil_append, noted]

theorem ShowsIn.append_right (shows : edit.ShowsIn told told') (resembles : Resembles more more')
    (none_told : Account.issues more = []) : edit.ShowsIn (told ++ more) (told' ++ more') := by
  obtain ⟨path, cause, front, front', back, back', held, holds, ahead, behind, noted⟩ := shows
  refine ⟨path, cause, front, front', back ++ Account.fields more, back' ++ Account.fields more',
    ?_, ?_, ahead, ?_, ?_⟩
  · simp only [Account.fields_append, held, List.append_assoc]
  · simp only [Account.fields_append, holds, List.append_assoc]
  · rw [List.map_append, List.map_append, resembles.gists_eq, behind]
  · rw [Account.issues_append, resembles.issueless.1 none_told, List.append_nil, noted]

end Edit

namespace Element

variable {encoding : TagEncoding}

/-- The change is one of the children of an element of this definition, or inside one of them.
These children start at the two offsets. -/
inductive Edited : Edit → Definition → Nat → Nat → List (Element encoding) →
    List (Element encoding) → Prop where
  | replaced {definition : Definition} {selection : Definition.Selection} {offset offset' : Nat}
      {child : Element encoding} {heading : Heading encoding}
      {inside rest : List (Element encoding)} :
      definition.select child.heading.tag = .ok (some selection) →
      selection.definition.constructed? = some false →
      heading.tag.key = child.heading.tag.key →
      Edited (.replaced selection.definition.type child.content offset offset') definition offset
        offset' (child :: rest) (.branch heading inside :: rest)
  | inserted {definition : Definition} {offset offset' : Nat} {heading : Heading encoding}
      {value : Octets} {rest : List (Element encoding)} :
      definition.select heading.tag = .ok none →
      Edited (.inserted offset') definition offset offset' rest (.leaf heading value :: rest)
  | inside {edit : Edit} {definition : Definition} {selection : Definition.Selection}
      {offset offset' : Nat} {heading heading' : Heading encoding}
      {children children' rest : List (Element encoding)} :
      definition.select heading.tag = .ok (some selection) → heading'.tag = heading.tag →
      Edited edit selection.definition (offset + heading.octets.length)
        (offset' + heading'.octets.length) children children' →
      Edited edit definition offset offset' (.branch heading children :: rest)
        (.branch heading' children' :: rest)
  | later {edit : Edit} {definition : Definition} {offset offset' : Nat} {child : Element encoding}
      {rest rest' : List (Element encoding)} :
      Edited edit definition (offset + child.octets.length) (offset' + child.octets.length) rest
        rest' →
      Edited edit definition offset offset' (child :: rest) (child :: rest')

inductive EditedIn (schema : Schema) (edit : Edit) (offset : Nat) :
    Element encoding → Element encoding → Prop where
  | top {definition : Definition} {heading heading' : Heading encoding}
      {children children' : List (Element encoding)} :
      schema.root? heading.tag = some definition → heading'.tag = heading.tag →
      Edited edit definition (offset + heading.octets.length) (offset + heading'.octets.length)
        children children' →
      EditedIn schema edit offset (.branch heading children) (.branch heading' children')

theorem Edited.branches {edit : Edit} {definition : Definition} {offset offset' : Nat}
    {children children' : List (Element encoding)}
    (edited : Edited edit definition offset offset' children children') :
    definition.constructed? = some true := by
  induction edited with
  | replaced known => exact Definition.branches_of_select known
  | inserted unknown => exact Definition.branches_of_select unknown
  | inside known => exact Definition.branches_of_select known
  | later _ ih => exact ih

end Element

namespace Account

open Definition (Selection SameShape)
open Element (Edited Tolerable TolerableAll)

variable {encoding : TagEncoding} {mandatory : Bool} {edit : Edit} {definition : Definition}
  {offset offset' : Nat} {selected : List Selection}

theorem accept_congr {tag tag' : Tag} (same : tag.key = tag'.key) (definition : Definition)
    (selected : List Selection) :
    definition.accept selected tag = definition.accept selected tag' := by
  rw [Definition.accept, Definition.accept, Definition.select_congr same]

section

variable {child : Element encoding} {rest : List (Element encoding)} {selection : Selection}

theorem ofChildren_accepted
    (accepted : definition.accept selected child.heading.tag = some selection) (path : String) :
    ofChildren mandatory path definition offset selected (child :: rest) =
      ofElement mandatory path selection.definition offset child ++
        ofChildren mandatory path definition (offset + child.octets.length)
          (selected ++ [selection]) rest := by
  rw [ofChildren, accepted]
  rfl

theorem tolerableAll_accepted
    (accepted : definition.accept selected child.heading.tag = some selection) :
    TolerableAll definition selected (child :: rest) ↔
      Tolerable selection.definition child ∧
        TolerableAll definition (selected ++ [selection]) rest := by
  rw [TolerableAll, accepted]
  rfl

theorem acceptAll_accepted
    (accepted : definition.accept selected child.heading.tag = some selection) :
    definition.acceptAll selected ((child :: rest).map (·.heading.tag)) =
      definition.acceptAll (selected ++ [selection]) (rest.map (·.heading.tag)) := by
  rw [List.map_cons, Definition.acceptAll, accepted]
  rfl

/-- A child of which no issue is told was selected. -/
theorem accepted_of_issues {path : String}
    (none_told :
      issues (ofChildren mandatory path definition offset selected (child :: rest)) = []) :
    ∃ selection, definition.accept selected child.heading.tag = some selection ∧
      issues (ofElement mandatory path selection.definition offset child) = [] ∧
      issues (ofChildren mandatory path definition (offset + child.octets.length)
        (selected ++ [selection]) rest) = [] := by
  cases chosen : definition.accept selected child.heading.tag with
  | none =>
      rw [ofChildren, chosen, issues_append, List.append_eq_nil_iff] at none_told
      exact absurd none_told.1 (issues_leftOut_ne_nil _ _ _)
  | some selection =>
      rw [ofChildren_accepted chosen, issues_append, List.append_eq_nil_iff] at none_told
      exact ⟨selection, rfl, none_told⟩

end

/-- Where an element stands shows in offsets only. -/
theorem resembles_self (element : Element encoding) (definition : Definition) (path : String)
    (offset offset' : Nat) :
    Resembles (ofElement mandatory path definition offset element)
      (ofElement mandatory path definition offset' element) := by
  obtain ⟨selection, found, resembles⟩ := @resembles_ofElement _ _ mandatory _ _ _ _ _ _
    ⟨none, definition⟩ (Element.Parallel.refl (fun _ => some ⟨none, definition⟩) [element]) rfl
  cases found
  exact resembles path offset offset'

theorem resembles_rest (rest : List (Element encoding)) (definition : Definition) (path : String)
    (offset offset' : Nat) (selected : List Selection) :
    Resembles (ofChildren mandatory path definition offset selected rest)
      (ofChildren mandatory path definition offset' selected rest) :=
  (resembles_ofChildren (Element.Parallel.refl definition.finds rest) rfl rfl rfl path offset
    offset' rfl).1

/-- An element that is to be primitive becomes null if it is not. -/
theorem shows_replaced (primitive : definition.constructed? = some false) {child : Element encoding}
    {path : String} (none_told : issues (ofElement mandatory path definition offset child) = [])
    (heading : Heading encoding) (inside : List (Element encoding)) :
    (Edit.replaced definition.type child.content offset offset').ShowsIn
      (ofElement mandatory path definition offset child)
      (ofElement mandatory path definition offset' (.branch heading inside)) := by
  cases child with
  | leaf own value =>
      rw [ofElement, ofElement, if_neg (by simp [primitive]), if_pos primitive]
      exact ⟨Walk.extendPath path definition.name, _, [], [], [], [], rfl, rfl, rfl, rfl, rfl⟩
  | branch own children =>
      rw [ofElement, if_pos primitive] at none_told
      cases none_told

theorem shows_inserted (path : String) (definition : Definition) (header : Header) :
    (Edit.inserted header.offset).ShowsIn [] (leftOut path definition header) := by
  obtain ⟨⟨_, _, cause, _⟩, rfl, rfl, told⟩ := leftOut_eq path definition header
  rw [told]
  exact ⟨_, cause, [], [], [], [], rfl, rfl, rfl, rfl, rfl⟩

/-- What is to be shown of the children of an element before and after a change. -/
def Absorbs (mandatory : Bool) (edit : Edit) (path : String) (definition : Definition)
    (offset offset' : Nat) (selected : List Selection)
    (children children' : List (Element encoding)) : Prop :=
  issues (ofChildren mandatory path definition offset selected children) = [] →
    edit.ShowsIn (ofChildren mandatory path definition offset selected children)
        (ofChildren mandatory path definition offset' selected children') ∧
      TolerableAll definition selected children' ∧
      definition.acceptAll selected (children.map (·.heading.tag)) =
        definition.acceptAll selected (children'.map (·.heading.tag))

/-- A change inside an element shows in the account of it as in that of its children. -/
theorem shows_ofElement (branches : definition.constructed? = some true)
    {heading heading' : Heading encoding} {children children' : List (Element encoding)}
    {path : String}
    (inside : Absorbs mandatory edit (Walk.extendPath path definition.name) definition
      (offset + heading.octets.length) (offset' + heading'.octets.length) [] children children')
    (none_told :
      issues (ofElement mandatory path definition offset (.branch heading children)) = []) :
    edit.ShowsIn (ofElement mandatory path definition offset (.branch heading children))
        (ofElement mandatory path definition offset' (.branch heading' children')) ∧
      Tolerable definition (.branch heading' children') := by
  rw [ofElement_followed branches, issues_cons, List.append_eq_nil_iff, issues_append,
    List.append_eq_nil_iff] at none_told
  obtain ⟨shows, tolerable, selected_eq⟩ := inside none_told.2.1
  refine ⟨?_, ?_⟩
  · rw [ofElement_followed branches, ofElement_followed branches, ← selected_eq]
    have entered : Resembles [.event (.enter definition (heading.header offset))]
        [.event (.enter definition (heading'.header offset'))] := ⟨rfl, rfl⟩
    have closed (path : String) (selected : List Selection) :
        Resembles (closing mandatory path definition (heading.header offset) selected ++
            [.event .leave])
          (closing mandatory path definition (heading'.header offset') selected ++
            [.event .leave]) :=
      (resembles_closing rfl rfl).append (.refl _)
    exact (shows.append_right (closed _ _) none_told.2.2).append_left entered rfl
  · rw [Tolerable]
    exact fun _ => tolerable

/-- A change of one child, or inside it, after which it is selected as before. -/
theorem absorbs_child {child child' : Element encoding} {rest : List (Element encoding)}
    {path : String}
    (same : child'.heading.tag.key = child.heading.tag.key)
    (changed : ∀ selection, definition.select child.heading.tag = .ok (some selection) →
      issues (ofElement mandatory path selection.definition offset child) = [] →
      edit.ShowsIn (ofElement mandatory path selection.definition offset child)
          (ofElement mandatory path selection.definition offset' child') ∧
        Tolerable selection.definition child') :
    Absorbs mandatory edit path definition offset offset' selected (child :: rest)
      (child' :: rest) := by
  intro none_told
  obtain ⟨selection, accepted, own, others⟩ := accepted_of_issues none_told
  have accepted' : definition.accept selected child'.heading.tag = some selection :=
    (accept_congr same definition selected).trans accepted
  obtain ⟨shows, tolerable⟩ := changed selection (Definition.select_of_accept accepted) own
  refine ⟨?_, ?_, ?_⟩
  · rw [ofChildren_accepted accepted, ofChildren_accepted accepted']
    exact shows.append_right (resembles_rest _ _ _ _ _ _) others
  · exact (tolerableAll_accepted accepted').2 ⟨tolerable, tolerable_of_issues_all rest others⟩
  · rw [acceptAll_accepted accepted, acceptAll_accepted accepted']

/-- A leaf that is not known is left out. -/
theorem absorbs_inserted {heading : Heading encoding}
    (unknown : definition.select heading.tag = .ok none)
    (primitive : heading.tag.constructed = false) (value : Octets) (rest : List (Element encoding))
    (path : String) :
    Absorbs mandatory (.inserted offset') path definition offset offset' selected rest
      (.leaf heading value :: rest) := by
  intro none_told
  have refused : definition.accept selected (Element.leaf heading value).heading.tag = none := by
    rw [Element.heading, Definition.accept, unknown]
  refine ⟨?_, ?_, ?_⟩
  · rw [ofChildren, refused, Option.toList_none, List.append_nil]
    exact (shows_inserted path definition (heading.header offset')).append_right
      (resembles_rest _ _ _ _ _ _) none_told
  · rw [TolerableAll, refused, Option.toList_none, List.append_nil]
    exact ⟨primitive, tolerable_of_issues_all rest none_told⟩
  · rw [List.map_cons, Definition.acceptAll, refused, Option.toList_none, List.append_nil]

/-- A change among the children that come after one that stays. -/
theorem absorbs_later {child : Element encoding} {rest rest' : List (Element encoding)}
    {path : String}
    (later : ∀ selected, Absorbs mandatory edit path definition (offset + child.octets.length)
      (offset' + child.octets.length) selected rest rest') :
    Absorbs mandatory edit path definition offset offset' selected (child :: rest)
      (child :: rest') := by
  intro none_told
  obtain ⟨selection, accepted, own, others⟩ := accepted_of_issues none_told
  obtain ⟨shows, tolerable, selected_eq⟩ := later _ others
  refine ⟨?_, ?_, ?_⟩
  · rw [ofChildren_accepted accepted, ofChildren_accepted accepted]
    exact shows.append_left (resembles_self _ _ _ _ _) own
  · exact (tolerableAll_accepted accepted).2 ⟨tolerable_of_issues child own, tolerable⟩
  · rw [acceptAll_accepted accepted, acceptAll_accepted accepted, selected_eq]

/-- A change among children, or inside one of them, shows in one place only, and what is selected
stays as it was. -/
theorem absorbs_edited {children children' : List (Element encoding)}
    (edited : Edited edit definition offset offset' children children')
    (formed' : Element.FormedAll children') (selected : List Selection) (path : String) :
    Absorbs mandatory edit path definition offset offset' selected children children' := by
  induction edited generalizing selected path with
  | replaced known primitive same =>
      refine absorbs_child same fun selection known' own => ?_
      cases known.symm.trans known'
      exact ⟨shows_replaced primitive own _ _, by simp [Tolerable, primitive]⟩
  | inserted unknown =>
      rw [Element.FormedAll, Element.Formed] at formed'
      exact absorbs_inserted unknown formed'.1 _ _ path
  | inside known same edited ih =>
      rw [Element.FormedAll, Element.Formed] at formed'
      refine absorbs_child (congrArg Tag.key same) fun selection known' own => ?_
      cases known.symm.trans known'
      exact shows_ofElement edited.branches (ih formed'.1.2 [] _) own
  | later _ ih =>
      rw [Element.FormedAll] at formed'
      exact absorbs_later fun selected => ih formed'.2 selected path

/-- A change inside a record shows in one place of its account, and what it leaves can be got
through with recovery. -/
theorem shows_editedIn {schema : Schema} {top top' : Element encoding}
    (edited : Element.EditedIn schema edit offset top top') (formed' : top'.Formed)
    (root : schema.root? top.heading.tag = some definition)
    (none_told : issues (ofElement mandatory "" definition offset top) = []) :
    schema.root? top'.heading.tag = some definition ∧ top'.Tolerable definition ∧
      ¬top'.Misformed definition ∧
      edit.ShowsIn (ofElement mandatory "" definition offset top)
        (ofElement mandatory "" definition offset top') := by
  cases edited with
  | @top definition' heading heading' children children' known same edited =>
      cases root.symm.trans known
      rw [Element.Formed] at formed'
      obtain ⟨shows, tolerable⟩ := shows_ofElement edited.branches
        (absorbs_edited edited formed'.2 [] _) none_told
      refine ⟨(congrArg schema.root? same).trans known, tolerable, ?_, shows⟩
      rw [Element.Misformed, edited.branches, Element.heading, formed'.1]
      exact nofun

end Account

end BerRecords
