import BerRecords.Proofs.Walk.Account
import BerRecords.Schema

/-!
# What becomes of every element inside a record

A schema is asked for the elements of a record from the top down, but not for those inside
an element of any content, inside one for which null stands, or inside one left out. What is
told of an element that the schema was asked for is one part of the account of the record,
and the other parts are about other places.
-/

set_option autoImplicit false

namespace BerRecords

variable {encoding : TagEncoding}

namespace Element

/-- The first element stands at `offset`, and the other one, at its own place, is the same
or lies inside it. -/
inductive Holds (outer : Element encoding) (offset : Nat) : Element encoding → Nat → Prop where
  | itself : Holds outer offset outer offset
  | child {heading : Heading encoding} {front back : List (Element encoding)}
      {child : Element encoding} {place : Nat} :
      Holds outer offset (.branch heading (front ++ child :: back)) place →
      Holds outer offset child (place + heading.octets.length + (octetsAll front).length)

def spans (element : Element encoding) (offset position : Nat) : Bool :=
  offset ≤ position && position < offset + element.octets.length

def Misformed (element : Element encoding) (definition : Definition) : Prop :=
  definition.constructed? = some (!element.heading.tag.constructed)

end Element

/-- What a schema makes of the elements of a record that it is asked for: each one is of a
definition, or it is left out. -/
inductive Resolves (schema : Schema) (top : Element encoding) (offset : Nat) :
    Element encoding → Nat → Option Definition → Prop where
  | top {definition : Definition} : schema.root? top.heading.tag = some definition →
      Resolves schema top offset top offset (some definition)
  | child {heading : Heading encoding} {front back : List (Element encoding)}
      {child : Element encoding} {place : Nat} {definition : Definition} :
      Resolves schema top offset (.branch heading (front ++ child :: back)) place
        (some definition) →
      definition.constructed? = some true →
      Resolves schema top offset child (place + heading.octets.length + (Element.octetsAll front).length)
        ((definition.accept (definition.acceptAll [] (front.map (·.heading.tag)))
          child.heading.tag).map (·.definition))

namespace Element

variable {top outer inner : Element encoding} {offset place : Nat}

theorem octetsAll_append (front back : List (Element encoding)) :
    octetsAll (front ++ back) = octetsAll front ++ octetsAll back := by
  induction front with
  | nil => rw [List.nil_append, octetsAll, List.nil_append]
  | cons element front ih => rw [List.cons_append, octetsAll, octetsAll, ih, List.append_assoc]

/-- An element inside another one is a part of its octets. -/
theorem Holds.slice (holds : outer.Holds offset inner place) :
    ∃ front back, outer.octets = front ++ (inner.octets ++ back) ∧
      place = offset + front.length := by
  induction holds with
  | itself => exact ⟨[], [], by simp, rfl⟩
  | @child heading front back child place _ ih =>
      obtain ⟨before, after, same, stands⟩ := ih
      refine ⟨before ++ (heading.octets ++ octetsAll front), octetsAll back ++ after, ?_, ?_⟩
      · rw [same, octets, octetsAll_append, octetsAll]
        simp only [List.append_assoc]
      · rw [stands]
        simp only [List.length_append, Nat.add_assoc]

theorem Holds.within (holds : outer.Holds offset inner place) :
    offset ≤ place ∧ place + inner.octets.length ≤ offset + outer.octets.length := by
  obtain ⟨front, back, same, rfl⟩ := holds.slice
  rw [same, List.length_append, List.length_append]
  omega

theorem FormedAll.of_append {front back : List (Element encoding)}
    (formed : FormedAll (front ++ back)) : FormedAll back := by
  induction front with
  | nil => exact formed
  | cons element front ih =>
      rw [List.cons_append, FormedAll] at formed
      exact ih formed.2

theorem Holds.formed (holds : outer.Holds offset inner place) (formed : outer.Formed) :
    inner.Formed := by
  induction holds with
  | itself => exact formed
  | child _ ih =>
      rw [Formed] at ih
      have inside := ih.2.of_append
      rw [FormedAll] at inside
      exact inside.1

end Element

namespace Account

/-- All that a script tells is about places from `start` on and before `stop`. -/
def Lies (start stop : Nat) (script : List Telling) : Prop :=
  ∀ telling ∈ script, ∀ offset ∈ telling.place?, start ≤ offset ∧ offset < stop

def Avoids (start stop : Nat) (script : List Telling) : Prop :=
  ∀ telling ∈ script, ∀ offset ∈ telling.place?, offset < start ∨ stop ≤ offset

variable {start stop : Nat} {front back script : List Telling}

theorem Lies.nil : Lies start stop [] := by
  simp [Lies]

theorem Lies.append (lies : Lies start stop front) (lies' : Lies start stop back) :
    Lies start stop (front ++ back) := by
  intro telling member
  rcases List.mem_append.1 member with member | member
  · exact lies telling member
  · exact lies' telling member

theorem Lies.mono {start' stop' : Nat} (lies : Lies start stop script) (before : start' ≤ start)
    (after : stop ≤ stop') : Lies start' stop' script := by
  intro telling member offset placed
  obtain ⟨lower, upper⟩ := lies telling member offset placed
  exact ⟨Nat.le_trans before lower, Nat.lt_of_lt_of_le upper after⟩

theorem Lies.avoids {start' stop' : Nat} (lies : Lies start' stop' script)
    (apart : stop' ≤ start ∨ stop ≤ start') : Avoids start stop script := by
  intro telling member offset placed
  obtain ⟨lower, upper⟩ := lies telling member offset placed
  omega

theorem Avoids.append (avoids : Avoids start stop front) (avoids' : Avoids start stop back) :
    Avoids start stop (front ++ back) := by
  intro telling member
  rcases List.mem_append.1 member with member | member
  · exact avoids telling member
  · exact avoids' telling member

theorem Avoids.mono {start' stop' : Nat} (avoids : Avoids start stop script)
    (before : start ≤ start') (after : stop' ≤ stop) : Avoids start' stop' script := by
  intro telling member offset placed
  have apart := avoids telling member offset placed
  omega

section

variable (path : String) (definition : Definition) (header : Header)

theorem lies_replaced : Lies header.offset (header.offset + 1) (replaced path definition header) := by
  simp [Lies, replaced, Telling.place?]

theorem lies_valued (value : Octets) :
    Lies header.offset (header.offset + 1) (valued path definition header value) := by
  simp [Lies, valued, Telling.place?]

theorem lies_leftOut : Lies header.offset (header.offset + 1) (leftOut path definition header) := by
  obtain ⟨issue, place_eq, -, told⟩ := leftOut_eq path definition header
  simp [told, Lies, Telling.place?, place_eq]

theorem lies_missing (parent : String) (offset : Nat) (components : List (Definition × Bool)) :
    Lies offset (offset + 1) (missing path parent offset components) := by
  induction components with
  | nil => simp [Lies, missing]
  | cons component rest ih =>
      rw [missing]
      split
      · exact ih
      · intro telling member
        simp only [List.mem_cons] at member
        rcases member with rfl | rfl | member
        · simp [Telling.place?]
        · simp [Telling.place?]
        · exact ih telling member

theorem lies_closing (mandatory : Bool) (selected : List Definition.Selection) :
    Lies header.offset (header.offset + 1) (closing mandatory path definition header selected) := by
  rw [closing]
  apply Lies.append
  · rw [unchosen]
    split
    · simp [Lies, Telling.place?]
    · exact .nil
  · split
    · exact lies_missing _ _ _ _
    · exact .nil

end

theorem lies_leave : Lies start stop [.event .leave] := by
  simp [Lies, Telling.place?]

mutual

theorem lies_ofElement (mandatory : Bool) (element : Element encoding) (path : String)
    (definition : Definition) (offset : Nat) :
    Lies offset (offset + element.octets.length)
      (ofElement mandatory path definition offset element) := by
  have some_octets := List.length_pos_iff.2 element.heading.octets_ne_nil
  have own {script : List Telling} (lies : Lies offset (offset + 1) script) :
      Lies offset (offset + element.octets.length) script :=
    lies.mono (Nat.le_refl _) (by have := element.length_octets_pos; omega)
  match element with
  | .leaf heading value =>
      rw [ofElement]
      refine .append ?_ lies_leave
      split
      · exact own (lies_replaced _ _ _)
      · exact own (lies_valued _ _ _ _)
  | .branch heading inside =>
      have children := lies_ofChildren mandatory inside
        (Walk.extendPath path definition.name) definition (offset + heading.octets.length) []
      rw [ofElement]
      refine .append ?_ lies_leave
      split
      · exact own (lies_replaced _ _ _)
      · split
        · exact own (lies_valued _ _ _ _)
        · rw [← List.singleton_append]
          refine .append ?_ (.append ?_ ?_)
          · refine own ?_
            simp [Lies, Telling.place?, Heading.header]
          · refine children.mono (by omega) ?_
            rw [Element.octets, List.length_append]
            omega
          · exact own (lies_closing _ _ _ _ _)

theorem lies_ofChildren (mandatory : Bool) (children : List (Element encoding)) (path : String)
    (definition : Definition) (offset : Nat) (selected : List Definition.Selection) :
    Lies offset (offset + (Element.octetsAll children).length)
      (ofChildren mandatory path definition offset selected children) := by
  match children with
  | [] =>
      rw [ofChildren]
      exact .nil
  | child :: rest =>
      have positive := child.length_octets_pos
      rw [ofChildren, Element.octetsAll, List.length_append]
      apply Lies.append
      · have own : Lies offset (offset + child.octets.length)
            (match definition.accept selected child.heading.tag with
              | none => leftOut path definition (child.heading.header offset)
              | some selection => ofElement mandatory path selection.definition offset child) := by
          split
          · exact (lies_leftOut _ _ _).mono (Nat.le_refl _) (by simp only [Heading.header]; omega)
          · exact lies_ofElement mandatory child path _ offset
        exact own.mono (Nat.le_refl _) (by omega)
      · exact (lies_ofChildren mandatory rest path definition _ _).mono (by omega) (by omega)

end

inductive Accounts (mandatory : Bool) (element : Element encoding) (place : Nat) :
    Option Definition → List Telling → Prop where
  | found (path : String) (definition : Definition) :
      Accounts mandatory element place (some definition)
        (ofElement mandatory path definition place element)
  | leftOut (path : String) (parent : Definition) :
      Accounts mandatory element place none
        (leftOut path parent (element.heading.header place))

variable {mandatory : Bool} {schema : Schema} {top inner : Element encoding}
  {offset place : Nat} {definition : Definition} {found : Option Definition}

/-- The account of an element whose children the schema is asked for. -/
theorem ofElement_followed (branches : definition.constructed? = some true)
    (heading : Heading encoding) (inside : List (Element encoding)) (path : String) (offset : Nat) :
    let inner := Walk.extendPath path definition.name
    ofElement mandatory path definition offset (.branch heading inside) =
      .event (.enter definition (heading.header offset)) ::
        (ofChildren mandatory inner definition (offset + heading.octets.length) [] inside ++
          (closing mandatory inner definition (heading.header offset)
            (definition.acceptAll [] (inside.map (·.heading.tag))) ++ [.event .leave])) := by
  intro inner
  have unlike : definition.isAny = false := by
    rw [Bool.eq_false_iff, ne_eq, ← Definition.constructed?_eq_none_iff, branches]
    exact Option.some_ne_none true
  rw [ofElement]
  simp [branches, unlike, inner]

theorem ofChildren_append (front back : List (Element encoding)) (path : String)
    (definition : Definition) (offset : Nat) (selected : List Definition.Selection) :
    ofChildren mandatory path definition offset selected (front ++ back) =
      ofChildren mandatory path definition offset selected front ++
        ofChildren mandatory path definition (offset + (Element.octetsAll front).length)
          (definition.acceptAll selected (front.map (·.heading.tag))) back := by
  induction front generalizing offset selected with
  | nil => simp [ofChildren, Element.octetsAll, Definition.acceptAll]
  | cons child front ih =>
      rw [List.cons_append, ofChildren, ih, ofChildren, Element.octetsAll, List.length_append,
        List.append_assoc, Nat.add_assoc]
      rfl

theorem accounts_child (path : String) (selected : List Definition.Selection) :
    Accounts mandatory inner place
      ((definition.accept selected inner.heading.tag).map (·.definition))
      (match definition.accept selected inner.heading.tag with
        | none => leftOut path definition (inner.heading.header place)
        | some selection => ofElement mandatory path selection.definition place inner) := by
  cases definition.accept selected inner.heading.tag with
  | none => exact .leftOut path definition
  | some selection => exact .found path selection.definition

/-- What is told of a child is one part of the account of its parent, and the other parts are
about other places. -/
theorem located_child (branches : definition.constructed? = some true)
    (heading : Heading encoding) (before after : List (Element encoding)) (path : String)
    (offset : Nat) :
    let place := offset + heading.octets.length + (Element.octetsAll before).length
    ∃ front own back,
      ofElement mandatory path definition offset (.branch heading (before ++ inner :: after)) =
        front ++ (own ++ back) ∧
      Accounts mandatory inner place
        ((definition.accept (definition.acceptAll [] (before.map (·.heading.tag)))
          inner.heading.tag).map (·.definition)) own ∧
      Avoids place (place + inner.octets.length) front ∧
      Avoids place (place + inner.octets.length) back := by
  intro place
  have positive := List.length_pos_iff.2 heading.octets_ne_nil
  have entered : Lies offset (offset + 1)
      [.event (.enter definition (heading.header offset))] := by
    simp [Lies, Telling.place?, Heading.header]
  have closed (path : String) (selected : List Definition.Selection) :
      Lies offset (offset + 1)
        (closing mandatory path definition (heading.header offset) selected) :=
    lies_closing _ _ _ _ _
  rw [ofElement_followed branches, ofChildren_append, ofChildren]
  generalize definition.acceptAll [] (before.map (·.heading.tag)) = selected
  generalize Walk.extendPath path definition.name = path
  have told := @accounts_child _ mandatory inner place definition path selected
  have later := lies_ofChildren mandatory after path definition (place + inner.octets.length)
    (selected ++ (definition.accept selected inner.heading.tag).toList)
  have parted (enter : Telling) (ahead own rest closing leave : List Telling) :
      enter :: (ahead ++ (own ++ rest) ++ (closing ++ leave)) =
        ([enter] ++ ahead) ++ (own ++ (rest ++ (closing ++ leave))) := by
    simp
  refine ⟨_, _, _, parted _ _ _ _ _ _, told, ?_, ?_⟩
  · apply Avoids.append
    · exact entered.avoids (.inl (by omega))
    · exact (lies_ofChildren _ _ _ _ _ _).avoids (.inl (Nat.le_refl _))
  · apply Avoids.append
    · exact later.avoids (.inr (Nat.le_refl _))
    · apply Avoids.append
      · exact (closed path _).avoids (.inl (by omega))
      · simp [Avoids, Telling.place?]

/-- The account of a record has one part that is about a certain element inside. -/
theorem located (mandatory : Bool) (root : schema.root? top.heading.tag = some definition)
    (resolves : Resolves schema top offset inner place found) :
    ∃ front own back, ofElement mandatory "" definition offset top = front ++ (own ++ back) ∧
      Accounts mandatory inner place found own ∧
        Avoids place (place + inner.octets.length) front ∧
          Avoids place (place + inner.octets.length) back := by
  induction resolves with
  | top root' =>
      cases root.symm.trans root'
      exact ⟨[], _, [], by simp, .found "" definition, by simp [Avoids], by simp [Avoids]⟩
  | @child heading before after child place parent _ branches ih =>
      obtain ⟨front, own, back, whole, accounts, avoids, avoids'⟩ := ih
      have holds : (Element.branch heading (before ++ child :: after)).Holds place child _ :=
        .child .itself
      have inside := holds.within
      cases accounts with
      | found path =>
          obtain ⟨front', own, back', whole', accounts, apart, apart'⟩ :=
            @located_child _ mandatory child parent branches heading before after path place
          -- The child lies inside its parent, so that what avoids the parent avoids the child.
          refine ⟨front ++ front', own, back' ++ back, ?_, accounts, ?_, ?_⟩
          · rw [whole, whole']
            simp only [List.append_assoc]
          · exact (avoids.mono (by omega) inside.2).append apart
          · exact apart'.append (avoids'.mono (by omega) inside.2)

end Account

end BerRecords
