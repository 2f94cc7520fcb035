import BerRecords.Proofs.Definition.Named
import BerRecords.Proofs.Walk.Following
import BerRecords.Proofs.Walk.Script

/-!
# The account of an element

What a walk tells of an element that it gets through, as a recursion over the element
and its definition. Names need not show here: paths are put together as a walk does it.
-/

set_option autoImplicit false

namespace BerRecords

namespace Definition

/-- What a child with this tag is selected as, after those selected before it. A choice
selects no second child. -/
def accept (definition : Definition) (selected : List Selection) (tag : Tag) : Option Selection :=
  match definition.select tag with
  | .ok (some selection) =>
    if definition.isChoice && !selected.isEmpty then none else some selection
  | _ => none

def acceptAll (definition : Definition) (selected : List Selection) : List Tag → List Selection
  | [] => selected
  | tag :: rest => acceptAll definition (selected ++ (definition.accept selected tag).toList) rest

theorem select_of_accept {definition : Definition} {selected : List Selection} {tag : Tag}
    {selection : Selection} (chosen : definition.accept selected tag = some selection) :
    definition.select tag = .ok (some selection) := by
  rw [accept] at chosen
  split at chosen
  · rename_i found claimed
    split at chosen
    · cases chosen
    · cases chosen
      exact claimed
  · cases chosen

theorem Named.accept {definition : Definition} {selected : List Selection} {tag : Tag}
    {selection : Selection} (named : definition.Named)
    (chosen : definition.accept selected tag = some selection) : selection.definition.Named :=
  named.select (select_of_accept chosen)

end Definition

namespace Account

variable {encoding : TagEncoding}

def replaced (path : String) (definition : Definition) (header : Header) : List Telling :=
  [.issue ⟨path, header.offset,
      .mismatch ⟨header.offset, path, .wrongForm definition.type header.tag, true⟩, true⟩,
    .event (.enter definition header),
    .event (.field ⟨path, none, definition.type, header.offset⟩)]

def valued (path : String) (definition : Definition) (header : Header) (value : Octets) :
    List Telling :=
  [.event (.enter definition header),
    .event (.field ⟨path, some value, definition.type, header.offset⟩)]

def leftOut (path : String) (definition : Definition) (header : Header) : List Telling :=
  match definition.select header.tag with
  | .ok (some selection) =>
    [.issue ⟨Walk.innerPath path selection.definition.name, header.offset,
      .mismatch ⟨header.offset, path, .secondAlternative definition.name header.tag, true⟩, false⟩]
  | _ =>
    [.issue ⟨Walk.innerPath path header.tag.text, header.offset,
      .mismatch ⟨header.offset, path, .unknownComponent definition.name header.tag, true⟩, false⟩]

/-- That is one issue, at the child, for which no null stands. -/
theorem leftOut_eq (path : String) (definition : Definition) (header : Header) :
    ∃ issue, issue.offset = header.offset ∧ issue.nulled = false ∧
      leftOut path definition header = [.issue issue] := by
  rw [leftOut]
  split
  · exact ⟨_, rfl, rfl, rfl⟩
  · exact ⟨_, rfl, rfl, rfl⟩

def unchosen (path : String) (definition : Definition) (header : Header)
    (selected : List Definition.Selection) : List Telling :=
  if definition.isChoice && selected.isEmpty then
    [.issue ⟨path, header.offset,
      .mismatch ⟨header.offset, path, .emptyChoice definition.name header.tag, true⟩, false⟩]
  else []

/-- The components, each with whether it was selected, of which it is told that they are
missing. -/
def missing (path parent : String) (offset : Nat) : List (Definition × Bool) → List Telling
  | [] => []
  | (component, seen) :: rest =>
    if seen || component.isOptional then missing path parent offset rest
    else
      let path' := Walk.innerPath path component.name
      .issue ⟨path', offset,
          .mismatch ⟨offset, path', .missingComponent parent component.name, true⟩, true⟩ ::
        .event (.missing component path' offset) :: missing path parent offset rest

def closing (mandatory : Bool) (path : String) (definition : Definition) (header : Header)
    (selected : List Definition.Selection) : List Telling :=
  unchosen path definition header selected ++
    if mandatory then
      let components := definition.components?.getD []
      missing path definition.name header.offset
        (components.zip (components.mapIdx fun place _ => selected.any (·.place = some place)))
    else []

mutual

/-- What is told of an element that starts at `offset`, in an element of this path. -/
def ofElement (mandatory : Bool) (path : String) (definition : Definition) (offset : Nat) :
    Element encoding → List Telling
  | .leaf heading value =>
    let header := heading.header offset
    let path := Walk.extendPath path definition.name
    (if definition.constructed? = some true then replaced path definition header
      else valued path definition header value) ++ [.event .leave]
  | .branch heading inside =>
    let header := heading.header offset
    let path := Walk.extendPath path definition.name
    (if definition.constructed? = some false then replaced path definition header
      else if definition.isAny then valued path definition header (Element.octetsAll inside)
      else
        let selected := definition.acceptAll [] (inside.map (·.heading.tag))
        .event (.enter definition header) ::
          (ofChildren mandatory path definition (offset + heading.octets.length) [] inside ++
            closing mandatory path definition header selected)) ++ [.event .leave]

def ofChildren (mandatory : Bool) (path : String) (definition : Definition) (offset : Nat)
    (selected : List Definition.Selection) : List (Element encoding) → List Telling
  | [] => []
  | child :: rest =>
    let chosen := definition.accept selected child.heading.tag
    (match chosen with
      | none => leftOut path definition (child.heading.header offset)
      | some selection => ofElement mandatory path selection.definition offset child) ++
      ofChildren mandatory path definition (offset + child.octets.length)
        (selected ++ chosen.toList) rest

end

end Account

def Attempt.Yields {σ α : Type} (post : α → σ → Prop) (ran : Except DecodeError α × σ) : Prop :=
  ∀ value after, ran = (.ok value, after) → post value after

theorem Attempt.Yields.bind {σ α β : Type} {first : Attempt σ α} {rest : α → Attempt σ β}
    {state : σ} {middle : α → σ → Prop} {post : β → σ → Prop}
    (front : Yields middle (first.on state))
    (back : ∀ value after, middle value after → Yields post ((rest value).on after)) :
    Yields post ((first >>= rest).on state) := by
  intro value after ran
  rw [on_bind] at ran
  rcases started : first.on state with ⟨error | given, between⟩
  · rw [started] at ran
    cases ran
  · rw [started] at ran
    exact back given between (front given between started) value after ran

theorem Attempt.Yields.ok {σ α : Type} {post : α → σ → Prop} {value : α} {state : σ}
    (holds : post value state) : Yields post (.ok value, state) := by
  rintro _ _ ⟨⟩
  exact holds

theorem Attempt.Yields.error {σ α : Type} {post : α → σ → Prop} {error : DecodeError} {state : σ} :
    Yields post ((.error error, state) : Except DecodeError α × σ) := by
  rintro _ _ ⟨⟩

namespace Walk

open Attempt (Yields)
open Telling (writer)

variable {encoding : TagEncoding} {rules : Rules} {frames : List Frame} {path outerPath : String}
  {capture : Option Capture} {script : List Telling} {definition : Definition} {header : Header}
  {selected : List Definition.Selection}

theorem tell_writer (event : FieldEvent) :
    (tell writer event).on ⟨frames, path, capture, script⟩ =
      (.ok (), ⟨frames, path, capture, script ++ [.event event]⟩) := rfl

theorem report_writer (issue : Issue) :
    (report writer issue).on ⟨frames, path, capture, script⟩ =
      (.ok (), ⟨frames, path, capture, script ++ [.issue issue]⟩) := rfl

theorem startFollowed_writer (definition : Definition) (header : Header) :
    (startFollowed writer definition header).on ⟨frames, path, capture, script⟩ =
      (.ok (), ⟨.following definition header [] path :: frames, extendPath path definition.name,
        if definition.isAny && header.constructed then some ⟨frames.length + 1, []⟩ else capture,
        script ++ [.event (.enter definition header)]⟩) := by
  rw [startFollowed, Attempt.on_bind, push_followed]
  dsimp only
  rw [Attempt.on_bind, tell_writer]
  dsimp only
  split
  · rfl
  · rfl

theorem yields_leaveOut (name : String) {mismatch : Mismatch} :
    Yields (fun found after => found = none ∧ mismatch.fieldLocal = true ∧
        after = ⟨frames, path, capture, script ++ [.issue ⟨innerPath mismatch.path name,
          mismatch.offset, .mismatch mismatch, false⟩]⟩)
      ((leaveOut rules writer name mismatch).on ⟨frames, path, capture, script⟩) := by
  rw [leaveOut]
  split
  · rename_i recovers
    rw [Attempt.on_bind, report_writer]
    exact .ok ⟨rfl, (Bool.and_eq_true_iff.1 recovers).2, rfl⟩
  · exact .error

/-- A child is selected, or left out. -/
theorem yields_resolve (branches : definition.constructed? = some true)
    (constructed : header.constructed = true) (child : Header) :
    Yields (fun found after =>
        let chosen := definition.accept selected child.tag
        found = chosen.map (·.definition) ∧
          after = ⟨.following definition header (selected ++ chosen.toList) outerPath :: frames,
            path, none, script ++ match chosen with
              | none => Account.leftOut path definition child
              | some _ => []⟩)
      ((resolve rules writer child).on
        ⟨.following definition header selected outerPath :: frames, path, none, script⟩) := by
  have unnested : (definition.constructed? ≠ some true || !header.constructed) = false := by
    simp [branches, constructed]
  rw [resolve, Attempt.on_bind, Attempt.on_get]
  dsimp only
  rw [resolveChild, Attempt.on_bind, Attempt.on_get]
  simp only [following_definition, following_header, unnested, Bool.false_eq_true, ↓reduceIte]
  rcases chosen : definition.select child.tag with error | _ | selection
  · exact .error
  · intro found after ran
    obtain ⟨rfl, primitive, rfl⟩ := yields_leaveOut _ found after ran
    dsimp only at primitive
    simp [Definition.accept, Account.leftOut, chosen, primitive]
  · dsimp only
    -- A choice takes its first child only.
    by_cases second : definition.isChoice = true ∧ selected ≠ []
    · rw [if_pos (by simp [List.length_pos_iff, second.1, second.2])]
      intro found after ran
      obtain ⟨rfl, primitive, rfl⟩ := yields_leaveOut _ found after ran
      dsimp only at primitive
      simp [Definition.accept, Account.leftOut, chosen, primitive, second.1, second.2]
    · rw [not_and'] at second
      rw [if_neg (by simpa [List.length_pos_iff] using second)]
      have first : (definition.isChoice && !selected.isEmpty) = false := by
        cases selected with
        | nil => simp
        | cons => simp [second (by simp)]
      refine .ok ?_
      simp [Definition.accept, chosen, first, count_following]

def Frame.nulled (definition : Definition) (header : Header) (outerPath : String) : Frame :=
  ⟨some definition, header, .ignored, [], 0, outerPath⟩

theorem push_ignored (definition : Definition) (header : Header) :
    (push (some definition) header .ignored).on ⟨frames, path, capture, script⟩ =
      (.ok (), ⟨.nulled definition header path :: frames, extendPath path definition.name,
        capture, script⟩) := by
  cases definition <;> simp [push, Frame.nulled, Definition.components?]

theorem yields_startMisformed (definition : Definition) (header : Header) :
    Yields (fun _ after =>
        let inner := extendPath path definition.name
        after = ⟨.nulled definition header path :: frames, inner, capture,
          script ++ Account.replaced inner definition header⟩)
      ((startMisformed rules writer definition header).on ⟨frames, path, capture, script⟩) := by
  rw [startMisformed, Attempt.on_bind, Attempt.on_get]
  dsimp only
  rw [Attempt.on_bind, push_ignored]
  dsimp only
  rw [Attempt.on_bind, Attempt.on_get]
  dsimp only
  split
  · rename_i recovers
    have below : isIdle ⟨frames, path, capture, script⟩ = false := by
      simpa using (Bool.and_eq_true_iff.1 recovers).2
    rw [Attempt.on_bind, report_writer]
    dsimp only
    rw [Attempt.on_bind, tell_writer]
    dsimp only
    rw [tell_writer]
    exact .ok (by simp [Account.replaced, below])
  · exact .error

theorem stop_nulled (definition : Definition) (header : Header) :
    (stopElement rules writer header.tag).on
        ⟨.nulled definition header outerPath :: frames, path, capture, script⟩ =
      (.ok (), ⟨frames, outerPath, capture, script ++ [.event .leave]⟩) := by
  simp [stopElement, Frame.nulled, Attempt.on_bind, tell_writer]

theorem yields_closeChoice (definition : Definition) (header : Header)
    (selected : List Definition.Selection) :
    Yields (fun _ after => after = ⟨frames, path, capture,
        script ++ Account.unchosen path definition header selected⟩)
      ((closeChoice rules writer (.following definition header selected outerPath)).on
        ⟨frames, path, capture, script⟩) := by
  simp only [closeChoice, Account.unchosen, following_definition, following_header]
  by_cases lacks : definition.isChoice = true ∧ selected = []
  · obtain ⟨choice, rfl⟩ := lacks
    simp only [choice, following_children, List.length_nil, Nat.lt_irrefl, decide_false,
      Bool.not_true, Bool.or_self, Bool.false_eq_true, List.isEmpty_nil, Bool.and_self, ↓reduceIte]
    rw [Attempt.on_bind, Attempt.on_get]
    dsimp only
    split
    · exact .ok rfl
    · exact .error
  · have settled : ¬(definition.isChoice && selected.isEmpty) = true := by simpa using lacks
    rw [if_neg settled]
    have held : selected ≠ [] ∨ definition.isChoice = false := by
      cases choice : definition.isChoice with
      | false => exact .inr rfl
      | true => exact .inl (by simpa [choice] using lacks)
    rw [if_pos (by simpa [List.length_pos_iff] using held)]
    exact .ok (by simp)

theorem yields_closeComponents (parent : String) (offset : Nat)
    (components : List (Definition × Bool)) (script : List Telling) :
    Yields (fun _ after => after = ⟨frames, path, capture,
        script ++ Account.missing path parent offset components⟩)
      ((closeComponents rules writer parent offset components).on
        ⟨frames, path, capture, script⟩) := by
  induction components generalizing script with
  | nil => exact .ok (by simp [Account.missing])
  | cons component rest ih =>
      rw [closeComponents, Account.missing]
      split
      · exact ih script
      · rw [Attempt.on_bind, Attempt.on_get]
        dsimp only
        split
        · rw [Attempt.on_bind, report_writer]
          dsimp only
          rw [Attempt.on_bind, tell_writer]
          dsimp only
          intro value after ran
          rw [ih _ value after ran]
          simp
        · exact .error

theorem yields_closeRecord (definition : Definition) (header : Header)
    (selected : List Definition.Selection) :
    Yields (fun _ after =>
        let components := definition.components?.getD []
        after = ⟨frames, path, capture, script ++ Account.missing path definition.name header.offset
          (components.zip (components.mapIdx fun place _ => selected.any (·.place = some place)))⟩)
      ((closeRecord rules writer (.following definition header selected outerPath)).on
        ⟨frames, path, capture, script⟩) := by
  cases definition with
  | record head grouping components =>
      exact yields_closeComponents head.name header.offset _ script
  | scalar | collection | choice | any =>
      exact .ok (by simp [Definition.components?, Account.missing])

theorem yields_close (definition : Definition) (header : Header)
    (selected : List Definition.Selection) :
    Yields (fun _ after => after = ⟨frames, path, capture, script ++
        Account.closing rules.mandatory path definition header selected ++ [.event .leave]⟩)
      ((close rules writer (.following definition header selected outerPath)).on
        ⟨frames, path, capture, script⟩) := by
  rw [close]
  refine (yields_closeChoice definition header selected).bind ?_
  rintro _ _ rfl
  rw [Account.closing]
  cases rules.mandatory with
  | false =>
      simp only [Bool.false_eq_true, ↓reduceIte, pure_bind, List.append_nil]
      rw [tell_writer, List.append_assoc]
      exact .ok rfl
  | true =>
      refine (yields_closeRecord definition header selected).bind ?_
      rintro _ _ rfl
      rw [tell_writer]
      exact .ok (by simp)

theorem yields_stop (definition : Definition) (header : Header)
    (selected : List Definition.Selection) :
    Yields (fun _ after => after = ⟨frames, outerPath, none, script ++
        Account.closing rules.mandatory path definition header selected ++ [.event .leave]⟩)
      ((stopElement rules writer header.tag).on
        ⟨.following definition header selected outerPath :: frames, path, none, script⟩) := by
  rw [stop_following rfl, Attempt.on_bind]
  refine (yields_close definition header selected).bind ?_
  rintro _ _ rfl
  exact .ok rfl

theorem closing_eq_nil (unstructured : definition.constructed? ≠ some true) (mandatory : Bool)
    (path : String) (header : Header) : Account.closing mandatory path definition header [] = [] := by
  cases definition with
  | scalar | any =>
      simp [Account.closing, Account.unchosen, Account.missing, Definition.isChoice,
        Definition.components?]
  | record | collection | choice => exact absurd rfl unstructured

/-- A leaf that is followed has delivered its value when it ends. -/
theorem leaf_writer (primitive : header.constructed = false) (value : Octets) :
    (do startFollowed writer definition header
        takeValue writer value
        stopElement rules writer header.tag).on ⟨frames, path, none, script⟩ =
      (stopElement rules writer header.tag).on ⟨.following definition header [] path :: frames,
        extendPath path definition.name, none,
        script ++ Account.valued (extendPath path definition.name) definition header value⟩ := by
  have delivered (script : List Telling) :
      (takeValue writer value).on ⟨.following definition header [] path :: frames,
          extendPath path definition.name, none, script⟩ =
        (.ok (), ⟨.following definition header [] path :: frames, extendPath path definition.name,
          none, script ++ [.event (.field ⟨extendPath path definition.name, some value,
            definition.type, header.offset⟩)]⟩) := by
    simp [takeValue, Attempt.on_bind, primitive, tell_writer]
  rw [Attempt.on_bind, startFollowed_writer]
  simp only [primitive, Bool.and_false, Bool.false_eq_true, ↓reduceIte]
  rw [Attempt.on_bind, delivered]
  simp [Account.valued]

/-- An element of any content delivers all of it when it ends. -/
theorem any_writer (any : definition.isAny = true) (constructed : header.constructed = true)
    (inside : List (Element encoding)) (formed : Element.FormedAll inside) (offset : Nat) :
    (do startFollowed writer definition header
        told rules writer (Element.signalsAll offset inside)
        stopElement rules writer header.tag).on ⟨frames, path, none, script⟩ =
      (stopElement rules writer header.tag).on ⟨.following definition header [] path :: frames,
        extendPath path definition.name, none,
        script ++ Account.valued (extendPath path definition.name) definition header
          (Element.octetsAll inside)⟩ := by
  have typed := Definition.type_of_isAny any
  rw [Attempt.on_bind, startFollowed_writer]
  simp only [any, constructed, Bool.and_self, ↓reduceIte]
  obtain ⟨captured, deep, content, told_inside⟩ := @told_captured _ encoding rules writer
    (extendPath path definition.name) (script ++ [.event (.enter definition header)]) inside formed
    offset (.following definition header [] path :: frames) ⟨frames.length + 1, []⟩
  have content : captured.octets = Element.octetsAll inside := by
    simpa [Capture.octets] using content
  rw [Attempt.on_bind, told_inside]
  dsimp only
  rw [stop_following rfl, stop_following rfl, Attempt.on_bind, Attempt.on_bind]
  have delivered : (closeCapture writer (.following definition header [] path)).on
      ⟨frames, extendPath path definition.name, some captured,
        script ++ [.event (.enter definition header)]⟩ =
        (.ok (), ⟨frames, extendPath path definition.name, none,
          script ++ Account.valued (extendPath path definition.name) definition header
            (Element.octetsAll inside)⟩) := by
    simp [closeCapture, Attempt.on_bind, deep, tell_writer, Account.valued, content, typed]
  rw [delivered]
  rfl

/-- An element without components of its own has only to be left when it ends. -/
theorem yields_stop_plain (unstructured : definition.constructed? ≠ some true) :
    Yields (fun _ after => after = ⟨frames, outerPath, none, script ++ [.event .leave]⟩)
      ((stopElement rules writer header.tag).on
        ⟨.following definition header [] outerPath :: frames, path, none, script⟩) := by
  have stopped := @yields_stop rules frames path outerPath script definition header []
  rwa [closing_eq_nil unstructured, List.append_nil] at stopped

theorem yields_nulled (element : Element encoding) (formed : element.Formed) (offset : Nat) :
    let header := element.heading.header offset
    Yields (fun _ after => after = ⟨frames, path, none, script ++
        (Account.replaced (extendPath path definition.name) definition header ++ [.event .leave])⟩)
      ((do startMisformed rules writer definition header
           told rules writer (element.body offset)
           stopElement rules writer header.tag).on ⟨frames, path, none, script⟩) := by
  intro header
  refine (yields_startMisformed definition header).bind ?_
  rintro _ _ rfl
  have passed (script : List Telling) := @told_body_ignored _ encoding rules writer
    (extendPath path definition.name) script element formed (.nulled definition header path) rfl offset
    rfl frames
  rw [Attempt.on_bind, passed]
  dsimp only
  rw [stop_nulled]
  exact .ok (by simp)

mutual

theorem yields_element (element : Element encoding) (formed : element.Formed)
    (definition : Definition) (frames : List Frame) (path : String) (script : List Telling)
    (offset : Nat) :
    Yields (fun _ after => after = ⟨frames, path, none,
        script ++ Account.ofElement rules.mandatory path definition offset element⟩)
      ((do startDefined rules writer definition (element.heading.header offset)
           told rules writer (element.body offset)
           stopElement rules writer element.heading.tag).on ⟨frames, path, none, script⟩) := by
  have nulled := @yields_nulled encoding rules frames path script definition element formed offset
  match element with
  | .leaf heading value =>
      have primitive : (heading.header offset).constructed = false := by
        rw [Element.Formed] at formed
        exact formed
      rw [startDefined, Element.heading, primitive, Account.ofElement]
      by_cases misformed : definition.constructed? = some true
      · rw [if_pos misformed, if_pos (by simpa using misformed)]
        exact nulled
      · rw [if_neg misformed, if_neg (by simpa using misformed), Element.body, told_value]
        have ran := @leaf_writer rules frames path script definition _ primitive value
        rw [← List.append_assoc]
        exact ran ▸ yields_stop_plain misformed
  | .branch heading inside =>
      rw [Element.Formed] at formed
      have constructed : (heading.header offset).constructed = true := formed.1
      rw [startDefined, Element.heading, constructed, Account.ofElement]
      by_cases misformed : definition.constructed? = some false
      · rw [if_pos misformed, if_pos (by simpa using misformed)]
        exact nulled
      · have fits : ¬definition.constructed? = some !true := misformed
        simp only [misformed, fits, ↓reduceIte, Element.body]
        cases any : definition.isAny with
        | true =>
            have unstructured : definition.constructed? ≠ some true := by
              simp [Definition.constructed?_eq_none_iff.2 any]
            have ran := @any_writer encoding rules frames path script definition _ any constructed
              inside formed.2 (offset + heading.octets.length)
            simp only [↓reduceIte, ← List.append_assoc]
            exact ran ▸ yields_stop_plain unstructured
        | false =>
            have branches := Definition.constructed?_of_isAny_eq_false misformed any
            simp only [Bool.false_eq_true, ↓reduceIte]
            rw [Attempt.on_bind, startFollowed_writer]
            simp only [any, Bool.false_and, Bool.false_eq_true, ↓reduceIte]
            refine (yields_children inside formed.2 branches constructed [] frames path _ _
              _).bind ?_
            rintro _ _ rfl
            intro value after ran
            rw [yields_stop definition (heading.header offset) _ value after ran]
            simp

/-- The children of an element that is followed. -/
theorem yields_children (children : List (Element encoding)) (formed : Element.FormedAll children)
    {definition : Definition} {header : Header} (branches : definition.constructed? = some true)
    (constructed : header.constructed = true) (selected : List Definition.Selection)
    (frames : List Frame) (outerPath path : String) (script : List Telling) (offset : Nat) :
    Yields (fun _ after => after = ⟨.following definition header
          (definition.acceptAll selected (children.map (·.heading.tag))) outerPath :: frames, path, none,
        script ++ Account.ofChildren rules.mandatory path definition offset selected children⟩)
      ((told rules writer (Element.signalsAll offset children)).on
        ⟨.following definition header selected outerPath :: frames, path, none, script⟩) := by
  match children with
  | [] =>
      rw [Element.signalsAll, Account.ofChildren, List.append_nil]
      exact .ok rfl
  | child :: rest =>
      rw [Element.FormedAll] at formed
      rw [told_elements, Attempt.on_bind, startElement_on _ (by simp), ← Attempt.on_bind,
        bind_assoc, Account.ofChildren, List.map_cons, Definition.acceptAll]
      refine (yields_resolve branches constructed _).bind ?_
      rintro _ _ ⟨rfl, rfl⟩
      have tagged : (child.heading.header offset).tag = child.heading.tag := rfl
      simp only [tagged]
      cases chosen : definition.accept selected child.heading.tag with
      | none =>
          have passed := @told_body_ignored _ encoding rules writer path
            (script ++ Account.leftOut path definition (child.heading.header offset)) child formed.1
            (.bare (child.heading.header offset) .ignored path) rfl offset rfl
            (.following definition header selected outerPath :: frames)
          have stops := @stop_bare _ rules writer
            (.following definition header selected outerPath :: frames) path none
            (script ++ Account.leftOut path definition (child.heading.header offset))
            (child.heading.header offset) .ignored path child.heading.tag rfl (by decide)
          simp only [Option.map_none, Option.toList_none, List.append_nil]
          rw [Attempt.on_bind, push_bare]
          simp only [Attempt.on_bind, passed, stops]
          intro value after ran
          rw [yields_children rest formed.2 branches constructed selected frames outerPath path _ _
            value after ran]
          simp
      | some selection =>
          have followed := yields_element child formed.1 selection.definition
            (.following definition header (selected ++ [selection]) outerPath :: frames) path script
            offset
          simp only [Option.map_some, Option.toList_some, List.append_nil]
          have grouped := @Yields.bind _ _ _ _ (fun _ => told rules writer (Element.signalsAll
            (offset + child.octets.length) rest)) _ _ _ followed (by
              rintro _ _ rfl
              exact yields_children rest formed.2 branches constructed (selected ++ [selection])
                frames outerPath path _ _)
          intro value after ran
          rw [grouped value after (by simpa only [bind_assoc] using ran)]
          simp

end

/-- A whole record. -/
theorem yields_record (element : Element encoding) (formed : element.Formed) (offset : Nat) :
    Yields (fun _ after => ∃ definition,
        rules.schema.root? element.heading.tag = some definition ∧
          after = start (Account.ofElement rules.mandatory "" definition offset element))
      ((told rules writer (element.signals offset)).on (start [])) := by
  have parts : told rules writer (element.signals offset) = (do
      startElement rules writer (element.heading.header offset)
      told rules writer (element.body offset)
      stopElement rules writer element.heading.tag) := by
    simp [told, Element.signals_eq, Visitor.tell, Visitor.tell_append, visitor]
  rw [parts, start, Attempt.on_bind, startElement_on _ (by simp), ← Attempt.on_bind, bind_assoc,
    Attempt.on_bind]
  cases root : rules.schema.root? element.heading.tag with
  | none =>
      simp only [resolve, Heading.header, Attempt.on_bind, Attempt.on_get, root]
      exact .error
  | some definition =>
      have resolved : (resolve rules writer (element.heading.header offset)).on
          ⟨[], "", none, []⟩ = (.ok (some definition), ⟨[], "", none, []⟩) := by
        simp [resolve, Heading.header, Attempt.on_bind, root]
      rw [resolved]
      intro value after ran
      exact ⟨definition, rfl, yields_element element formed definition [] "" [] offset value after ran⟩

end Walk

end BerRecords
