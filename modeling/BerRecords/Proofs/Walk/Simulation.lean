import BerRecords.Proofs.Definition.Named
import BerRecords.Proofs.Reader.Acceptance
import BerRecords.Proofs.Walk.Following

/-!
# A walk does what the elements mean

Told the signals of an element, a walk comes back to the frames it had, and its sink
is where the recursion over the tree leaves it.
-/

set_option autoImplicit false

namespace BerRecords

theorem Meaning.select_of_choose {σ : Type} {rules : Walk.Rules} {sink : Sink σ}
    {names : List String} {definition : Definition} {selected : List Definition.Selection}
    {header : Header} {state state' : σ} {selection : Definition.Selection}
    (chosen : (choose rules sink names definition selected header).on state =
      (.ok (some selection), state')) :
    definition.select header.tag = .ok (some selection) := by
  have left_out (name : String) (cause : Disagreement) :
      ((leaveOut rules sink names name header cause).on state).1 ≠ .ok (some selection) := by
    rw [leaveOut]
    split <;> simp [note, Attempt.on_map]
  rw [choose] at chosen
  split at chosen
  · cases chosen
  · exact absurd (congrArg Prod.fst chosen) (left_out _ _)
  · rename_i found chosen'
    split at chosen
    · exact absurd (congrArg Prod.fst chosen) (left_out _ _)
    · cases chosen
      exact chosen'

namespace Walk

open Element

variable {σ : Type} {encoding : TagEncoding} {rules : Rules} {sink : Sink σ}

section

variable {frames : List Frame} {names : List String} {definition : Definition} {state : σ}

/-- An element of the wrong form becomes one null field, whatever is inside it. -/
theorem mirrors_misformed (shown : Meaning.Shown names) (level : frames.isEmpty = names.isEmpty)
    (element : Element encoding) (formed : element.Formed) {offset : Nat} {header : Header}
    (same : header = element.heading.header offset) :
    Mirrors (fun _ state => ((), ⟨frames, Meaning.path names, none, state⟩))
      ((do startMisformed rules sink definition header
           told rules sink (element.body offset)
           stopElement rules sink header.tag).on ⟨frames, Meaning.path names, none, state⟩)
      ((Meaning.misformed rules sink names definition header).on state) := by
  let frame : Frame := ⟨some definition, header, .ignored, [], 0, Meaning.path names⟩
  let path := Meaning.path (names ++ [definition.name])
  have idle : isIdle ⟨frames, Meaning.path names, none, state⟩ = names.isEmpty := level
  have pushed : (push (some definition) header .ignored).on
      ⟨frames, Meaning.path names, none, state⟩ =
        (.ok (), ⟨frame :: frames, path, none, state⟩) := by
    rw [show path = extendPath (Meaning.path names) definition.name from
      (Meaning.extendPath_path shown definition.name).symm]
    cases definition <;> simp [push, frame, Definition.components?]
  have stops (state : σ) :
      Mirrors (fun _ state => ((), ⟨frames, Meaning.path names, none, state⟩))
        ((stopElement rules sink header.tag).on ⟨frame :: frames, path, none, state⟩)
        ((sink.receive .leave).on state) := by
    have left := (@mirrors_tell _ sink frames path none state .leave).adjust
      fun walk => { walk with path := Meaning.path names }
    simpa [stopElement, frame, Attempt.on_bind] using left
  have inside (state : σ) :
      (told rules sink (element.body offset)).on ⟨frame :: frames, path, none, state⟩ =
        (.ok (), ⟨frame :: frames, path, none, state⟩) :=
    told_body_ignored element formed rfl same frames
  simp only [startMisformed, Meaning.misformed, bind_assoc]
  rw [Attempt.on_bind, Attempt.on_get]
  dsimp only
  rw [Attempt.on_bind, pushed]
  dsimp only
  rw [Attempt.on_bind, Attempt.on_get]
  dsimp only
  rw [idle]
  cases recovers : rules.recover && !names.isEmpty with
  | false => exact .error ⟨rfl, rfl⟩
  | true =>
      simp only [↓reduceIte, bind_assoc]
      refine (mirrors_report _).bind fun _ state _ => ?_
      refine (mirrors_tell _).bind fun _ state _ => ?_
      refine (mirrors_tell _).bind fun _ state _ => ?_
      rw [Attempt.on_bind, inside]
      exact stops state

/-- A primitive element of the form that its definition wants becomes one field. -/
theorem mirrors_leaf (shown : Meaning.Shown names)
    (unstructured : definition.constructed? ≠ some true) {header : Header}
    (primitive : header.constructed = false) (value : Octets) :
    Mirrors (fun _ state => ((), ⟨frames, Meaning.path names, none, state⟩))
      ((do startFollowed sink definition header
           takeValue sink value
           stopElement rules sink header.tag).on ⟨frames, Meaning.path names, none, state⟩)
      ((do sink.receive (.enter definition header)
           sink.receive (.field ⟨Meaning.path (names ++ [definition.name]), some value,
             definition.type, header.offset⟩)
           sink.receive .leave).on state) := by
  have inside : names ++ [definition.name] ≠ [] := by simp
  refine (mirrors_startFollowed definition header).bind fun _ state _ => ?_
  simp only [primitive, Bool.and_false, Bool.false_eq_true, ↓reduceIte,
    Meaning.extendPath_path shown]
  have valued (state : σ) : (takeValue sink value).on (within definition header
      (Meaning.path names) frames (names ++ [definition.name]) [] state) =
        (tell sink (.field ⟨Meaning.path (names ++ [definition.name]), some value,
          definition.type, header.offset⟩)).on (within definition header (Meaning.path names)
            frames (names ++ [definition.name]) [] state) := by
    simp [takeValue, within, Attempt.on_bind, primitive]
  rw [← within, Attempt.on_bind, valued, ← Attempt.on_bind]
  refine (mirrors_tell _).bind fun _ state _ => ?_
  have stopped := @mirrors_stop _ rules sink frames state _ inside definition header []
    (Meaning.path names) header.tag rfl
  rwa [checkSelected_eq_pure unstructured, pure_bind] at stopped

/-- An element of any content becomes one field that holds the elements inside. -/
theorem mirrors_any (shown : Meaning.Shown names) (any : definition.isAny = true)
    {header : Header} (constructed : header.constructed = true)
    (children : List (Element encoding)) (formed : FormedAll children) (offset : Nat) :
    Mirrors (fun _ state => ((), ⟨frames, Meaning.path names, none, state⟩))
      ((do startFollowed sink definition header
           told rules sink (signalsAll offset children)
           stopElement rules sink header.tag).on ⟨frames, Meaning.path names, none, state⟩)
      ((do sink.receive (.enter definition header)
           sink.receive (.field ⟨Meaning.path (names ++ [definition.name]),
             some (octetsAll children), definition.type, header.offset⟩)
           sink.receive .leave).on state) := by
  have inside : names ++ [definition.name] ≠ [] := by simp
  refine (mirrors_startFollowed definition header).bind fun _ state _ => ?_
  simp only [any, constructed, Bool.and_self, ↓reduceIte, Meaning.extendPath_path shown]
  obtain ⟨captured, deep, content, told_children⟩ := @told_captured _ encoding rules sink
    (Meaning.path (names ++ [definition.name])) state children formed offset
    (.following definition header [] (Meaning.path names) :: frames) ⟨frames.length + 1, []⟩
  have content : captured.octets = octetsAll children := by
    simpa [Capture.octets] using content
  rw [Attempt.on_bind, told_children, ← content]
  exact mirrors_stop_any inside any rfl deep

end

mutual

/-- An element below a followed one, or at the top, once its definition was found. -/
theorem mirrors_element (element : Element encoding) (formed : element.Formed)
    {frames : List Frame} {names : List String} {definition : Definition} (state : σ)
    (shown : Meaning.Shown names) (named : definition.Named)
    (level : frames.isEmpty = names.isEmpty) (offset : Nat) :
    Mirrors (fun _ state => ((), ⟨frames, Meaning.path names, none, state⟩))
      ((do startDefined rules sink definition (element.heading.header offset)
           told rules sink (element.body offset)
           stopElement rules sink element.heading.tag).on
        ⟨frames, Meaning.path names, none, state⟩)
      ((Meaning.element rules sink names definition offset element).on state) := by
  match element with
  | .leaf heading value =>
      have primitive : (heading.header offset).constructed = false := by
        rw [Formed] at formed
        exact formed
      rw [startDefined, Element.heading, primitive, Meaning.element]
      by_cases misformed : definition.constructed? = some true
      · rw [if_pos (by simpa using misformed), if_pos misformed]
        exact mirrors_misformed shown level (.leaf heading value) formed rfl
      · rw [if_neg (by simpa using misformed), if_neg misformed, body, told_value]
        exact mirrors_leaf shown misformed primitive value
  | .branch heading children =>
      have wrong := @mirrors_misformed _ encoding rules sink frames names definition state shown
        level (.branch heading children) formed offset _ rfl
      rw [Formed] at formed
      have constructed : (heading.header offset).constructed = true := formed.1
      rw [startDefined, Element.heading, constructed, Meaning.element]
      by_cases misformed : definition.constructed? = some false
      · rw [if_pos (by simpa using misformed), if_pos misformed]
        exact wrong
      · rw [if_neg (by simpa using misformed), if_neg misformed, body]
        cases any : definition.isAny with
        | true =>
            simp only [↓reduceIte]
            exact mirrors_any shown any constructed children formed.2 _
        | false =>
            have branches := Definition.constructed?_of_isAny_eq_false misformed any
            have inside : names ++ [definition.name] ≠ [] := by simp
            simp only [Bool.false_eq_true, ↓reduceIte]
            refine (mirrors_startFollowed definition _).bind fun _ state _ => ?_
            simp only [any, Bool.false_and, Bool.false_eq_true, ↓reduceIte,
              Meaning.extendPath_path shown]
            refine (mirrors_children children formed.2 state (shown.append named.name_ne) named
              branches constructed inside [] _).bind fun selected state _ => ?_
            exact mirrors_stop inside rfl

/-- The elements inside one that is followed. -/
theorem mirrors_children (children : List (Element encoding)) (formed : FormedAll children)
    {frames : List Frame} {names : List String} {definition : Definition} {header : Header}
    {outerPath : String} (state : σ) (shown : Meaning.Shown names) (named : definition.Named)
    (branches : definition.constructed? = some true) (constructed : header.constructed = true)
    (inside : names ≠ []) (selected : List Definition.Selection) (offset : Nat) :
    Mirrors (fun selected state => ((), within definition header outerPath frames names selected
        state))
      ((told rules sink (signalsAll offset children)).on
        (within definition header outerPath frames names selected state))
      ((Meaning.children rules sink names definition offset selected children).on state) := by
  match children with
  | [] =>
      rw [signalsAll, Meaning.children]
      exact .ok rfl
  | child :: rest =>
      rw [FormedAll] at formed
      have later (selected : List Definition.Selection) (state : σ) :=
        @mirrors_children rest formed.2 frames names definition header outerPath state shown
          named branches constructed inside selected (offset + child.octets.length)
      rw [told_elements, Attempt.on_bind, within, startElement_on _ (by simp), ← within,
        ← Attempt.on_bind, bind_assoc, Meaning.children]
      refine (mirrors_resolve branches constructed inside _).bind fun choice state chosen => ?_
      cases choice with
      | none =>
          have passed := @told_body_ignored _ encoding rules sink (Meaning.path names) state child
            formed.1 (.bare (child.heading.header offset) .ignored (Meaning.path names)) rfl offset
            rfl (.following definition header selected outerPath :: frames)
          have stops := @stop_bare _ rules sink
            (.following definition header selected outerPath :: frames) (Meaning.path names) none
            state (child.heading.header offset) .ignored (Meaning.path names) child.heading.tag rfl
            (by decide)
          rw [found, within, Attempt.on_bind, push_bare]
          simp only [Attempt.on_bind, passed, stops]
          exact later selected state
      | some selection =>
          have followed := @mirrors_element child formed.1
            (.following definition header (selected ++ [selection]) outerPath :: frames) names _
            state shown (named.select (Meaning.select_of_choose chosen)) (by simpa using inside)
            offset
          have grouped := @Mirrors.bind _ _ _ _ _ _ _ (fun _ => told rules sink _) _ _ _ _ _
            followed fun _ state _ => later (selected ++ [selection]) state
          simpa only [found, within, bind_assoc] using grouped

end

end Walk

end BerRecords
