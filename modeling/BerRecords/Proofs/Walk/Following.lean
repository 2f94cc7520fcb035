import BerRecords.Proofs.Linked
import BerRecords.Proofs.Walk.Meaning
import BerRecords.Proofs.Walk.Passive

/-!
# Elements of the form that their definition wants

Each operation of a walk on such an element does to the sink what the corresponding
part of the recursion does, and fails if that fails.
-/

set_option autoImplicit false

namespace BerRecords

namespace Meaning

/-- Names that a path can show. -/
def Shown (names : List String) : Prop :=
  ∀ name ∈ names, name ≠ ""

theorem Shown.append {names : List String} {name : String} (shown : Shown names)
    (visible : name ≠ "") : Shown (names ++ [name]) := by
  intro other member
  rcases List.mem_append.1 member with member | member
  · exact shown other member
  · rw [List.mem_singleton.1 member]
    exact visible

theorem path_append {names : List String} (inside : names ≠ []) (name : String) :
    path (names ++ [name]) = Walk.innerPath (path names) name := by
  rw [path, String.intercalate_append_of_ne_nil inside (by simp), String.intercalate_singleton]
  rfl

theorem path_isEmpty {names : List String} (shown : Shown names) :
    (path names).isEmpty = names.isEmpty := by
  cases names with
  | nil => rfl
  | cons name names =>
      have visible := shown name (.head _)
      cases names with
      | nil => simpa [path] using visible
      | cons other names => simp [path, String.intercalate_cons_cons]

theorem extendPath_path {names : List String} (shown : Shown names) (name : String) :
    Walk.extendPath (path names) name = path (names ++ [name]) := by
  rw [Walk.extendPath, path_isEmpty shown]
  cases names with
  | nil => simp [path]
  | cons first names =>
      rw [path_append (by simp)]
      rfl

end Meaning

namespace Walk

variable {σ : Type}

def Fails (error : DecodeError) (walk : Walk σ) (error' : DecodeError) (state : σ) : Prop :=
  error = error' ∧ walk.sink = state

/-- A run of a walk does what a run on its sink alone does, and a value of the latter
tells the value and the walk of the former. -/
abbrev Mirrors {α β : Type} (after : β → σ → α × Walk σ) :
    Except DecodeError α × Walk σ → Except DecodeError β × σ → Prop :=
  Attempt.Linked Fails fun value walk value' state => (value, walk) = after value' state

theorem Mirrors.bind {α β γ δ : Type} {first : Attempt (Walk σ) α} {first' : Attempt σ β}
    {rest : α → Attempt (Walk σ) γ} {rest' : β → Attempt σ δ} {walk : Walk σ} {state : σ}
    {after : β → σ → α × Walk σ} {last : δ → σ → γ × Walk σ}
    (mirrors : Mirrors after (first.on walk) (first'.on state))
    (later : ∀ value state', first'.on state = (.ok value, state') →
      Mirrors last ((rest (after value state').1).on (after value state').2)
        ((rest' value).on state')) :
    Mirrors last ((first >>= rest).on walk) ((first' >>= rest').on state) := by
  rw [Attempt.on_bind, Attempt.on_bind]
  generalize first.on walk = ran at mirrors ⊢
  generalize first'.on state = ran' at mirrors later ⊢
  cases mirrors with
  | error related => exact .error related
  | ok same =>
      obtain ⟨rfl, rfl⟩ := Prod.ext_iff.1 same
      exact later _ _ rfl

variable {rules : Rules} {sink : Sink σ} {frames : List Frame} {path : String}
  {capture : Option Capture} {state : σ}

theorem mirrors_tell (event : FieldEvent) :
    Mirrors (fun _ state => ((), ⟨frames, path, capture, state⟩))
      ((tell sink event).on ⟨frames, path, capture, state⟩) ((sink.receive event).on state) := by
  have told : (tell sink event).on ⟨frames, path, capture, state⟩ =
      (((sink.receive event).on state).1,
        ⟨frames, path, capture, ((sink.receive event).on state).2⟩) := rfl
  rw [told]
  rcases (sink.receive event).on state with ⟨error | value, after⟩
  · exact .error ⟨rfl, rfl⟩
  · exact .ok rfl

/-- A change of the walk that leaves the sink alone may follow. -/
theorem Mirrors.adjust {first : Attempt (Walk σ) Unit} {walk : Walk σ} {β : Type}
    {ran' : Except DecodeError β × σ} {after : β → σ → Walk σ}
    (mirrors : Mirrors (fun value state => ((), after value state)) (first.on walk) ran')
    (change : Walk σ → Walk σ) :
    Mirrors (fun value state => ((), change (after value state)))
      ((do first; modify change).on walk) ran' := by
  rw [Attempt.on_bind]
  generalize first.on walk = ran at mirrors ⊢
  cases mirrors with
  | error related => exact .error related
  | ok same =>
      cases same
      exact .ok rfl

theorem mirrors_report (issue : Issue) :
    Mirrors (fun _ state => ((), ⟨frames, path, capture, state⟩))
      ((report sink issue).on ⟨frames, path, capture, state⟩) ((Meaning.note sink issue).on state) :=
  .ok rfl

def Frame.following (definition : Definition) (header : Header)
    (selected : List Definition.Selection) (outerPath : String) : Frame where
  definition := some definition
  header := header
  mode := .followed
  seen := (definition.components?.getD []).mapIdx fun place _ =>
    selected.any (·.place = some place)
  children := selected.length
  outerPath := outerPath

section

variable (definition : Definition) (header : Header) (selected : List Definition.Selection)
  (outerPath : String)

@[simp] theorem following_definition :
    (Frame.following definition header selected outerPath).definition = some definition := rfl

@[simp] theorem following_header :
    (Frame.following definition header selected outerPath).header = header := rfl

@[simp] theorem following_mode :
    (Frame.following definition header selected outerPath).mode = .followed := rfl

@[simp] theorem following_outerPath :
    (Frame.following definition header selected outerPath).outerPath = outerPath := rfl

@[simp] theorem following_children :
    (Frame.following definition header selected outerPath).children = selected.length := rfl

end

theorem push_followed (definition : Definition) (header : Header) :
    (push (some definition) header .followed).on ⟨frames, path, capture, state⟩ =
      (.ok (), ⟨.following definition header [] path :: frames, extendPath path definition.name,
        capture, state⟩) := by
  have none_seen (components : List Definition) :
      components.map (fun _ => false) = components.mapIdx fun _ _ => false := by
    apply List.ext_getElem <;> simp
  cases definition <;> simp [push, Frame.following, Definition.components?, none_seen]

def startDefined (rules : Rules) (sink : Sink σ) (definition : Definition) (header : Header) :
    Attempt (Walk σ) Unit :=
  if definition.constructed? = some (!header.constructed) then
    startMisformed rules sink definition header
  else startFollowed sink definition header

theorem startElement_on (header : Header)
    (attended : frames.head?.map (·.mode) ≠ some .ignored) :
    (startElement rules sink header).on ⟨frames, path, none, state⟩ =
      (do match ← resolve rules sink header with
          | none => push none header .ignored
          | some definition => startDefined rules sink definition header).on
        ⟨frames, path, none, state⟩ := by
  rw [startElement, Attempt.on_bind, Attempt.on_get]
  simp only [attended, ↓reduceIte]
  rfl

/-- An element starts to be followed; if any content will do, capturing begins. -/
theorem mirrors_startFollowed (definition : Definition) (header : Header) :
    Mirrors (fun _ state => ((), ⟨.following definition header [] path :: frames,
        extendPath path definition.name,
        if definition.isAny && header.constructed then some ⟨frames.length + 1, []⟩ else capture,
        state⟩))
      ((startFollowed sink definition header).on ⟨frames, path, capture, state⟩)
      ((sink.receive (.enter definition header)).on state) := by
  rw [startFollowed, Attempt.on_bind, push_followed]
  dsimp only
  cases definition.isAny && header.constructed with
  | false =>
      have entered := @mirrors_tell _ sink (.following definition header [] path :: frames)
        (extendPath path definition.name) capture state (.enter definition header)
      simpa using entered
  | true =>
      have entered := (@mirrors_tell _ sink (.following definition header [] path :: frames)
        (extendPath path definition.name) capture state (.enter definition header)).adjust
          fun walk => { walk with capture := some ⟨walk.frames.length, []⟩ }
      simpa using entered

theorem count_following (definition : Definition) (header : Header)
    (selected : List Definition.Selection) (outerPath : String) (selection : Definition.Selection) :
    (Frame.following definition header selected outerPath).count selection =
      .following definition header (selected ++ [selection]) outerPath := by
  simp only [Frame.count, Frame.following, List.length_append, List.length_singleton,
    Frame.mk.injEq, true_and, and_true]
  cases placed : selection.place with
  | none => simp [placed]
  | some place =>
      apply List.ext_getElem
      · simp
      · intro position _ _
        by_cases same : place = position
        · simp [same, placed]
        · simp [same, placed]

theorem linked_leaveOut {names : List String} (inside : names ≠ []) (name : String)
    (header : Header) (cause : Disagreement) :
    Attempt.Linked Fails
      (fun found walk choice state => found = none ∧ choice = none ∧
        walk = ⟨frames, Meaning.path names, capture, state⟩)
      ((leaveOut rules sink name
        ⟨header.offset, Meaning.path names, cause, !header.constructed⟩).on
          ⟨frames, Meaning.path names, capture, state⟩)
      ((Meaning.leaveOut rules sink names name header cause).on state) := by
  cases recovers : rules.recover && !header.constructed with
  | false =>
      simp only [leaveOut, Meaning.leaveOut, recovers, Bool.false_eq_true, ↓reduceIte]
      exact .error ⟨rfl, rfl⟩
  | true =>
      simp only [leaveOut, Meaning.leaveOut, recovers, ↓reduceIte, Attempt.on_bind,
        Meaning.path_append inside]
      exact .ok ⟨rfl, rfl, rfl⟩

def within (definition : Definition) (header : Header) (outerPath : String) (frames : List Frame)
    (names : List String) (selected : List Definition.Selection) (state : σ) : Walk σ :=
  ⟨.following definition header selected outerPath :: frames, Meaning.path names, none, state⟩

def found (walk : List Definition.Selection → σ → Walk σ) (selected : List Definition.Selection)
    (choice : Option Definition.Selection) (state : σ) : Option Definition × Walk σ :=
  match choice with
  | none => (none, walk selected state)
  | some selection => (some selection.definition, walk (selected ++ [selection]) state)

theorem mirrors_resolve {definition : Definition} {header : Header}
    {selected : List Definition.Selection} {outerPath : String} {names : List String}
    (branches : definition.constructed? = some true) (constructed : header.constructed = true)
    (inside : names ≠ []) (child : Header) :
    let walk := within definition header outerPath frames names
    Mirrors (found walk selected) ((resolve rules sink child).on (walk selected state))
      ((Meaning.choose rules sink names definition selected child).on state) := by
  intro walk
  have leaves (name : String) (cause : Disagreement) :
      Mirrors (found walk selected)
        ((leaveOut rules sink name
          ⟨child.offset, Meaning.path names, cause, !child.constructed⟩).on (walk selected state))
        ((Meaning.leaveOut rules sink names name child cause).on state) := by
    refine (linked_leaveOut inside name child cause).mono ?_
    rintro _ _ _ state' ⟨rfl, rfl, rfl⟩
    rfl
  have resolved : (resolve rules sink child).on (walk selected state) =
      (resolveChild rules sink child (.following definition header selected outerPath)
        frames).on (walk selected state) := by
    simp [resolve, walk, within, Attempt.on_bind]
  have unnested : (definition.constructed? ≠ some true || !header.constructed) = false := by
    simp [branches, constructed]
  rw [resolved, Meaning.choose]
  simp only [resolveChild, Attempt.on_bind, Attempt.on_get]
  simp only [following_definition, following_header, unnested, Bool.false_eq_true, ↓reduceIte]
  rcases definition.select child.tag with error | none | selection
  · exact .error ⟨rfl, rfl⟩
  · exact leaves _ _
  · dsimp only
    by_cases second : definition.isChoice = true ∧ selected ≠ []
    · rw [if_pos (by simp [List.length_pos_iff, second.1, second.2]), if_pos (by simp [second.1, second.2])]
      exact leaves _ _
    · rw [not_and'] at second
      rw [if_neg (by simpa [List.length_pos_iff] using second), if_neg (by simpa [and_comm] using second)]
      refine .ok ?_
      simp [found, walk, within, count_following]

/-- A choice that ends is checked. -/
theorem mirrors_closeChoice (definition : Definition) (header : Header)
    (selected : List Definition.Selection) (outerPath : String) (names : List String) :
    Mirrors (fun _ state => ((), ⟨frames, Meaning.path names, capture, state⟩))
      ((closeChoice rules sink (.following definition header selected outerPath)).on
        ⟨frames, Meaning.path names, capture, state⟩)
      ((Meaning.checkChoice rules sink names definition selected header).on state) := by
  simp only [closeChoice, Meaning.checkChoice, following_definition, following_header]
  by_cases lacks : definition.isChoice = true ∧ selected = []
  · rw [if_neg (by simp [lacks.1, lacks.2]), if_pos (by simp [lacks.1, lacks.2])]
    cases recovers : rules.recover with
    | false => exact .error ⟨rfl, rfl⟩
    | true => exact .ok rfl
  · have settled : selected ≠ [] ∨ definition.isChoice = false := by
      cases choice : definition.isChoice with
      | false => exact .inr rfl
      | true => exact .inl (by simpa [choice] using lacks)
    rw [if_pos (by simpa [List.length_pos_iff] using settled), if_neg (by simpa using lacks)]
    exact .ok rfl

/-- The components of a record that ends are checked. -/
theorem mirrors_closeComponents {names : List String} (inside : names ≠ []) (parent : String)
    (offset : Nat) (selected : List Definition.Selection) (components : List Definition)
    (place : Nat) (state : σ) :
    Mirrors (fun _ state => ((), ⟨frames, Meaning.path names, capture, state⟩))
      ((closeComponents rules sink parent offset (components.zip
        (components.mapIdx fun index _ => selected.any (·.place = some (place + index))))).on
          ⟨frames, Meaning.path names, capture, state⟩)
      ((Meaning.checkComponents rules sink names parent offset selected place components).on
        state) := by
  induction components generalizing place state with
  | nil => exact .ok rfl
  | cons component rest ih =>
      have later := ih (place + 1)
      simp only [Nat.add_assoc, Nat.add_comm 1] at later
      simp only [List.mapIdx_cons, List.zip_cons_cons, closeComponents, Meaning.checkComponents,
        Nat.add_zero]
      split
      · exact later state
      · simp only [Attempt.on_bind, Attempt.on_get]
        rw [← Meaning.path_append inside]
        cases recovers : rules.recover with
        | false => exact .error ⟨rfl, rfl⟩
        | true =>
            refine (mirrors_report _).bind fun _ reported _ => ?_
            exact (mirrors_tell _).bind fun _ told _ => later told

/-- Only a record has components to check. -/
theorem mirrors_closeRecord {names : List String} (inside : names ≠ []) (definition : Definition)
    (header : Header) (selected : List Definition.Selection) (outerPath : String) :
    Mirrors (fun _ state => ((), ⟨frames, Meaning.path names, capture, state⟩))
      ((closeRecord rules sink (.following definition header selected outerPath)).on
        ⟨frames, Meaning.path names, capture, state⟩)
      ((Meaning.checkComponents rules sink names definition.name header.offset selected 0
        (definition.components?.getD [])).on state) := by
  cases definition with
  | record head grouping components =>
      have checked := @mirrors_closeComponents _ rules sink frames capture names inside head.name
        header.offset selected components 0 state
      simpa [closeRecord, Frame.following, Definition.components?, Definition.name,
        Definition.head] using checked
  | scalar | collection | choice | any => exact .ok rfl

def close (rules : Rules) (sink : Sink σ) (frame : Frame) : Attempt (Walk σ) Unit := do
  closeChoice rules sink frame
  (if rules.mandatory then closeRecord rules sink frame else return ())
  tell sink .leave

theorem stop_following {definition : Definition} {header : Header}
    {selected : List Definition.Selection} {outerPath : String} {tag : Tag}
    (same : header.tag = tag) :
    (stopElement rules sink tag).on
        ⟨.following definition header selected outerPath :: frames, path, capture, state⟩ =
      (do closeCapture sink (.following definition header selected outerPath)
          close rules sink (.following definition header selected outerPath)
          modify fun walk : Walk σ => { walk with path := outerPath }).on
        ⟨frames, path, capture, state⟩ := by
  subst same
  cases mandatory : rules.mandatory <;>
    simp [stopElement, stopFollowed, close, Attempt.on_bind, mandatory]

/-- After its children, an element is checked and left. -/
theorem mirrors_close {names : List String} (inside : names ≠ []) (definition : Definition)
    (header : Header) (selected : List Definition.Selection) (outerPath : String) :
    Mirrors (fun _ state => ((), ⟨frames, Meaning.path names, capture, state⟩))
      ((close rules sink (.following definition header selected outerPath)).on
        ⟨frames, Meaning.path names, capture, state⟩)
      ((do Meaning.checkSelected rules sink names definition selected header
           sink.receive .leave).on state) := by
  have recorded (state : σ) :
      Mirrors (fun _ state => ((), ⟨frames, Meaning.path names, capture, state⟩))
        ((if rules.mandatory then
            closeRecord rules sink (.following definition header selected outerPath)
          else return ()).on ⟨frames, Meaning.path names, capture, state⟩)
        ((if rules.mandatory then
            Meaning.checkComponents rules sink names definition.name header.offset selected 0
              (definition.components?.getD [])
          else return ()).on state) := by
    cases rules.mandatory with
    | false => exact .ok rfl
    | true => exact mirrors_closeRecord inside definition header selected outerPath
  simp only [close, Meaning.checkSelected, bind_assoc]
  refine (mirrors_closeChoice definition header selected outerPath names).bind fun _ checked _ => ?_
  exact (recorded checked).bind fun _ _ _ => mirrors_tell _

/-- An element that is followed ends, its content not captured. -/
theorem mirrors_stop {names : List String} (inside : names ≠ []) {definition : Definition}
    {header : Header} {selected : List Definition.Selection} {outerPath : String} {tag : Tag}
    (same : header.tag = tag) :
    Mirrors (fun _ state => ((), ⟨frames, outerPath, none, state⟩))
      ((stopElement rules sink tag).on
        (within definition header outerPath frames names selected state))
      ((do Meaning.checkSelected rules sink names definition selected header
           sink.receive .leave).on state) := by
  have closed := (@mirrors_close _ rules sink frames none state names inside definition header
    selected outerPath).adjust fun walk => { walk with path := outerPath }
  rw [within, stop_following same, Attempt.on_bind]
  exact closed

/-- Nothing is left to check of an element whose type is not built of others. -/
theorem checkSelected_eq_pure {names : List String} {definition : Definition} {header : Header}
    (unstructured : definition.constructed? ≠ some true) :
    Meaning.checkSelected rules sink names definition [] header = pure () := by
  cases definition with
  | scalar | any =>
      simp [Meaning.checkSelected, Meaning.checkChoice, Meaning.checkComponents,
        Definition.isChoice, Definition.components?]
  | record | collection | choice => exact absurd rfl unstructured

/-- An element of any content ends and its content is told. -/
theorem mirrors_stop_any {names : List String} (inside : names ≠ []) {definition : Definition}
    (any : definition.isAny = true) {header : Header} {outerPath : String} {tag : Tag}
    (same : header.tag = tag) {captured : Capture} (deep : captured.depth = frames.length + 1) :
    Mirrors (fun _ state => ((), ⟨frames, outerPath, none, state⟩))
      ((stopElement rules sink tag).on ⟨.following definition header [] outerPath :: frames,
        Meaning.path names, some captured, state⟩)
      ((do sink.receive (.field
            ⟨Meaning.path names, some captured.octets, definition.type, header.offset⟩)
           sink.receive .leave).on state) := by
  have typed := Definition.type_of_isAny any
  have unstructured : definition.constructed? ≠ some true := by
    simp [Definition.constructed?_eq_none_iff.2 any]
  have closed (state : σ) := (@mirrors_close _ rules sink frames none state names inside definition
    header [] outerPath).adjust fun walk => { walk with path := outerPath }
  simp only [checkSelected_eq_pure unstructured, pure_bind] at closed
  have delivered : (closeCapture sink (.following definition header [] outerPath)).on
      ⟨frames, Meaning.path names, some captured, state⟩ =
        (tell sink (.field ⟨Meaning.path names, some captured.octets, .any, header.offset⟩)).on
          ⟨frames, Meaning.path names, none, state⟩ := by
    simp [closeCapture, Attempt.on_bind, deep]
  rw [stop_following same, typed, Attempt.on_bind, delivered, ← Attempt.on_bind]
  exact (mirrors_tell _).bind fun _ state _ => closed state

end Walk

end BerRecords
