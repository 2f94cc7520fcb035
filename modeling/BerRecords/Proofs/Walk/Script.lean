import BerRecords.Records

/-!
# Scripts

All that a walk tells its sink, written down. On any sink a walk does what it does where
it is only written down, and the sink hears the script, unless it refuses.
-/

set_option autoImplicit false

namespace BerRecords

inductive Telling where
  | event (event : FieldEvent)
  | issue (issue : Issue)

namespace Telling

/-- The offset of what is told; that an element ends is told without one. -/
def place? : Telling → Option Nat
  | event (.enter _ header) => some header.offset
  | event (.field field) => some field.offset
  | event (.missing _ _ offset) => some offset
  | event .leave => none
  | issue noted => some noted.offset

def field? : Telling → Option Field
  | event (.field field) => some field
  | event (.missing definition path offset) => some (.ofMissing definition path offset)
  | _ => none

def issue? : Telling → Option Issue
  | event _ => none
  | issue noted => some noted

def writer : Sink (List Telling) where
  receive event := modify (· ++ [.event event])
  note issue script := script ++ [.issue issue]

end Telling

namespace Sink

variable {σ : Type} (sink : Sink σ)

def hear : List Telling → Attempt σ Unit
  | [] => return ()
  | .event event :: rest => do
    sink.receive event
    hear rest
  | .issue issue :: rest => do
    modify (sink.note issue)
    hear rest

theorem hear_append (front back : List Telling) :
    sink.hear (front ++ back) = (do sink.hear front; sink.hear back) := by
  induction front with
  | nil => rfl
  | cons telling front ih =>
      cases telling with
      | event event => simp [hear, ih]
      | issue issue => simp [hear, ih]

def Refuses (error : DecodeError) : Prop :=
  ∃ event before after, (sink.receive event).on before = (.error error, after)

variable {sink}

theorem Refuses.of_recording {error : DecodeError} (refuses : (Recording.sink sink).Refuses error) :
    sink.Refuses error := by
  obtain ⟨event, before, after, refused⟩ := refuses
  have same := congrArg Prod.fst refused
  exact ⟨event, before.inner, _, Prod.ext same rfl⟩

theorem heard_append {front back : List Telling} {state middle after : σ}
    (heard : (sink.hear front).on state = (.ok (), middle))
    (heard' : (sink.hear back).on middle = (.ok (), after)) :
    (sink.hear (front ++ back)).on state = (.ok (), after) := by
  rw [hear_append, Attempt.on_bind, heard]
  exact heard'

end Sink

namespace Walk

variable {σ α β : Type}

/-- A run on a sink beside the same run where all is written down: both end alike, what is
told in between is placed where it should be, and the sink has heard it. Or the sink has
heard some of it and refused what came next. -/
inductive Echoes (sink : Sink σ) (placed : Nat → Prop) (script : List Telling) (state : σ) :
    Except DecodeError α × Walk (List Telling) → Except DecodeError α × Walk σ → Prop where
  | heard {result : Except DecodeError α} {frames : List Frame} {path : String}
      {capture : Option Capture} {told : List Telling} {after : σ} :
      (∀ error, result = .error error → ∀ offset ∈ error.offset?, placed offset) →
      (∀ telling ∈ told, ∀ offset ∈ telling.place?, placed offset) →
      (sink.hear told).on state = (.ok (), after) →
      Echoes sink placed script state (result, ⟨frames, path, capture, script ++ told⟩)
        (result, ⟨frames, path, capture, after⟩)
  | refused {ran : Except DecodeError α × Walk (List Telling)} {error : DecodeError}
      {walk : Walk σ} {told more : List Telling} {event : FieldEvent} {before : σ} :
      ran.2.sink = script ++ (told ++ .event event :: more) →
      (sink.hear told).on state = (.ok (), before) →
      (sink.receive event).on before = (.error error, walk.sink) →
      Echoes sink placed script state ran (.error error, walk)

def Echoing (sink : Sink σ) (placed : Nat → Prop) (attempt : Attempt (Walk (List Telling)) α)
    (attempt' : Attempt (Walk σ) α) : Prop :=
  ∀ frames path capture script state, Echoes sink placed script state
    (attempt.on ⟨frames, path, capture, script⟩) (attempt'.on ⟨frames, path, capture, state⟩)

variable {rules : Rules} {sink : Sink σ} {placed : Nat → Prop} {script : List Telling} {state : σ}
  {frames : List Frame} {path : String} {capture : Option Capture}

namespace Echoes

theorem silent {result : Except DecodeError α}
    (harmless : ∀ error, result = .error error → ∀ offset ∈ error.offset?, placed offset) :
    Echoes sink placed script state (result, ⟨frames, path, capture, script⟩)
      (result, ⟨frames, path, capture, state⟩) := by
  have kept := @heard _ α sink placed script state result frames path capture [] state harmless
    (by simp) rfl
  rwa [List.append_nil] at kept

theorem done (value : α) :
    Echoes sink placed script state (.ok value, ⟨frames, path, capture, script⟩)
      (.ok value, ⟨frames, path, capture, state⟩) := by
  refine silent ?_
  rintro _ ⟨⟩

theorem failed {error : DecodeError} (inside : ∀ offset ∈ error.offset?, placed offset) :
    Echoes sink placed script state
      ((.error error, ⟨frames, path, capture, script⟩) : Except DecodeError α × _)
      (.error error, ⟨frames, path, capture, state⟩) := by
  refine silent ?_
  rintro _ ⟨⟩
  exact inside

/-- What was written down before stays as it is. -/
theorem grows {ran : Except DecodeError α × Walk (List Telling)}
    {ran' : Except DecodeError α × Walk σ} (echoes : Echoes sink placed script state ran ran') :
    ∃ told, ran.2.sink = script ++ told := by
  cases echoes with
  | heard => exact ⟨_, rfl⟩
  | refused written => exact ⟨_, written⟩

theorem bind {first : Attempt (Walk (List Telling)) α} {first' : Attempt (Walk σ) α}
    {rest : α → Attempt (Walk (List Telling)) β} {rest' : α → Attempt (Walk σ) β}
    {walk : Walk (List Telling)} {walk' : Walk σ}
    (front : Echoes sink placed script state (first.on walk) (first'.on walk'))
    (back : ∀ value, Echoing sink placed (rest value) (rest' value)) :
    Echoes sink placed script state ((first >>= rest).on walk) ((first' >>= rest').on walk') := by
  rw [Attempt.on_bind, Attempt.on_bind]
  generalize first.on walk = ran at front ⊢
  generalize first'.on walk' = ran' at front ⊢
  cases front with
  | @refused _ _ _ told more event _ written heard received =>
      rcases ran with ⟨error | value, ⟨frames, path, capture, script'⟩⟩
      · exact .refused written heard received
      · -- What comes after the refusal is written down, but the sink is not told of it.
        obtain ⟨later, grown⟩ := (back value frames path capture script' state).grows
        dsimp only at written
        rw [written, List.append_assoc, List.append_assoc, List.cons_append, ← written] at grown
        exact .refused grown heard received
  | @heard result frames path capture told after harmless inside heard =>
      cases result with
      | error error =>
          refine .heard ?_ inside heard
          rintro _ ⟨⟩
          exact harmless error rfl
      | ok value =>
          have later := back value frames path capture (script ++ told) after
          dsimp only
          generalize (rest value).on _ = ran at later ⊢
          generalize (rest' value).on _ = ran' at later ⊢
          cases later with
          | refused written heard' received =>
              rw [List.append_assoc, ← List.append_assoc told] at written
              exact .refused written (Sink.heard_append heard heard') received
          | heard harmless' inside' heard' =>
              rw [List.append_assoc]
              refine .heard harmless' ?_ (Sink.heard_append heard heard')
              intro telling member
              rcases List.mem_append.1 member with member | member
              · exact inside telling member
              · exact inside' telling member

end Echoes

namespace Echoing

theorem pure (value : α) : Echoing sink placed (Pure.pure value) (Pure.pure value) :=
  fun _ _ _ _ _ => .done value

theorem throw {error : DecodeError} (inside : ∀ offset ∈ error.offset?, placed offset) :
    Echoing sink placed (MonadExcept.throw error : Attempt _ α) (MonadExcept.throw error) :=
  fun _ _ _ _ _ => .failed inside

theorem bind {first : Attempt (Walk (List Telling)) α} {first' : Attempt (Walk σ) α}
    {rest : α → Attempt (Walk (List Telling)) β} {rest' : α → Attempt (Walk σ) β}
    (front : Echoing sink placed first first')
    (back : ∀ value, Echoing sink placed (rest value) (rest' value)) :
    Echoing sink placed (first >>= rest) (first' >>= rest') :=
  fun frames path capture script state => (front frames path capture script state).bind back

theorem ite {condition : Prop} [Decidable condition] {first second : Attempt (Walk (List Telling)) α}
    {first' second' : Attempt (Walk σ) α} (yes : condition → Echoing sink placed first first')
    (no : ¬condition → Echoing sink placed second second') :
    Echoing sink placed (if condition then first else second)
      (if condition then first' else second') := by
  split
  · exact yes ‹_›
  · exact no ‹_›

end Echoing

theorem echoing_tell {event : FieldEvent}
    (inside : ∀ offset ∈ (Telling.event event).place?, placed offset) :
    Echoing sink placed (tell Telling.writer event) (tell sink event) := by
  intro frames path capture script state
  have told : (tell sink event).on ⟨frames, path, capture, state⟩ =
      (((sink.receive event).on state).1,
        ⟨frames, path, capture, ((sink.receive event).on state).2⟩) := rfl
  rw [told]
  rcases received : (sink.receive event).on state with ⟨error | ⟨⟩, after⟩
  · have written : script ++ [.event event] = script ++ ([] ++ .event event :: []) := rfl
    exact .refused written rfl received
  · refine @Echoes.heard _ _ sink placed script state (.ok ()) frames path capture [.event event]
      after ?_ (by simpa using inside) ?_
    · rintro _ ⟨⟩
    · rw [Sink.hear, Attempt.on_bind, received]
      rfl

theorem echoing_report {issue : Issue} (inside : placed issue.offset) :
    Echoing sink placed (report Telling.writer issue) (report sink issue) := by
  intro frames path capture script state
  refine @Echoes.heard _ _ sink placed script state (.ok ()) frames path capture [.issue issue] _
    ?_ (by simpa [Telling.place?] using inside) rfl
  rintro _ ⟨⟩

theorem echoing_push (definition : Option Definition) (header : Header) (mode : Mode) :
    Echoing sink placed (push definition header mode) (push definition header mode) :=
  fun _ _ _ _ _ => .done ()

theorem echoing_leaveOut (name : String) {mismatch : Mismatch} (inside : placed mismatch.offset) :
    Echoing sink placed (leaveOut rules Telling.writer name mismatch)
      (leaveOut rules sink name mismatch) := by
  rw [leaveOut, leaveOut]
  split
  · exact (echoing_report inside).bind fun _ => .pure none
  · exact .throw (by simpa [DecodeError.offset?] using inside)

theorem echoing_resolveChild {header : Header} (inside : placed header.offset) (parent : Frame)
    (outer : List Frame) :
    Echoing sink placed (resolveChild rules Telling.writer header parent outer)
      (resolveChild rules sink header parent outer) := by
  intro frames path capture script state
  rw [resolveChild, resolveChild, Attempt.on_bind, Attempt.on_bind, Attempt.on_get, Attempt.on_get]
  dsimp only
  split
  · split
    · exact .failed (by simpa [DecodeError.offset?] using inside)
    · split
      · exact .failed (by simp [DecodeError.offset?])
      · exact echoing_leaveOut _ inside _ _ _ _ _
      · split
        · exact echoing_leaveOut _ inside _ _ _ _ _
        · exact .done _
  · exact .failed (by simp [DecodeError.offset?])

theorem echoing_resolve {header : Header} (inside : placed header.offset) :
    Echoing sink placed (resolve rules Telling.writer header) (resolve rules sink header) := by
  intro frames path capture script state
  rw [resolve, resolve, Attempt.on_bind, Attempt.on_bind, Attempt.on_get, Attempt.on_get]
  dsimp only
  split
  · exact echoing_resolveChild inside _ _ _ _ _ _ _
  · split
    · exact .done _
    · exact .failed (by simpa [DecodeError.offset?] using inside)

theorem echoing_startMisformed (definition : Definition) {header : Header}
    (inside : placed header.offset) :
    Echoing sink placed (startMisformed rules Telling.writer definition header)
      (startMisformed rules sink definition header) := by
  intro frames path capture script state
  rw [startMisformed, startMisformed, Attempt.on_bind, Attempt.on_bind, Attempt.on_get,
    Attempt.on_get]
  refine (echoing_push _ _ _ _ _ _ _ _).bind fun _ inner path capture script state => ?_
  rw [Attempt.on_bind, Attempt.on_bind, Attempt.on_get, Attempt.on_get]
  refine Echoing.ite (fun _ => ?_) (fun _ => ?_) _ _ _ _ _
  · refine (echoing_report inside).bind fun _ => ?_
    refine (echoing_tell (by simpa [Telling.place?] using inside)).bind fun _ => ?_
    exact echoing_tell (by simpa [Telling.place?] using inside)
  · exact .throw (by simpa [DecodeError.offset?] using inside)

theorem echoing_startFollowed (definition : Definition) {header : Header}
    (inside : placed header.offset) :
    Echoing sink placed (startFollowed Telling.writer definition header)
      (startFollowed sink definition header) := by
  rw [startFollowed, startFollowed]
  refine (echoing_push _ _ _).bind fun _ => ?_
  refine (echoing_tell (by simpa [Telling.place?] using inside)).bind fun _ => ?_
  exact .ite (fun _ _ _ _ _ _ => .done _) (fun _ => .pure _)

theorem echoing_startElement {header : Header} (inside : placed header.offset) :
    Echoing sink placed (startElement rules Telling.writer header)
      (startElement rules sink header) := by
  intro frames path capture script state
  rw [startElement, startElement, Attempt.on_bind, Attempt.on_bind, Attempt.on_get, Attempt.on_get]
  cases capture with
  | some capture => exact .done _
  | none =>
      refine Echoing.ite (fun _ => echoing_push _ _ _) (fun _ => ?_) _ _ _ _ _
      refine (echoing_resolve inside).bind fun found => ?_
      cases found with
      | none => exact echoing_push _ _ _
      | some definition =>
          exact .ite (fun _ => echoing_startMisformed definition inside)
            (fun _ => echoing_startFollowed definition inside)

theorem echoes_takeValue (inside : ∀ frame ∈ frames.head?, placed frame.header.offset)
    (octets : Octets) :
    Echoes sink placed script state
      ((takeValue Telling.writer octets).on ⟨frames, path, capture, script⟩)
      ((takeValue sink octets).on ⟨frames, path, capture, state⟩) := by
  rw [takeValue, takeValue, Attempt.on_bind, Attempt.on_bind, Attempt.on_get, Attempt.on_get]
  rcases frames with _ | ⟨⟨definition, header, mode, seen, children, outerPath⟩, outer⟩
  · exact .failed (by simp [DecodeError.offset?])
  · have inside : placed header.offset := inside _ rfl
    dsimp only
    split
    · exact .failed (by simp [DecodeError.offset?])
    · cases mode with
      | captured => exact .done _
      | ignored => exact .done _
      | followed =>
          cases definition with
          | none => exact .failed (by simp [DecodeError.offset?])
          | some definition => exact echoing_tell (by simpa [Telling.place?] using inside) _ _ _ _ _

section

variable {frame : Frame} (inside : placed frame.header.offset)

include inside

theorem echoing_closeCapture :
    Echoing sink placed (closeCapture Telling.writer frame) (closeCapture sink frame) := by
  intro frames path capture script state
  rw [closeCapture, closeCapture, Attempt.on_bind, Attempt.on_bind, Attempt.on_get, Attempt.on_get]
  cases capture with
  | none => exact .done _
  | some capture =>
      dsimp only
      split
      · exact echoing_tell (by simpa [Telling.place?] using inside) _ _ _ _ _
      · exact .done _

theorem echoing_closeChoice :
    Echoing sink placed (closeChoice rules Telling.writer frame) (closeChoice rules sink frame) := by
  rw [closeChoice, closeChoice]
  split
  · exact .pure _
  · refine .ite (fun _ => .pure _) fun _ => ?_
    intro frames path capture script state
    rw [Attempt.on_bind, Attempt.on_bind, Attempt.on_get, Attempt.on_get]
    exact Echoing.ite (fun _ => echoing_report inside)
      (fun _ => .throw (by simpa [DecodeError.offset?] using inside)) _ _ _ _ _

omit inside

theorem echoing_closeComponents (parent : String) {offset : Nat} (inside : placed offset)
    (components : List (Definition × Bool)) :
    Echoing sink placed (closeComponents rules Telling.writer parent offset components)
      (closeComponents rules sink parent offset components) := by
  induction components with
  | nil => exact .pure _
  | cons component rest ih =>
      rw [closeComponents, closeComponents]
      refine .ite (fun _ => ih) fun _ => ?_
      intro frames path capture script state
      rw [Attempt.on_bind, Attempt.on_bind, Attempt.on_get, Attempt.on_get]
      refine Echoing.ite (fun _ => ?_) (fun _ => ?_) _ _ _ _ _
      · refine (echoing_report inside).bind fun _ => ?_
        exact (echoing_tell (by simpa [Telling.place?] using inside)).bind fun _ => ih
      · exact .throw (by simpa [DecodeError.offset?] using inside)

include inside

theorem echoing_closeRecord :
    Echoing sink placed (closeRecord rules Telling.writer frame) (closeRecord rules sink frame) := by
  rw [closeRecord, closeRecord]
  split
  · exact echoing_closeComponents _ inside _
  · exact .pure _

theorem echoing_stopFollowed :
    Echoing sink placed (stopFollowed rules Telling.writer frame) (stopFollowed rules sink frame) := by
  have left : Echoing sink placed (tell Telling.writer .leave) (tell sink .leave) :=
    echoing_tell (by simp [Telling.place?])
  rw [stopFollowed, stopFollowed]
  refine (echoing_closeCapture inside).bind fun _ => ?_
  refine (echoing_closeChoice inside).bind fun _ => ?_
  exact .ite (fun _ => (echoing_closeRecord inside).bind fun _ => left) (fun _ => left)

end

theorem echoes_stopElement (inside : ∀ frame ∈ frames.head?, placed frame.header.offset)
    (tag : Tag) :
    Echoes sink placed script state
      ((stopElement rules Telling.writer tag).on ⟨frames, path, capture, script⟩)
      ((stopElement rules sink tag).on ⟨frames, path, capture, state⟩) := by
  rw [stopElement, stopElement, Attempt.on_bind, Attempt.on_bind, Attempt.on_get, Attempt.on_get]
  rcases frames with _ | ⟨frame, outer⟩
  · exact .failed (by simp [DecodeError.offset?])
  · have inside : placed frame.header.offset := inside _ rfl
    have settle : Echoing sink placed
        (modify fun walk : Walk (List Telling) => { walk with path := frame.outerPath })
        (modify fun walk : Walk σ => { walk with path := frame.outerPath }) :=
      fun _ _ _ _ _ => .done _
    dsimp only
    split
    · exact .failed (by simp [DecodeError.offset?])
    · rw [Attempt.on_bind, Attempt.on_bind, Attempt.on_set, Attempt.on_set]
      dsimp only
      split
      · exact settle _ _ _ _ _
      · refine Echoing.ite (fun _ => ?_) (fun _ => settle) _ _ _ _ _
        exact (echoing_tell (by simp [Telling.place?])).bind fun _ => settle
      · exact (echoing_stopFollowed inside _ _ _ _ _).bind fun _ => settle

/-- A signal is echoed if the element that it is about is placed where it should be. -/
theorem echoes_visitor (signal : Signal) (starts : ∀ header, signal = .start header → placed header.offset)
    (inside : ∀ frame ∈ frames.head?, placed frame.header.offset) :
    Echoes sink placed script state
      ((visitor rules Telling.writer signal).on ⟨frames, path, capture, script⟩)
      ((visitor rules sink signal).on ⟨frames, path, capture, state⟩) := by
  cases signal with
  | start header => exact echoing_startElement (starts header rfl) _ _ _ _ _
  | value octets => exact echoes_takeValue inside octets
  | stop tag => exact echoes_stopElement inside tag

end Walk

end BerRecords
