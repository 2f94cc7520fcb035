import BerRecords.Walk

/-!
# Signals out of place

A signal that does not fit the elements that are open fails, and that is all it does: nobody is
told, and the walk stays as it was. So in any series of signals those that are out of place can be
left away without a trace.
-/

set_option autoImplicit false

namespace BerRecords

def Sink.Accepts {σ : Type} (sink : Sink σ) : Prop :=
  ∀ event state, ((sink.receive event).on state).1 = .ok ()

namespace Walk

variable {σ τ : Type} {rules : Rules} {sink : Sink σ} {walk : Walk σ} {signal : Signal}
  {path : String} {cause : Imbalance}

def onto (state : τ) (walk : Walk σ) : Walk τ :=
  ⟨walk.frames, walk.path, walk.capture, state⟩

/-- Why a signal is out of place, and the path that is blamed. No sink has a say in it. -/
def imbalance? (walk : Walk σ) : Signal → Option (String × Imbalance)
  | .start _ =>
    match walk.capture, walk.frames with
    | none, parent :: _ =>
      if parent.mode ≠ .ignored ∧ parent.definition.isNone then some (walk.path, .noDefinition)
      else none
    | _, _ => none
  | .value _ =>
    match walk.frames with
    | [] => some ("", .valueOutside)
    | top :: _ =>
      if top.header.constructed then some (walk.path, .valueInConstructed)
      else if top.mode = .followed ∧ top.definition.isNone then some (walk.path, .noDefinition)
      else none
  | .stop tag =>
    match walk.frames with
    | [] => some ("", .closeOutside tag)
    | frame :: _ => if frame.header.tag ≠ tag then some (walk.path, .wrongClose tag) else none

/-- A signal out of place fails on every sink, and leaves walk and sink as they were. -/
theorem visitor_of_imbalance (found : walk.imbalance? signal = some (path, cause)) :
    (visitor rules sink signal).on walk = (.error (.unbalanced path cause), walk) := by
  rcases walk with ⟨frames, path', capture, state⟩
  cases signal with
  | start header =>
      rcases capture with _ | capture
      · rcases frames with _ | ⟨⟨definition, parent, mode, seen, children, outerPath⟩, outer⟩
        · cases found
        · cases definition with
          | some definition => simp [imbalance?] at found
          | none =>
              by_cases ignored : mode = .ignored
              · simp [imbalance?, ignored] at found
              · simp only [imbalance?, ignored, ne_eq, not_false_eq_true, Option.isNone_none,
                  and_self, ↓reduceIte, Option.some.injEq, Prod.mk.injEq] at found
                obtain ⟨rfl, rfl⟩ := found
                simp [visitor, startElement, resolve, resolveChild, Attempt.on_bind, ignored]
      · cases found
  | value octets =>
      rcases frames with _ | ⟨⟨definition, parent, mode, seen, children, outerPath⟩, outer⟩
      · cases found
        rfl
      · simp only [imbalance?] at found
        split at found
        · rename_i constructed
          cases found
          simp [visitor, takeValue, Attempt.on_bind, constructed]
        · rename_i primitive
          split at found
          · rename_i bare
            obtain ⟨rfl, bare⟩ := bare
            cases found
            obtain rfl := Option.isNone_iff_eq_none.1 bare
            simp [visitor, takeValue, Attempt.on_bind, primitive]
          · cases found
  | stop tag =>
      rcases frames with _ | ⟨frame, outer⟩
      · cases found
        rfl
      · simp only [imbalance?] at found
        split at found
        · rename_i other
          cases found
          simp [visitor, stopElement, Attempt.on_bind, other]
        · cases found

/-! ## Signals in place -/

def InPlace {α : Type} (ran : Except DecodeError α × Walk σ) : Prop :=
  ∀ path cause, ran.1 ≠ .error (.unbalanced path cause)

theorem inPlace_ok {α : Type} {value : α} {walk : Walk σ} : InPlace (.ok value, walk) :=
  nofun

theorem inPlace_mismatch {α : Type} {mismatch : Mismatch} {walk : Walk σ} :
    @InPlace _ α (.error (.mismatch mismatch), walk) :=
  nofun

namespace InPlace

variable {α β : Type}

theorem bind {first : Attempt (Walk σ) α} {rest : α → Attempt (Walk σ) β}
    (front : InPlace (first.on walk)) (back : ∀ value walk, InPlace ((rest value).on walk)) :
    InPlace ((first >>= rest).on walk) := by
  intro path cause
  rw [Attempt.on_bind]
  rcases ran : first.on walk with ⟨error | value, after⟩
  · rw [ran] at front
    exact fun same => front path cause (congrArg Except.error (Except.error.inj same))
  · exact back value after path cause

theorem get {rest : Walk σ → Attempt (Walk σ) α} (back : InPlace ((rest walk).on walk)) :
    InPlace ((MonadState.get >>= rest).on walk) := by
  rw [Attempt.on_bind]
  exact back

end InPlace

theorem inPlace_push (definition : Option Definition) (header : Header) (mode : Mode)
    (walk : Walk σ) : InPlace ((push definition header mode).on walk) :=
  inPlace_ok

theorem inPlace_report (issue : Issue) (walk : Walk σ) : InPlace ((report sink issue).on walk) :=
  inPlace_ok

theorem inPlace_leaveOut (name : String) (mismatch : Mismatch) (walk : Walk σ) :
    InPlace ((leaveOut rules sink name mismatch).on walk) := by
  rw [leaveOut]
  split
  · exact .bind (inPlace_report _ _) fun _ _ => inPlace_ok
  · exact inPlace_mismatch

theorem inPlace_closeChoice (frame : Frame) (walk : Walk σ) :
    InPlace ((closeChoice rules sink frame).on walk) := by
  rw [closeChoice]
  split
  · exact inPlace_ok
  · split
    · exact inPlace_ok
    · refine .get ?_
      dsimp only
      split
      · exact inPlace_report _ _
      · exact inPlace_mismatch

theorem inPlace_resolve (walk : Walk σ) (header : Header)
    (known : ∀ frame ∈ walk.frames.head?, frame.definition.isSome) :
    InPlace ((resolve rules sink header).on walk) := by
  rw [resolve]
  refine .get ?_
  split
  · rename_i parent outer frames
    rw [resolveChild]
    refine .get ?_
    dsimp only
    split
    · split
      · exact inPlace_mismatch
      · split
        · exact nofun
        · exact inPlace_leaveOut _ _ _
        · split
          · exact inPlace_leaveOut _ _ _
          · exact inPlace_ok
    · rename_i bare
      obtain ⟨definition, present⟩ :=
        Option.isSome_iff_exists.1 (known parent (by rw [frames]; rfl))
      exact absurd present (bare definition)
  · split
    · exact inPlace_ok
    · exact inPlace_mismatch

section

variable (accepts : sink.Accepts)

include accepts

theorem inPlace_tell (event : FieldEvent) (walk : Walk σ) :
    InPlace ((tell sink event).on walk) := by
  have accepted := accepts event walk.sink
  have ran : (tell sink event).on walk =
      (((sink.receive event).on walk.sink).1, walk.onto ((sink.receive event).on walk.sink).2) := rfl
  rw [ran, accepted]
  exact inPlace_ok

theorem inPlace_startMisformed (definition : Definition) (header : Header) (walk : Walk σ) :
    InPlace ((startMisformed rules sink definition header).on walk) := by
  rw [startMisformed]
  refine .get (.bind (inPlace_push _ _ _ _) fun _ walk => .get ?_)
  dsimp only
  split
  · exact .bind (inPlace_report _ _) fun _ _ =>
      .bind (inPlace_tell accepts _ _) fun _ _ => inPlace_tell accepts _ _
  · exact inPlace_mismatch

theorem inPlace_startFollowed (definition : Definition) (header : Header) (walk : Walk σ) :
    InPlace ((startFollowed sink definition header).on walk) := by
  rw [startFollowed]
  refine .bind (inPlace_push _ _ _ _) fun _ _ => .bind (inPlace_tell accepts _ _) fun _ walk => ?_
  split
  · exact inPlace_ok
  · exact inPlace_ok

theorem inPlace_closeCapture (frame : Frame) (walk : Walk σ) :
    InPlace ((closeCapture sink frame).on walk) := by
  rw [closeCapture]
  refine .get ?_
  split
  · exact inPlace_ok
  · split
    · rw [Attempt.on_bind, Attempt.on_set]
      exact inPlace_tell accepts _ _
    · exact inPlace_ok

theorem inPlace_closeComponents (parent : String) (offset : Nat)
    (components : List (Definition × Bool)) (walk : Walk σ) :
    InPlace ((closeComponents rules sink parent offset components).on walk) := by
  induction components generalizing walk with
  | nil => exact inPlace_ok
  | cons component rest ih =>
      rw [closeComponents]
      split
      · exact ih walk
      · refine .get ?_
        dsimp only
        split
        · exact .bind (inPlace_report _ _) fun _ _ =>
            .bind (inPlace_tell accepts _ _) fun _ walk => ih walk
        · exact inPlace_mismatch

theorem inPlace_closeRecord (frame : Frame) (walk : Walk σ) :
    InPlace ((closeRecord rules sink frame).on walk) := by
  rw [closeRecord]
  split
  · exact inPlace_closeComponents accepts _ _ _ _
  · exact inPlace_ok

theorem inPlace_stopFollowed (frame : Frame) (walk : Walk σ) :
    InPlace ((stopFollowed rules sink frame).on walk) := by
  rw [stopFollowed]
  refine .bind (inPlace_closeCapture accepts frame walk) fun _ walk =>
    .bind (inPlace_closeChoice frame walk) fun _ walk => ?_
  split
  · exact .bind (inPlace_closeRecord accepts frame walk) fun _ _ => inPlace_tell accepts _ _
  · exact inPlace_tell accepts _ _

/-- Only a signal out of place fails as one. -/
theorem inPlace_visitor (fits : walk.imbalance? signal = none) :
    InPlace ((visitor rules sink signal).on walk) := by
  cases signal with
  | start header =>
      rw [visitor, startElement]
      refine .get ?_
      split
      · exact inPlace_ok
      · rename_i idle
        split
        · exact inPlace_push _ _ _ _
        · rename_i attended
          refine .bind (inPlace_resolve walk header ?_) fun found walk => ?_
          · intro parent top
            obtain ⟨outer, frames⟩ := List.head?_eq_some_iff.1 top
            have followed : parent.mode ≠ .ignored := by simpa [frames] using attended
            simpa [imbalance?, idle, frames, followed, Option.isSome_iff_ne_none] using fits
          · split
            · exact inPlace_push _ _ _ _
            · split
              · exact inPlace_startMisformed accepts _ _ _
              · exact inPlace_startFollowed accepts _ _ _
  | value octets =>
      rw [visitor, takeValue]
      refine .get ?_
      split
      · rename_i frames
        simp [imbalance?, frames] at fits
      · rename_i top outer frames
        simp only [imbalance?, frames] at fits
        split at fits
        · cases fits
        · rename_i primitive
          rw [if_neg primitive]
          split
          · exact inPlace_ok
          · exact inPlace_ok
          · rename_i followed
            split
            · rename_i bare
              simp [followed, bare] at fits
            · exact inPlace_tell accepts _ _
  | stop tag =>
      rw [visitor, stopElement]
      refine .get ?_
      split
      · rename_i frames
        simp [imbalance?, frames] at fits
      · rename_i frame outer frames
        simp only [imbalance?, frames] at fits
        split at fits
        · cases fits
        · rename_i same
          rw [if_neg same, Attempt.on_bind, Attempt.on_set]
          dsimp only
          split
          · exact inPlace_ok
          · split
            · exact .bind (inPlace_tell accepts _ _) fun _ _ => inPlace_ok
            · exact inPlace_ok
          · exact .bind (inPlace_stopFollowed accepts _ _) fun _ _ => inPlace_ok

/-- A signal that fails for want of balance is out of place. -/
theorem imbalance?_of_unbalanced
    (failed : ((visitor rules sink signal).on walk).1 = .error (.unbalanced path cause)) :
    walk.imbalance? signal = some (path, cause) := by
  rcases found : walk.imbalance? signal with _ | ⟨path', cause'⟩
  · exact absurd failed (inPlace_visitor accepts found path cause)
  · rw [visitor_of_imbalance found] at failed
    cases failed
    rfl

end

/-! ## Series of signals -/

/-- Several signals, one after another, whether they fail or not: what each of them comes to, and
the last walk. -/
def attempts (rules : Rules) (sink : Sink σ) :
    List Signal → Walk σ → List (Except DecodeError Unit) × Walk σ
  | [], walk => ([], walk)
  | signal :: signals, walk =>
    let ran := (visitor rules sink signal).on walk
    let later := attempts rules sink signals ran.2
    (ran.1 :: later.1, later.2)

def isUnbalanced : Except DecodeError Unit → Bool
  | .error (.unbalanced _ _) => true
  | _ => false

theorem isUnbalanced_iff {result : Except DecodeError Unit} :
    isUnbalanced result = true ↔ ∃ path cause, result = .error (.unbalanced path cause) := by
  constructor
  · intro unbalanced
    rcases result with error | value
    · cases error with
      | unbalanced path cause => exact ⟨path, cause, rfl⟩
      | _ => cases unbalanced
    · cases unbalanced
  · rintro ⟨path, cause, rfl⟩
    rfl

theorem attempts_balanced (accepts : sink.Accepts) (signals : List Signal) (walk : Walk σ) :
    let ran := attempts rules sink signals walk
    let kept := (signals.zip ran.1).filter fun call => !isUnbalanced call.2
    attempts rules sink (kept.map Prod.fst) walk = (kept.map Prod.snd, ran.2) := by
  induction signals generalizing walk with
  | nil => rfl
  | cons signal signals ih =>
      simp only [attempts, List.zip_cons_cons]
      by_cases unbalanced : isUnbalanced ((visitor rules sink signal).on walk).1 = true
      · obtain ⟨path, cause, failed⟩ := isUnbalanced_iff.1 unbalanced
        have found := imbalance?_of_unbalanced accepts failed
        rw [List.filter_cons_of_neg (by simpa using unbalanced), visitor_of_imbalance found]
        exact ih walk
      · rw [List.filter_cons_of_pos (by simpa using unbalanced)]
        simp only [List.map_cons, attempts]
        rw [ih]

/-- On a sink that refuses nothing, a signal that fails for want of balance would fail so on every
sink, which is told nothing, and leaves the walk as it was. So without all such signals the others
come to what they came to, and the last walk is the same. -/
theorem unbalanced_leaves_no_trace (rules : Rules) {sink : Sink σ} (accepts : sink.Accepts)
    (signals : List Signal) (walk : Walk σ) :
    let ran := attempts rules sink signals walk
    (∀ front signal back path cause, signals = front ++ signal :: back →
      let before := (attempts rules sink front walk).2
      ((visitor rules sink signal).on before).1 = .error (.unbalanced path cause) →
        ((visitor rules sink signal).on before).2 = before ∧
          ∀ {τ : Type} (other : Sink τ) (state : τ),
            (visitor rules other signal).on (before.onto state) =
              (.error (.unbalanced path cause), before.onto state)) ∧
      let kept := (signals.zip ran.1).filter fun call => !isUnbalanced call.2
      attempts rules sink (kept.map Prod.fst) walk = (kept.map Prod.snd, ran.2) := by
  intro ran
  refine ⟨?_, attempts_balanced accepts signals walk⟩
  intro front signal back path cause _ before failed
  have found : before.imbalance? signal = some (path, cause) :=
    imbalance?_of_unbalanced accepts failed
  exact ⟨by rw [visitor_of_imbalance found], fun other state => visitor_of_imbalance found⟩

end Walk

theorem Collected.accepts_sink : Collected.sink.Accepts := by
  intro event state
  cases event with
  | _ => rfl

namespace Walk

/-- A message with a number, and in between a value before it, a value in it, ends of other elements
and one end too many. -/
theorem unbalanced_leaves_no_trace_in_message :
    let message : Definition := .record ⟨"msg", some .sequence, false⟩ .sequence
      [.scalar ⟨"id", some .integer, false⟩ .integer]
    let rules : Rules := ⟨⟨[message], [message], .singleOctet⟩, false, true⟩
    let outer : Header := .shortest .sequence 3 0
    let inner : Header := .shortest .integer 1 2
    let signals : List Signal := [.value [1], .start outer, .value [2], .stop .integer, .start inner,
      .stop .sequence, .value [5], .stop .integer, .stop .sequence, .stop .sequence]
    let ran := attempts rules Collected.sink signals (start Collected.empty)
    Collected.sink.Accepts ∧
      ran.1 = [.error (.unbalanced "" .valueOutside), .ok (),
        .error (.unbalanced "msg" .valueInConstructed),
        .error (.unbalanced "msg" (.wrongClose .integer)), .ok (),
        .error (.unbalanced "msg.id" (.wrongClose .sequence)), .ok (), .ok (), .ok (),
        .error (.unbalanced "" (.closeOutside .sequence))] ∧
      attempts rules Collected.sink
        [.start outer, .start inner, .value [5], .stop .integer, .stop .sequence]
        (start Collected.empty) = ([.ok (), .ok (), .ok (), .ok (), .ok ()], ran.2) := by
  intro message rules outer inner signals ran
  have results : ran.1 = [.error (.unbalanced "" .valueOutside), .ok (),
      .error (.unbalanced "msg" .valueInConstructed),
      .error (.unbalanced "msg" (.wrongClose .integer)), .ok (),
      .error (.unbalanced "msg.id" (.wrongClose .sequence)), .ok (), .ok (), .ok (),
      .error (.unbalanced "" (.closeOutside .sequence))] := by rfl
  have traceless :=
    (unbalanced_leaves_no_trace rules Collected.accepts_sink signals (start Collected.empty)).2
  rw [show (attempts rules Collected.sink signals (start Collected.empty)).1 = _ from results]
    at traceless
  exact ⟨Collected.accepts_sink, results, traceless⟩

end Walk

end BerRecords
