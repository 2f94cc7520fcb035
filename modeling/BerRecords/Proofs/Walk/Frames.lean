import BerRecords.Proofs.Definition.Named
import BerRecords.Proofs.Walk.Following

/-! What the calls of a walk do to its frames and its path, whether they fail or not. -/

set_option autoImplicit false

namespace BerRecords.Walk

variable {σ : Type} {rules : Rules} {sink : Sink σ}

def Keeps {α : Type} (attempt : Attempt (Walk σ) α) : Prop :=
  ∀ walk, (attempt.on walk).2.frames = walk.frames ∧ (attempt.on walk).2.path = walk.path

namespace Keeps

variable {α β : Type}

theorem bind {first : Attempt (Walk σ) α} {rest : α → Attempt (Walk σ) β} (front : Keeps first)
    (back : ∀ value, Keeps (rest value)) : Keeps (first >>= rest) := by
  intro walk
  have kept := front walk
  rw [Attempt.on_bind]
  rcases ran : first.on walk with ⟨error | value, after⟩
  · rw [ran] at kept
    exact kept
  · rw [ran] at kept
    have later := back value after
    exact ⟨later.1.trans kept.1, later.2.trans kept.2⟩

theorem pure (value : α) : Keeps (Pure.pure value : Attempt (Walk σ) α) :=
  fun _ => ⟨rfl, rfl⟩

theorem throw (error : DecodeError) : Keeps (MonadExcept.throw error : Attempt (Walk σ) α) :=
  fun _ => ⟨rfl, rfl⟩

theorem get : Keeps (MonadState.get : Attempt (Walk σ) (Walk σ)) :=
  fun _ => ⟨rfl, rfl⟩

theorem tell (event : FieldEvent) : Keeps (Walk.tell sink event) :=
  fun _ => ⟨rfl, rfl⟩

theorem report (issue : Issue) : Keeps (Walk.report sink issue) :=
  fun _ => ⟨rfl, rfl⟩

theorem leaveOut (name : String) (mismatch : Mismatch) :
    Keeps (Walk.leaveOut rules sink name mismatch) := by
  rw [Walk.leaveOut]
  split
  · exact (report _).bind fun _ => pure _
  · exact throw _

theorem takeValue (octets : Octets) : Keeps (Walk.takeValue sink octets) := by
  intro walk
  simp only [Walk.takeValue, Attempt.on_bind, Attempt.on_get]
  split
  · exact ⟨rfl, rfl⟩
  · split
    · exact ⟨rfl, rfl⟩
    · split
      · exact ⟨rfl, rfl⟩
      · exact ⟨rfl, rfl⟩
      · split
        · exact ⟨rfl, rfl⟩
        · exact tell _ walk

theorem closeCapture (frame : Frame) : Keeps (Walk.closeCapture sink frame) := by
  intro walk
  simp only [Walk.closeCapture, Attempt.on_bind, Attempt.on_get]
  split
  · exact ⟨rfl, rfl⟩
  · split
    · exact tell _ _
    · exact ⟨rfl, rfl⟩

theorem closeChoice (frame : Frame) : Keeps (Walk.closeChoice rules sink frame) := by
  rw [Walk.closeChoice]
  split
  · exact pure _
  · split
    · exact pure _
    · refine get.bind fun walk => ?_
      split
      · exact report _
      · exact throw _

theorem closeComponents (parent : String) (offset : Nat) (components : List (Definition × Bool)) :
    Keeps (Walk.closeComponents rules sink parent offset components) := by
  induction components with
  | nil => exact pure _
  | cons component rest ih =>
      rw [Walk.closeComponents]
      split
      · exact ih
      · refine get.bind fun walk => ?_
        dsimp only
        split
        · exact (report _).bind fun _ => (tell _).bind fun _ => ih
        · exact throw _

theorem closeRecord (frame : Frame) : Keeps (Walk.closeRecord rules sink frame) := by
  rw [Walk.closeRecord]
  split
  · exact closeComponents _ _ _
  · exact pure _

theorem stopFollowed (frame : Frame) : Keeps (Walk.stopFollowed rules sink frame) := by
  rw [Walk.stopFollowed]
  refine (closeCapture frame).bind fun _ => (closeChoice frame).bind fun _ => ?_
  split
  · exact (closeRecord frame).bind fun _ => tell _
  · exact tell _

end Keeps

/-- What the path knows of a frame: its definition, and the path around it. -/
def Frame.trace (frame : Frame) : Option Definition × String :=
  (frame.definition, frame.outerPath)

/-- A child was counted in its parent's frame at most, and its definition is one of the
schema. -/
theorem resolve_cases (named : Definition.NamedAll rules.schema.roots) (header : Header)
    (walk : Walk σ) (inside : ∀ frame ∈ walk.frames, ∀ definition ∈ frame.definition,
      definition.Named) :
    let ran := (resolve rules sink header).on walk
    ran.2.frames.map Frame.trace = walk.frames.map Frame.trace ∧ ran.2.path = walk.path ∧
      ∀ definition, ran.1 = .ok (some definition) → definition.Named := by
  intro ran
  have left_out (name : String) (mismatch : Mismatch) :
      let ran := (leaveOut rules sink name mismatch).on walk
      ran.2.frames.map Frame.trace = walk.frames.map Frame.trace ∧ ran.2.path = walk.path ∧
        ∀ definition, ran.1 = .ok (some definition) → definition.Named := by
    have kept := @Keeps.leaveOut _ rules sink name mismatch walk
    refine ⟨by rw [kept.1], kept.2, fun definition found => ?_⟩
    rw [leaveOut] at found
    split at found
    · cases found
    · cases found
  simp only [ran, resolve, Attempt.on_bind, Attempt.on_get]
  split
  · rename_i parent outer frames
    simp only [resolveChild, Attempt.on_bind, Attempt.on_get]
    split
    · rename_i definition known
      have parent_named := inside parent (by simp [frames]) definition known
      split
      · exact ⟨rfl, rfl, fun _ same => by cases same⟩
      · split
        · exact ⟨rfl, rfl, fun _ same => by cases same⟩
        · exact left_out _ _
        · rename_i selection selected
          split
          · exact left_out _ _
          · refine ⟨by simp [frames, Frame.trace, Frame.count, Attempt.on_map], rfl, fun found same => ?_⟩
            cases same
            exact parent_named.select selected
    · exact ⟨rfl, rfl, fun _ same => by cases same⟩
  · split
    · rename_i definition root
      refine ⟨rfl, rfl, fun found same => ?_⟩
      cases same
      exact named.claim root
    · exact ⟨rfl, rfl, fun _ same => by cases same⟩

/-- What a start does to frames and path: at most it adds one frame, whose name, if it has
one, it adds to the path. -/
inductive Started (walk after : Walk σ) : Prop where
  | same :
      after.frames.map Frame.trace = walk.frames.map Frame.trace → after.path = walk.path →
      Started walk after
  | nameless {frame : Frame} {outer : List Frame} :
      after.frames = frame :: outer → outer.map Frame.trace = walk.frames.map Frame.trace →
      frame.trace = (none, walk.path) → after.path = walk.path → Started walk after
  | named {frame : Frame} {outer : List Frame} {definition : Definition} :
      after.frames = frame :: outer → outer.map Frame.trace = walk.frames.map Frame.trace →
      frame.trace = (some definition, walk.path) → definition.Named →
      after.path = extendPath walk.path definition.name → Started walk after

theorem Started.of_alike {walk middle after : Walk σ} (started : Started middle after)
    (frames : middle.frames.map Frame.trace = walk.frames.map Frame.trace)
    (path : middle.path = walk.path) : Started walk after := by
  cases started with
  | same frames' path' => exact .same (frames'.trans frames) (path'.trans path)
  | nameless pushed outer traced path' =>
      exact .nameless pushed (outer.trans frames) (path ▸ traced) (path'.trans path)
  | named pushed outer traced visible path' =>
      exact .named pushed (outer.trans frames) (path ▸ traced) visible (path ▸ path')

theorem started_push {definition : Definition} (named : definition.Named) (header : Header)
    {mode : Mode} (attended : mode ≠ .captured) {rest : Unit → Attempt (Walk σ) Unit}
    (keeps : Keeps (rest ())) (walk : Walk σ) :
    Started walk ((push (some definition) header mode >>= rest).on walk).2 := by
  rw [Attempt.on_bind]
  have kept := keeps ((push (some definition) header mode).on walk).2
  have path : ((push (some definition) header mode).on walk).2.path =
      extendPath walk.path definition.name := by
    simp [push, attended]
  exact .named kept.1 rfl rfl named (kept.2.trans path)

theorem started_defined {definition : Definition} (named : definition.Named) (header : Header)
    (walk : Walk σ) :
    Started walk ((startDefined rules sink definition header).on walk).2 := by
  rw [startDefined]
  split
  · rw [startMisformed, Attempt.on_bind, Attempt.on_get]
    refine started_push named header (by decide) ?_ walk
    refine Keeps.get.bind fun middle => ?_
    dsimp only
    split
    · exact (Keeps.report _).bind fun _ => (Keeps.tell _).bind fun _ => Keeps.tell _
    · exact Keeps.throw _
  · rw [startFollowed]
    refine started_push named header (by decide) ((Keeps.tell _).bind fun _ => ?_) walk
    split
    · exact fun _ => ⟨rfl, rfl⟩
    · exact Keeps.pure _

theorem start_cases (named : Definition.NamedAll rules.schema.roots) (header : Header)
    (walk : Walk σ) (inside : ∀ frame ∈ walk.frames, ∀ definition ∈ frame.definition,
      definition.Named) :
    Started walk ((startElement rules sink header).on walk).2 := by
  simp only [startElement, Attempt.on_bind, Attempt.on_get]
  split
  · exact .nameless rfl rfl rfl rfl
  · split
    · exact .nameless rfl rfl rfl rfl
    · obtain ⟨frames, path, found⟩ := @resolve_cases _ _ sink named header walk inside
      rw [Attempt.on_bind]
      rcases ran : (resolve rules sink header).on walk with ⟨error | none | definition, middle⟩
      · rw [ran] at frames path
        exact .same frames path
      · rw [ran] at frames path
        have bare : Started middle ((push none header .ignored).on middle).2 :=
          .nameless rfl rfl rfl rfl
        exact bare.of_alike frames path
      · rw [ran] at frames path found
        exact (started_defined (found definition rfl) header middle).of_alike frames path

inductive Stopped (walk : Walk σ) : Except DecodeError Unit × Walk σ → Prop where
  | refused {error : DecodeError} : Stopped walk (.error error, walk)
  | failed {frame : Frame} {outer : List Frame} {error : DecodeError} {after : Walk σ} :
      walk.frames = frame :: outer → after.frames = outer → after.path = walk.path →
      Stopped walk (.error error, after)
  | ended {frame : Frame} {outer : List Frame} {after : Walk σ} :
      walk.frames = frame :: outer → after.frames = outer → after.path = frame.outerPath →
      Stopped walk (.ok (), after)

private theorem Stopped.of_keeps {closing : Attempt (Walk σ) Unit} (keeps : Keeps closing)
    {walk : Walk σ} {frame : Frame} {outer : List Frame} (frames : walk.frames = frame :: outer) :
    Stopped walk ((do closing
                      modify fun walk : Walk σ => { walk with path := frame.outerPath }).on
      { walk with frames := outer }) := by
  have kept := keeps { walk with frames := outer }
  rw [Attempt.on_bind]
  rcases ran : closing.on { walk with frames := outer } with ⟨error | value, after⟩
  · rw [ran] at kept
    exact .failed frames kept.1 kept.2
  · rw [ran] at kept
    exact .ended frames kept.1 rfl

theorem stop_cases (tag : Tag) (walk : Walk σ) :
    Stopped walk ((stopElement rules sink tag).on walk) := by
  rw [stopElement, Attempt.on_bind, Attempt.on_get]
  dsimp only
  split
  · exact .refused
  · rename_i frame outer frames
    split
    · exact .refused
    · rw [Attempt.on_bind, Attempt.on_set]
      dsimp only
      split
      · exact .ended frames rfl rfl
      · split
        · exact .of_keeps (.tell _) frames
        · exact .ended frames rfl rfl
      · exact .of_keeps (.stopFollowed frame) frames

end BerRecords.Walk
