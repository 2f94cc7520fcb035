import BerRecords.Proofs.Walk.Frames

/-!
# The path of a walk after any calls

The path shows the names of the open frames, and besides them the names of frames
whose end failed: such an end takes the frame away and leaves its name behind, until
an element around it ends or the walk is reset. A trail records both kinds of names.
-/

set_option autoImplicit false

namespace BerRecords.Walk

variable {σ : Type} {rules : Rules} {sink : Sink σ}

/-- A name in the path, that of an open frame or one that a failed end has left there.
A frame without a definition has none. -/
structure Mark where
  name : Option String
  isOpen : Bool
  deriving DecidableEq, Repr

namespace Trail

/-- The names of a trail from the root down; the trail itself has the innermost first. -/
def names (trail : List Mark) : List String :=
  (trail.filterMap (·.name)).reverse

def openNames (trail : List Mark) : List String :=
  names (trail.filter (·.isOpen))

theorem names_cons (mark : Mark) (outer : List Mark) :
    names (mark :: outer) = names outer ++ mark.name.toList := by
  cases named : mark.name <;> simp [names, named]

/-- The innermost open frame ends, and all that was left inside it goes. -/
def leave : List Mark → List Mark
  | [] => []
  | mark :: outer => if mark.isOpen then outer else leave outer

/-- The innermost open frame is taken away, but its name stays. -/
def abandon : List Mark → List Mark
  | [] => []
  | mark :: outer =>
    if mark.isOpen then { mark with isOpen := false } :: outer else mark :: abandon outer

end Trail

def Frame.name? (frame : Frame) : Option String :=
  frame.definition.map (·.name)

def openNames (walk : Walk σ) : List String :=
  (walk.frames.filterMap Frame.name?).reverse

inductive Call where
  | start (header : Header)
  | value (octets : Octets)
  | stop (tag : Tag)
  | reset

def Call.on (rules : Rules) (sink : Sink σ) (call : Call) (walk : Walk σ) :
    Except DecodeError Unit × Walk σ :=
  match call with
  | start header => (startElement rules sink header).on walk
  | value octets => (takeValue sink octets).on walk
  | stop tag => (stopElement rules sink tag).on walk
  | reset => (.ok (), walk.reset)

/-- The trail after a call that found `walk` and ended as `ran`: a start that opens a frame
adds a mark, and an end that takes a frame away removes it only if it succeeds. -/
def Call.mark (call : Call) (walk : Walk σ) (ran : Except DecodeError Unit × Walk σ)
    (trail : List Mark) : List Mark :=
  match call, ran with
  | start _, (_, after) =>
    if walk.depth < after.depth then ⟨after.frames.head?.bind Frame.name?, true⟩ :: trail
    else trail
  | value _, _ => trail
  | stop _, (.ok _, _) => Trail.leave trail
  | stop _, (.error _, after) =>
    if after.depth < walk.depth then Trail.abandon trail else trail
  | reset, _ => []

def follow (rules : Rules) (sink : Sink σ) : List Call → Walk σ × List Mark → Walk σ × List Mark
  | [], reached => reached
  | call :: calls, (walk, trail) =>
    let ran := call.on rules sink walk
    follow rules sink calls (ran.2, call.mark walk ran trail)

/-- The open frames are those of a trail, and each knows the path of what is around it. -/
inductive Marked : List Frame → List Mark → Prop where
  | nil : Marked [] []
  | opened {frame : Frame} {frames : List Frame} {trail : List Mark} :
      Marked frames trail → frame.outerPath = Meaning.path (Trail.names trail) →
      (∀ definition ∈ frame.definition, definition.Named) →
      Marked (frame :: frames) (⟨frame.name?, true⟩ :: trail)
  | abandoned {frames : List Frame} {trail : List Mark} {name? : Option String} :
      Marked frames trail → (∀ name ∈ name?, name ≠ "") →
      Marked frames (⟨name?, false⟩ :: trail)

namespace Marked

variable {frame : Frame} {frames others : List Frame} {trail : List Mark}

theorem named (marked : Marked frames trail) :
    ∀ frame ∈ frames, ∀ definition ∈ frame.definition, definition.Named := by
  induction marked with
  | nil => simp
  | opened _ _ named ih =>
      intro frame member
      rcases List.mem_cons.1 member with rfl | member
      · exact named
      · exact ih frame member
  | abandoned _ _ ih => exact ih

theorem shown (marked : Marked frames trail) : Meaning.Shown (Trail.names trail) := by
  induction marked with
  | nil => simp [Trail.names, Meaning.Shown]
  | @opened frame _ _ _ _ named ih =>
      rw [Trail.names_cons]
      cases known : frame.definition with
      | none => simpa [Frame.name?, known] using ih
      | some definition =>
          have visible := (named definition known).name_ne
          simpa [Frame.name?, known] using ih.append visible
  | @abandoned _ _ name? _ visible ih =>
      rw [Trail.names_cons]
      cases name? with
      | none => simpa using ih
      | some name => simpa using ih.append (visible name rfl)

theorem of_alike (marked : Marked frames trail)
    (alike : others.map Frame.trace = frames.map Frame.trace) : Marked others trail := by
  induction marked generalizing others with
  | nil =>
      rw [List.map_nil, List.map_eq_nil_iff] at alike
      rw [alike]
      exact .nil
  | @opened frame frames trail _ stands named ih =>
      cases others with
      | nil => simp at alike
      | cons other others =>
          simp only [List.map_cons, List.cons.injEq, Frame.trace, Prod.mk.injEq] at alike
          obtain ⟨⟨definition, outerPath⟩, rest⟩ := alike
          have same : frame.name? = other.name? := by rw [Frame.name?, Frame.name?, definition]
          rw [same]
          exact .opened (ih rest) (outerPath.trans stands) (definition ▸ named)
  | abandoned _ visible ih => exact .abandoned (ih alike) visible

theorem openNames (marked : Marked frames trail) :
    (frames.filterMap Frame.name?).reverse = Trail.openNames trail := by
  induction marked with
  | nil => rfl
  | @opened frame _ _ _ _ _ ih =>
      simp only [Trail.openNames, List.filter_cons_of_pos, Trail.names_cons] at ih ⊢
      rw [← ih]
      cases known : frame.name? <;> simp [known]
  | abandoned _ _ ih => simpa [Trail.openNames] using ih

theorem leave (marked : Marked (frame :: frames) trail) :
    Marked frames (Trail.leave trail) ∧
      frame.outerPath = Meaning.path (Trail.names (Trail.leave trail)) := by
  generalize whole : frame :: frames = opened at marked
  induction marked with
  | nil => cases whole
  | opened marked stands _ _ =>
      cases whole
      exact ⟨marked, stands⟩
  | abandoned _ _ ih => exact ih whole

theorem abandon (marked : Marked (frame :: frames) trail) :
    Marked frames (Trail.abandon trail) ∧
      Trail.names (Trail.abandon trail) = Trail.names trail := by
  generalize whole : frame :: frames = opened at marked
  induction marked with
  | nil => cases whole
  | opened marked _ named _ =>
      cases whole
      refine ⟨.abandoned marked fun name member => ?_, by simp [Trail.abandon, Trail.names_cons]⟩
      obtain ⟨definition, known, rfl⟩ := Option.map_eq_some_iff.1 member
      exact (named definition known).name_ne
  | abandoned _ visible ih =>
      obtain ⟨marked, same⟩ := ih whole
      exact ⟨.abandoned marked visible, by simp [Trail.abandon, Trail.names_cons, same]⟩

end Marked

/-- The path shows the names of the trail, and the open frames are those of the trail. -/
structure Tracked (walk : Walk σ) (trail : List Mark) : Prop where
  marked : Marked walk.frames trail
  path_eq : walk.path = Meaning.path (Trail.names trail)

private theorem Tracked.push {walk after : Walk σ} {trail : List Mark} {frame : Frame}
    {outer : List Frame} (tracked : Tracked walk trail) (pushed : after.frames = frame :: outer)
    (alike : outer.map Frame.trace = walk.frames.map Frame.trace)
    (outerPath : frame.outerPath = walk.path)
    (named : ∀ definition ∈ frame.definition, definition.Named)
    (path : after.path = Meaning.path (Trail.names trail ++ frame.name?.toList)) :
    Tracked after (if walk.depth < after.depth then
      ⟨after.frames.head?.bind Frame.name?, true⟩ :: trail else trail) := by
  have deeper : walk.depth < after.depth := by
    have same := congrArg List.length alike
    simp only [List.length_map] at same
    simp [depth, pushed, same]
  rw [if_pos deeper, pushed]
  constructor
  · rw [pushed]
    exact .opened (tracked.marked.of_alike alike) (outerPath.trans tracked.path_eq) named
  · rw [path, Trail.names_cons]
    rfl

theorem Tracked.start {walk after : Walk σ} {trail : List Mark} (tracked : Tracked walk trail)
    (started : Started walk after) :
    Tracked after (if walk.depth < after.depth then
      ⟨after.frames.head?.bind Frame.name?, true⟩ :: trail else trail) := by
  cases started with
  | same frames path =>
      have level : ¬walk.depth < after.depth := by
        have same := congrArg List.length frames
        simp only [List.length_map] at same
        simp [depth, same]
      rw [if_neg level]
      exact ⟨tracked.marked.of_alike frames, path.trans tracked.path_eq⟩
  | nameless pushed alike traced path =>
      simp only [Frame.trace, Prod.mk.injEq] at traced
      refine tracked.push pushed alike traced.2 (by simp [traced.1]) ?_
      rw [path, tracked.path_eq, Frame.name?, traced.1]
      simp
  | named pushed alike traced named path =>
      simp only [Frame.trace, Prod.mk.injEq] at traced
      refine tracked.push pushed alike traced.2 (by simpa [traced.1] using named) ?_
      rw [path, tracked.path_eq, Meaning.extendPath_path tracked.marked.shown, Frame.name?,
        traced.1]
      rfl

/-- Every call keeps the trail up to date, also one that fails. -/
theorem Tracked.call (named : Definition.NamedAll rules.schema.roots) {walk : Walk σ}
    {trail : List Mark} (tracked : Tracked walk trail) (call : Call) :
    Tracked (call.on rules sink walk).2 (call.mark walk (call.on rules sink walk) trail) := by
  cases call with
  | start header => exact tracked.start (start_cases named header walk tracked.marked.named)
  | value octets =>
      obtain ⟨frames, path⟩ := @Keeps.takeValue _ sink octets walk
      exact ⟨frames ▸ tracked.marked, path.trans tracked.path_eq⟩
  | stop tag =>
      have stopped : Stopped walk ((stopElement rules sink tag).on walk) := stop_cases tag walk
      simp only [Call.on]
      generalize (stopElement rules sink tag).on walk = ran at stopped ⊢
      cases stopped with
      | refused => simpa [Call.mark] using tracked
      | @failed _ _ _ after frames outer path =>
          obtain ⟨marked, same⟩ := (frames ▸ tracked.marked).abandon
          have taken : after.depth < walk.depth := by
            rw [depth, depth, frames, outer]
            exact Nat.lt_succ_self _
          simp only [Call.mark, taken, ↓reduceIte]
          exact ⟨outer ▸ marked, by rw [path, tracked.path_eq, same]⟩
      | ended frames outer path =>
          obtain ⟨marked, same⟩ := (frames ▸ tracked.marked).leave
          exact ⟨outer ▸ marked, path.trans same⟩
  | reset => exact ⟨.nil, rfl⟩

theorem tracked_follow (named : Definition.NamedAll rules.schema.roots) (calls : List Call)
    {walk : Walk σ} {trail : List Mark} (tracked : Tracked walk trail) :
    Tracked (follow rules sink calls (walk, trail)).1 (follow rules sink calls (walk, trail)).2 := by
  induction calls generalizing walk trail with
  | nil => exact tracked
  | cons call calls ih => exact ih (tracked.call named call)

private def width : List String → Nat
  | [] => 0
  | name :: names => name.length + 1 + width names

private theorem length_path {names : List String} (inside : names ≠ []) :
    (Meaning.path names).length + 1 = width names := by
  induction names with
  | nil => exact absurd rfl inside
  | cons name names ih =>
      cases names with
      | nil => simp [Meaning.path, width]
      | cons other names =>
          have rest := ih (by simp)
          have dot : ".".length = 1 := rfl
          simp only [Meaning.path, width, String.intercalate_cons_cons,
            String.length_append] at rest ⊢
          omega

private theorem width_le {names others : List String} (fewer : names.Sublist others) :
    width names ≤ width others := by
  induction fewer with
  | slnil => exact Nat.le_refl _
  | cons name _ ih =>
      rw [width]
      omega
  | cons_cons name _ ih =>
      rw [width, width]
      omega

private theorem eq_of_width_eq {names others : List String} (fewer : names.Sublist others)
    (same : width names = width others) : names = others := by
  induction fewer with
  | slnil => rfl
  | cons name rest _ =>
      have bound := width_le rest
      rw [width] at same
      omega
  | cons_cons name _ ih =>
      rw [width, width, Nat.add_left_cancel_iff] at same
      rw [ih same]

/-- A path shows all its names: fewer of them make another path. -/
theorem eq_of_path_eq {names others : List String} (fewer : names.Sublist others)
    (shown : Meaning.Shown others) (same : Meaning.path names = Meaning.path others) :
    names = others := by
  have empty := Meaning.path_isEmpty shown
  have empty' := Meaning.path_isEmpty fun name member => shown name (fewer.subset member)
  rw [← same, empty'] at empty
  by_cases inside : names = []
  · subst inside
    exact (List.isEmpty_iff.1 empty.symm).symm
  · have inside' : others ≠ [] := by
      rintro rfl
      exact inside (List.sublist_nil.1 fewer)
    exact eq_of_width_eq fewer (by rw [← length_path inside, ← length_path inside', same])

namespace Trail

theorem openNames_sublist (trail : List Mark) : (openNames trail).Sublist (names trail) :=
  ((List.filter_sublist.filterMap _).reverse)

theorem openNames_eq_iff {trail : List Mark} :
    openNames trail = names trail ↔ ∀ mark ∈ trail, mark.isOpen = true ∨ mark.name = none := by
  induction trail with
  | nil => simp [openNames]
  | cons mark outer ih =>
      have fewer := (openNames_sublist outer).length_le
      rcases mark with ⟨name | name, _ | _⟩
      · simpa [openNames, names_cons] using ih
      · simpa [openNames, names_cons] using ih
      · constructor
        · intro same
          have longer := congrArg List.length same
          simp [openNames, names_cons] at fewer longer
          omega
        · intro settled
          simpa using settled _ (.head _)
      · simpa [openNames, names_cons] using ih

end Trail

/-- Only a name that a failed end has left behind comes between the path and the names
of the open frames. -/
theorem path_eq_open_names_iff (named : Definition.NamedAll rules.schema.roots)
    (sink : Sink σ) (calls : List Call) (state : σ) :
    let walk := (follow rules sink calls (start state, [])).1
    let trail := (follow rules sink calls (start state, [])).2
    walk.path = Meaning.path (Trail.names trail) ∧ walk.openNames = Trail.openNames trail ∧
      (walk.path = Meaning.path walk.openNames ↔
        ∀ mark ∈ trail, mark.isOpen = true ∨ mark.name = none) ∧
      (walk.isIdle = true →
        (walk.path = "" ↔ ∀ mark ∈ trail, mark.isOpen = true ∨ mark.name = none)) := by
  intro walk trail
  have fresh : Tracked (start state) [] := ⟨.nil, rfl⟩
  obtain ⟨marked, path⟩ : Tracked walk trail := tracked_follow named calls fresh
  have opened : walk.openNames = Trail.openNames trail := marked.openNames
  have exact_path : walk.path = Meaning.path walk.openNames ↔
      ∀ mark ∈ trail, mark.isOpen = true ∨ mark.name = none := by
    rw [← Trail.openNames_eq_iff, path, opened]
    constructor
    · intro same
      exact eq_of_path_eq (Trail.openNames_sublist trail) marked.shown same.symm
    · intro same
      rw [same]
  refine ⟨path, opened, exact_path, fun idle => ?_⟩
  have nothing : Meaning.path walk.openNames = "" := by
    rw [isIdle, List.isEmpty_iff] at idle
    simp [Walk.openNames, idle, Meaning.path]
  rwa [nothing] at exact_path

/-- A message without its number: the end fails, and its name stays in the path of an
idle walk. -/
theorem path_of_failed_end :
    let message : Definition := .record ⟨"msg", some .sequence, false⟩ .sequence
      [.scalar ⟨"id", some .integer, false⟩ .integer]
    let rules : Rules := ⟨⟨[message], [message], .singleOctet⟩, false, true⟩
    let calls : List Call := [.start (.shortest .sequence 0 0), .stop .sequence]
    let walk := (follow rules Collected.sink calls (start Collected.empty, [])).1
    walk.isIdle = true ∧ walk.path = "msg" ∧ walk.path ≠ Meaning.path walk.openNames := by
  intro message rules calls walk
  have named : Definition.NamedAll rules.schema.roots := by
    simp [rules, message, Definition.NamedAll, Definition.Named]
  have left_behind : (follow rules Collected.sink calls (start Collected.empty, [])).2 =
      [⟨some "msg", false⟩] := rfl
  obtain ⟨path, -, exact_path, -⟩ :=
    path_eq_open_names_iff named Collected.sink calls Collected.empty
  rw [left_behind] at path exact_path
  exact ⟨rfl, path, fun same => by simpa using exact_path.1 same _ (.head _)⟩

end BerRecords.Walk
