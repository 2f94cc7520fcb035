import BerRecords.Proofs.Reader.Acceptance
import BerRecords.Records

/-!
# Recovery only adds

What succeeds without recovery succeeds with it to the same effect, and without an
issue. So the two ways differ only where the first one fails.
-/

set_option autoImplicit false

namespace BerRecords

/-- If the first attempt succeeds in this state the second one does the same, and what is
watched of the state does not change. -/
def Attempt.Extends {σ α γ : Type} (watch : σ → γ) (state : σ) (strict lenient : Attempt σ α) :
    Prop :=
  ∀ value after, strict.on state = (.ok value, after) →
    lenient.on state = (.ok value, after) ∧ watch after = watch state

namespace Attempt.Extends

variable {σ α β γ : Type} {watch : σ → γ} {state : σ}

theorem bind {first first' : Attempt σ α} {rest rest' : α → Attempt σ β}
    (front : Extends watch state first first')
    (back : ∀ value middle, Extends watch middle (rest value) (rest' value)) :
    Extends watch state (first >>= rest) (first' >>= rest') := by
  intro value after done
  rw [on_bind] at done ⊢
  rcases ran : first.on state with ⟨error | given, middle⟩
  · rw [ran] at done
    cases done
  · rw [ran] at done
    obtain ⟨same, kept⟩ := front given middle ran
    obtain ⟨same', kept'⟩ := back given middle value after done
    rw [same]
    exact ⟨same', kept'.trans kept⟩

theorem get {rest rest' : σ → Attempt σ α}
    (later : Extends watch state (rest state) (rest' state)) :
    Extends watch state (MonadState.get >>= rest) (MonadState.get >>= rest') := by
  intro value after done
  rw [on_bind] at done ⊢
  exact later value after done

theorem throw (error : DecodeError) (lenient : Attempt σ α) :
    Extends watch state (MonadExcept.throw error) lenient := by
  rintro value after ⟨⟩

/-- The same attempt twice, as long as it leaves alone what is watched. -/
theorem of_kept {attempt : Attempt σ α} (kept : watch (attempt.on state).2 = watch state) :
    Extends watch state attempt attempt := by
  intro value after done
  rw [done] at kept
  exact ⟨done, kept⟩

end Attempt.Extends

namespace Walk

open Attempt (Extends)

variable {σ γ : Type} {watch : σ → γ} {sink : Sink σ}

def Unheard (sink : Sink σ) (watch : σ → γ) : Prop :=
  ∀ event state, watch ((sink.receive event).on state).2 = watch state

variable (unheard : Unheard sink watch) (schema : Schema) (mandatory : Bool) (walk : Walk σ)

include unheard

theorem extends_tell (event : FieldEvent) :
    Extends (fun walk => watch walk.sink) walk (tell sink event) (tell sink event) :=
  .of_kept (unheard event walk.sink)

theorem extends_startFollowed (definition : Definition) (header : Header) :
    Extends (fun walk => watch walk.sink) walk (startFollowed sink definition header)
      (startFollowed sink definition header) := by
  rw [startFollowed]
  refine .bind (.of_kept rfl) fun _ walk => .bind (extends_tell unheard walk _) fun _ walk => ?_
  split
  · exact .of_kept rfl
  · exact .of_kept rfl

omit unheard

theorem extends_leaveOut (name : String) (mismatch : Mismatch) :
    Extends (fun walk => watch walk.sink) walk
      (leaveOut ⟨schema, false, mandatory⟩ sink name mismatch)
      (leaveOut ⟨schema, true, mandatory⟩ sink name mismatch) := by
  rw [leaveOut]
  exact .throw _ _

theorem extends_resolveChild (header : Header) (parent : Frame) (outer : List Frame) :
    Extends (fun walk => watch walk.sink) walk
      (resolveChild ⟨schema, false, mandatory⟩ sink header parent outer)
      (resolveChild ⟨schema, true, mandatory⟩ sink header parent outer) := by
  rw [resolveChild, resolveChild]
  refine .get ?_
  dsimp only
  split
  · split
    · exact .throw _ _
    · split
      · exact .throw _ _
      · exact extends_leaveOut schema mandatory walk _ _
      · split
        · exact extends_leaveOut schema mandatory walk _ _
        · exact .of_kept rfl
  · exact .throw _ _

theorem extends_resolve (header : Header) :
    Extends (fun walk => watch walk.sink) walk (resolve ⟨schema, false, mandatory⟩ sink header)
      (resolve ⟨schema, true, mandatory⟩ sink header) := by
  rw [resolve, resolve]
  refine .get ?_
  dsimp only
  split
  · exact extends_resolveChild schema mandatory walk _ _ _
  · split
    · exact .of_kept rfl
    · exact .throw _ _

theorem extends_startMisformed (definition : Definition) (header : Header) :
    Extends (fun walk => watch walk.sink) walk
      (startMisformed ⟨schema, false, mandatory⟩ sink definition header)
      (startMisformed ⟨schema, true, mandatory⟩ sink definition header) := by
  rw [startMisformed, startMisformed]
  refine .get ?_
  refine .bind (.of_kept rfl) fun _ walk => ?_
  exact .get (.throw _ _)

theorem extends_closeChoice (frame : Frame) :
    Extends (fun walk => watch walk.sink) walk
      (closeChoice ⟨schema, false, mandatory⟩ sink frame)
      (closeChoice ⟨schema, true, mandatory⟩ sink frame) := by
  rw [closeChoice, closeChoice]
  split
  · exact .of_kept rfl
  · split
    · exact .of_kept rfl
    · exact .get (.throw _ _)

theorem extends_closeComponents (parent : String) (offset : Nat)
    (components : List (Definition × Bool)) :
    Extends (fun walk => watch walk.sink) walk
      (closeComponents ⟨schema, false, mandatory⟩ sink parent offset components)
      (closeComponents ⟨schema, true, mandatory⟩ sink parent offset components) := by
  induction components with
  | nil => exact .of_kept rfl
  | cons component rest ih =>
      rw [closeComponents, closeComponents]
      split
      · exact ih
      · exact .get (.throw _ _)

theorem extends_closeRecord (frame : Frame) :
    Extends (fun walk => watch walk.sink) walk
      (closeRecord ⟨schema, false, mandatory⟩ sink frame)
      (closeRecord ⟨schema, true, mandatory⟩ sink frame) := by
  rw [closeRecord, closeRecord]
  split
  · exact extends_closeComponents schema mandatory walk _ _ _
  · exact .of_kept rfl

include unheard

theorem extends_startElement (header : Header) :
    Extends (fun walk => watch walk.sink) walk
      (startElement ⟨schema, false, mandatory⟩ sink header)
      (startElement ⟨schema, true, mandatory⟩ sink header) := by
  rw [startElement, startElement]
  refine .get ?_
  split
  · exact .of_kept rfl
  · split
    · exact .of_kept rfl
    · refine .bind (extends_resolve schema mandatory walk header) fun found walk => ?_
      split
      · exact .of_kept rfl
      · split
        · exact extends_startMisformed schema mandatory walk _ header
        · exact extends_startFollowed unheard walk _ header

theorem extends_takeValue (octets : Octets) :
    Extends (fun walk => watch walk.sink) walk (takeValue sink octets) (takeValue sink octets) := by
  rw [takeValue]
  refine .get ?_
  split
  · exact .of_kept rfl
  · split
    · exact .of_kept rfl
    · split
      · exact .of_kept rfl
      · exact .of_kept rfl
      · split
        · exact .of_kept rfl
        · exact extends_tell unheard walk _

theorem extends_closeCapture (frame : Frame) :
    Extends (fun walk => watch walk.sink) walk (closeCapture sink frame)
      (closeCapture sink frame) := by
  rw [closeCapture]
  refine .get ?_
  split
  · exact .of_kept rfl
  · split
    · exact .bind (.of_kept rfl) fun _ walk => extends_tell unheard walk _
    · exact .of_kept rfl

theorem extends_stopFollowed (frame : Frame) :
    Extends (fun walk => watch walk.sink) walk
      (stopFollowed ⟨schema, false, mandatory⟩ sink frame)
      (stopFollowed ⟨schema, true, mandatory⟩ sink frame) := by
  rw [stopFollowed, stopFollowed]
  refine .bind (extends_closeCapture unheard walk frame) fun _ walk => ?_
  refine .bind (extends_closeChoice schema mandatory walk frame) fun _ walk => ?_
  split
  · refine .bind (extends_closeRecord schema mandatory walk frame) fun _ walk => ?_
    exact extends_tell unheard walk _
  · exact extends_tell unheard walk _

theorem extends_stopElement (tag : Tag) :
    Extends (fun walk => watch walk.sink) walk
      (stopElement ⟨schema, false, mandatory⟩ sink tag)
      (stopElement ⟨schema, true, mandatory⟩ sink tag) := by
  rw [stopElement, stopElement]
  refine .get ?_
  split
  · exact .throw _ _
  · split
    · exact .throw _ _
    · refine .bind (.of_kept rfl) fun _ walk => ?_
      split
      · exact .of_kept rfl
      · split
        · exact .bind (extends_tell unheard walk _) fun _ walk => .of_kept rfl
        · exact .of_kept rfl
      · exact .bind (extends_stopFollowed unheard schema mandatory walk _) fun _ walk =>
          .of_kept rfl

theorem extends_visitor (signal : Signal) :
    Extends (fun walk => watch walk.sink) walk
      (visitor ⟨schema, false, mandatory⟩ sink signal)
      (visitor ⟨schema, true, mandatory⟩ sink signal) := by
  cases signal with
  | start header => exact extends_startElement unheard schema mandatory walk header
  | value octets => exact extends_takeValue unheard walk octets
  | stop tag => exact extends_stopElement unheard schema mandatory walk tag

end Walk

namespace Reader

open Attempt (Extends)

variable {σ γ : Type} {watch : σ → γ} {strict lenient : Visitor σ}
  (extends_visitor : ∀ signal state, Extends watch state (strict signal) (lenient signal))

include extends_visitor

/-- A visitor that accepts more is driven to the same end. -/
theorem drive_of_extends (reader : Reader) (state : σ) (stack : List Open) {after : Reader}
    {state' : σ} (read : drive strict reader state stack = (.ok (), after, state')) :
    drive lenient reader state stack = (.ok (), after, state') ∧ watch state' = watch state := by
  fun_induction drive strict reader state stack with
  | case1 =>
      rw [drive]
      cases read
      exact ⟨rfl, rfl⟩
  | case2 => cases read
  | case3 => cases read
  | case4 reader state top outer signal stack middle stepped between accepted ih =>
      obtain ⟨same, kept⟩ := extends_visitor signal state () between accepted
      obtain ⟨driven, kept'⟩ := ih read
      rw [drive_cons, stepped]
      simp only [same]
      exact ⟨driven, kept'.trans kept⟩

theorem extends_nextElement (reader : Reader) (state : σ) {header? : Option Header} {after : Reader}
    {state' : σ} (read : (nextElement strict).on (reader, state) = (.ok header?, after, state')) :
    (nextElement lenient).on (reader, state) = (.ok header?, after, state') ∧
      watch state' = watch state := by
  rw [nextElement_on] at read ⊢
  generalize (openElement none 0).on reader.between = ran at read ⊢
  rcases ran with ⟨error | none | header, opened⟩
  · cases read
  · cases read
    exact ⟨rfl, rfl⟩
  · rcases told : (strict (.start header)).on state with ⟨error | ⟨⟩, before⟩
    · simp [told] at read
    · obtain ⟨same, kept⟩ := extends_visitor _ state () before told
      rcases driven : drive strict opened before [⟨header, false⟩] with ⟨error | ⟨⟩, closed, later⟩
      · simp [told, driven] at read
      · obtain ⟨driven', kept'⟩ := drive_of_extends extends_visitor opened before _ driven
        simp only [told, driven] at read
        simp only [same, driven']
        cases read
        exact ⟨rfl, kept'.trans kept⟩

end Reader

end BerRecords
