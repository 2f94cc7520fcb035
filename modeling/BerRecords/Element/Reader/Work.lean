import BerRecords.Element.Reader

/-!
# Reading comes to an end

No step adds octets to a source, every header takes at least one away, and every
other step settles a debt of the open elements. So the work that a reader still
has before it decreases with each step.
-/

set_option autoImplicit false

namespace BerRecords.Reader

def settings (reader : Reader) : TagEncoding × Nat :=
  (reader.encoding, reader.maxDepth)

/-- From one state of a reader to a later one within the same top-level element: no
octets were added to the source. -/
structure Later (before after : Reader) : Prop where
  remaining_le : after.remaining ≤ before.remaining
  current_eq : after.current = before.current
  settings_eq : after.settings = before.settings

theorem Later.refl (reader : Reader) : Later reader reader :=
  ⟨Nat.le_refl _, rfl, rfl⟩

theorem Later.trans {first second third : Reader} (front : Later first second)
    (back : Later second third) : Later first third :=
  ⟨Nat.le_trans back.remaining_le front.remaining_le, back.current_eq.trans front.current_eq,
    back.settings_eq.trans front.settings_eq⟩

def Shrinks {α : Type} (reading : Reading α) : Prop :=
  ∀ reader, Later reader (reading.on reader).2

theorem Shrinks.bind {α β : Type} {first : Reading α} {rest : α → Reading β}
    (first_shrinks : Shrinks first) (rest_shrinks : ∀ value, Shrinks (rest value)) :
    Shrinks (first >>= rest) := by
  intro reader
  have bound := first_shrinks reader
  rw [Attempt.on_bind]
  split
  · rename_i value after found
    rw [found] at bound
    exact bound.trans (rest_shrinks value after)
  · rename_i error after found
    rw [found] at bound
    exact bound

theorem Shrinks.pure {α : Type} (value : α) : Shrinks (Pure.pure value : Reading α) :=
  fun _ => .refl _

theorem Shrinks.throw {α : Type} (error : DecodeError) :
    Shrinks (MonadExcept.throw error : Reading α) :=
  fun _ => .refl _

theorem Shrinks.get : Shrinks (MonadState.get : Reading Reader) :=
  fun _ => .refl _

theorem nextOctet?_shrinks : Shrinks nextOctet? := by
  intro reader
  have bound := Source.remaining_next_le reader.source
  simp only [Attempt.on, ExceptT.run, StateT.run, nextOctet?]
  split <;> rename_i found <;> rw [found] at bound <;> exact ⟨bound, rfl, rfl⟩

/-- The reading leaves fewer octets than it found whenever it gives something, and
never more. -/
def Advances {α : Type} (reading : Reading (Option α)) : Prop :=
  Shrinks reading ∧
    ∀ reader value after, reading.on reader = (.ok (some value), after) →
      after.remaining < reader.remaining

theorem Advances.pure_none {α : Type} : Advances (Pure.pure none : Reading (Option α)) :=
  ⟨.pure _, fun _ _ _ found => by cases found⟩

theorem Advances.throw {α : Type} (error : DecodeError) :
    Advances (MonadExcept.throw error : Reading (Option α)) :=
  ⟨.throw _, fun _ _ _ found => by cases found⟩

/-- What advances may be followed by anything that does not add octets. -/
theorem Advances.bind {α β : Type} {first : Reading (Option α)}
    {rest : Option α → Reading (Option β)} (first_advances : Advances first)
    (rest_some : ∀ value, Shrinks (rest (some value))) (rest_none : Advances (rest none)) :
    Advances (first >>= rest) := by
  have rest_shrinks : ∀ found, Shrinks (rest found)
    | some value => rest_some value
    | none => rest_none.1
  refine ⟨first_advances.1.bind rest_shrinks, fun reader value after found => ?_⟩
  rw [Attempt.on_bind] at found
  split at found
  · rename_i found? middle first_found
    have bound := first_advances.1 reader
    rw [first_found] at bound
    cases found? with
    | some given =>
      have := first_advances.2 _ _ _ first_found
      have last := rest_some given middle
      rw [found] at last
      exact Nat.lt_of_le_of_lt last.remaining_le this
    | none =>
      have := rest_none.2 _ _ _ found
      exact Nat.lt_of_lt_of_le this bound.remaining_le
  · simp at found

/-- What advances may be preceded by anything that does not add octets. -/
theorem Shrinks.bind_advances {α β : Type} {first : Reading α}
    {rest : α → Reading (Option β)} (first_shrinks : Shrinks first)
    (rest_advances : ∀ value, Advances (rest value)) : Advances (first >>= rest) := by
  refine ⟨first_shrinks.bind fun value => (rest_advances value).1,
    fun reader value after found => ?_⟩
  rw [Attempt.on_bind] at found
  split at found
  · rename_i given middle first_found
    have bound := first_shrinks reader
    rw [first_found] at bound
    exact Nat.lt_of_lt_of_le ((rest_advances given).2 _ _ _ found) bound.remaining_le
  · simp at found

theorem nextOctet?_advances : Advances nextOctet? := by
  refine ⟨nextOctet?_shrinks, fun reader octet after found => ?_⟩
  simp only [Attempt.on, ExceptT.run, StateT.run, nextOctet?] at found
  split at found
  · rename_i rest next
    have := Source.remaining_next_octet next
    simp only [Prod.mk.injEq] at found
    obtain ⟨-, rfl⟩ := found
    simp only [remaining]
    omega
  · simp at found
  · simp at found

theorem unboundedOctet?_advances (parent : Option Header) (first : Bool) :
    Advances (unboundedOctet? parent first) := by
  refine nextOctet?_advances.bind (fun _ => .pure _) ?_
  dsimp only
  split
  · exact .pure_none
  · exact Shrinks.get.bind_advances fun _ => .throw _

theorem headerOctet?_advances (parent : Option Header) (start : Nat) (first : Bool) :
    Advances (headerOctet? parent start first) := by
  refine Shrinks.get.bind_advances fun reader => ?_
  cases parent with
  | none => exact unboundedOctet?_advances none first
  | some parent =>
    dsimp only
    split
    · exact .throw _
    · exact unboundedOctet?_advances (some parent) first

theorem headerOctet_shrinks (parent : Option Header) (start : Nat) :
    Shrinks (headerOctet parent start) := by
  refine (headerOctet?_advances parent start false).1.bind fun found => ?_
  cases found with
  | some octet => exact .pure _
  | none => exact .throw _

theorem readIdentifier_advances (parent : Option Header) (start : Nat)
    (pending : Identifier.Pending) : Advances (readIdentifier parent start pending) := by
  induction room : pending.room using Nat.strongRecOn generalizing pending with
  | ind _ ih =>
    rw [readIdentifier]
    refine (headerOctet?_advances _ _ _).bind (fun octet => ?_) .pure_none
    refine Shrinks.get.bind fun reader => ?_
    split
    · exact .throw _
    · exact .pure _
    · rename_i next pushed
      exact (ih _ (room ▸ Identifier.Pending.room_push pushed) next rfl).1.bind fun _ => .pure _

theorem headerOctets_shrinks (parent : Option Header) (start count : Nat) :
    Shrinks (headerOctets parent start count) := by
  induction count with
  | zero => exact .pure _
  | succ count ih =>
    exact (headerOctet_shrinks parent start).bind fun _ => ih.bind fun _ => .pure _

theorem readLength_shrinks (parent : Option Header) (start : Nat) :
    Shrinks (readLength parent start) := by
  refine (headerOctet_shrinks parent start).bind fun first => ?_
  dsimp only
  split
  · exact .pure _
  · split
    · exact .throw _
    · split
      · exact .throw _
      · exact (headerOctets_shrinks _ _ _).bind fun _ => .pure _

theorem readHeader_advances (parent : Option Header) : Advances (readHeader parent) := by
  refine Shrinks.get.bind_advances fun reader => ?_
  refine (readIdentifier_advances _ _ _).bind (fun found => ?_) .pure_none
  exact (readLength_shrinks _ _).bind fun _ => .pure _

theorem checked_shrinks (parent : Option Header) (depth : Nat) (header : Header) :
    Shrinks (do
      let reader ← MonadState.get
      match (overrun? parent header).or (tooDeep? parent reader.maxDepth depth header) with
      | some error => MonadExcept.throw error
      | none => return some header : Reading (Option Header)) := by
  refine Shrinks.get.bind fun reader => ?_
  split
  · exact .throw _
  · exact .pure _

theorem openElement_advances (parent : Header) (depth : Nat) :
    Advances (openElement (some parent) depth) := by
  refine (readHeader_advances (some parent)).bind (fun header => ?_) .pure_none
  exact checked_shrinks (some parent) depth header

/-- How a reader between elements may be left by opening a top-level element: fewer
octets are left if one was opened, and also whenever there is an element at hand. -/
structure Opened (before : Reader) (opened : Bool) (after : Reader) : Prop where
  remaining_le : after.remaining ≤ before.remaining
  remaining_lt : opened = true → after.remaining < before.remaining
  remaining_lt_of_current : after.current ≠ none → after.remaining < before.remaining

theorem openElement_opened (depth : Nat) {reader : Reader} (between : reader.current = none) :
    Opened reader
      (match ((openElement none depth).on reader).1 with
        | .ok (some _) => true
        | _ => false)
      ((openElement none depth).on reader).2 := by
  have header_read := readHeader_advances none
  rw [openElement, Attempt.on_bind]
  rcases read : (readHeader none).on reader with ⟨result, after⟩
  have later := header_read.1 reader
  rw [read] at later
  have still : after.current = none := later.current_eq.trans between
  cases result with
  | error error => exact ⟨later.remaining_le, by simp, fun open' => absurd still open'⟩
  | ok header? =>
    cases header? with
    | none => exact ⟨later.remaining_le, by simp [Attempt.on], fun open' => absurd still open'⟩
    | some header =>
      have fewer := header_read.2 _ _ _ read
      have checked := checked_shrinks none depth header { after with current := some header }
      have bound := Nat.lt_of_le_of_lt checked.remaining_le fewer
      exact ⟨Nat.le_of_lt bound, fun _ => bound, fun _ => bound⟩

theorem readValue_shrinks (header : Header) : Shrinks (readValue header) := by
  intro reader
  have bound := Source.remaining_take_le header.length reader.source
  simp only [Attempt.on, ExceptT.run, StateT.run, readValue]
  split <;> exact ⟨bound, rfl, rfl⟩

theorem step_shrinks (top : Open) (outer : List Open) : Shrinks (step top outer) := by
  rw [step]
  split
  · refine Shrinks.get.bind fun reader => ?_
    split
    · refine (openElement_advances _ _).1.bind fun child? => ?_
      cases child? with
      | some child => exact .pure _
      | none => exact .throw _
    · split
      · exact .pure _
      · exact .throw _
  · split
    · exact .pure _
    · exact (readValue_shrinks _).bind fun _ => .pure _

/-- Every step takes octets from the source or settles a debt. -/
theorem work_step {top : Open} {outer stack : List Open} {reader after : Reader}
    {signal : Signal} (stepped : (step top outer).on reader = (.ok (signal, stack), after)) :
    work after stack < work reader (top :: outer) := by
  have debt : 1 ≤ top.owes := by simp only [Open.owes]; split <;> omega
  rw [step] at stepped
  split at stepped
  · rw [Attempt.on_bind] at stepped
    split at stepped
    · rename_i current middle found
      cases found
      split at stepped
      · rw [Attempt.on_bind] at stepped
        split at stepped
        · rename_i child? middle opened
          cases child? with
          | some child =>
            have := (openElement_advances _ _).2 _ _ _ opened
            cases stepped
            simp only [work, owed]
            have : Open.owes ⟨child, false⟩ = 2 := rfl
            omega
          | none => cases stepped
        · cases stepped
      · split at stepped
        · cases stepped
          simp only [work, owed]
          omega
        · cases stepped
    · cases stepped
  · rename_i primitive
    split at stepped
    · cases stepped
      simp only [work, owed]
      omega
    · rename_i unread
      rw [Attempt.on_bind] at stepped
      split at stepped
      · rename_i octets middle found
        have bound := readValue_shrinks top.header reader
        rw [found] at bound
        cases stepped
        have := bound.remaining_le
        have : top.owes = 2 := by simp [Open.owes, unread]
        have : Open.owes ⟨top.header, true⟩ = 1 := rfl
        simp only [work, owed]
        dsimp only at *
        omega
      · cases stepped

end BerRecords.Reader
