import BerRecords.Proofs.Source.Passing

/-!
# What a source holds

The octets that a source has not given yet. Every request takes octets from the front
of them, also one that fails.
-/

set_option autoImplicit false

namespace BerRecords.Source

def held (source : Source) : Octets :=
  contents source.deliveries

def Next.octets : Next → Octets
  | octet first _ => [first]
  | _ => []

private theorem contents_nextFrom (ending : Ending) (deliveries : List Delivery) :
    contents deliveries =
      (nextFrom ending deliveries).octets ++ (nextFrom ending deliveries).rest.held := by
  fun_induction nextFrom ending deliveries with
  | case1 => rfl
  | case2 => rfl
  | case3 _ ih => exact ih
  | case4 => rfl
  | case5 => rfl
  | case6 => rfl

private theorem length_contents (deliveries : List Delivery) :
    (contents deliveries).length = heldBy deliveries := by
  induction deliveries with
  | nil => rfl
  | cons delivery rest ih =>
      cases delivery with
      | piece first more => simp [contents, heldBy, Delivery.size, ih, Nat.add_right_comm]
      | interrupted => simpa [contents, heldBy, Delivery.size] using ih
      | failure reason => simpa [contents, heldBy, Delivery.size] using ih

theorem length_held (source : Source) : source.held.length = source.remaining :=
  length_contents source.deliveries

theorem held_next (source : Source) :
    source.held = source.next.octets ++ source.next.rest.held :=
  contents_nextFrom source.ending source.deliveries

private theorem nextFrom_exhausted {ending : Ending} {deliveries : List Delivery} {rest : Source}
    (next : nextFrom ending deliveries = .exhausted rest) : rest.held = [] := by
  fun_induction nextFrom ending deliveries with
  | case1 =>
      cases next
      rfl
  | case2 => cases next
  | case3 _ ih => exact ih next
  | case4 => cases next
  | case5 => cases next
  | case6 => cases next

theorem held_of_exhausted {source rest : Source} (next : source.next = .exhausted rest) :
    source.held = [] ∧ rest.held = [] := by
  have empty : rest.held = [] := nextFrom_exhausted next
  have split := held_next source
  rw [next] at split
  exact ⟨split.trans empty, empty⟩

theorem Passes.held {source after : Source} {octets : Octets} (passes : Passes source octets after) :
    source.held = octets ++ after.held := by
  induction passes with
  | nil => rfl
  | @cons source middle _ octet octets next _ ih =>
      rw [held_next, next, List.cons_append, ← ih]
      rfl

theorem Delivers.held {source : Source} {octets : Octets} (delivers : Delivers source octets) :
    source.held = octets := by
  obtain ⟨last, passes, ends⟩ := delivers
  rw [passes.held, (held_of_exhausted ends).1, List.append_nil]

private theorem held_takeOnto (done : Octets) (count : Nat) (source : Source) :
    done.reverse ++ source.held =
      (takeOnto done count source).octets ++ (takeOnto done count source).rest.held := by
  induction count generalizing done source with
  | zero => rfl
  | succ count ih =>
      have split := held_next source
      rw [takeOnto]
      cases next : source.next with
      | octet octet rest =>
          rw [next] at split
          dsimp only
          rw [← ih (octet :: done) rest, split]
          simp [Next.octets, Next.rest]
      | exhausted rest =>
          rw [next] at split
          rw [split]
          rfl
      | failed reason rest =>
          rw [next] at split
          rw [split]
          rfl

/-- What a request takes was held before, whether the request was filled or not. -/
theorem held_take (count : Nat) (source : Source) :
    source.held = (source.take count).octets ++ (source.take count).rest.held :=
  held_takeOnto [] count source

private theorem length_takeOnto_le (done : Octets) (count : Nat) (source : Source) :
    (takeOnto done count source).octets.length ≤ done.length + count := by
  induction count generalizing done source with
  | zero => simp [takeOnto]
  | succ count ih =>
      rw [takeOnto]
      cases next : source.next with
      | octet octet rest =>
          have bound := ih (octet :: done) rest
          dsimp only
          rw [List.length_cons] at bound
          omega
      | exhausted rest => simp
      | failed reason rest => simp

theorem length_take_le (count : Nat) (source : Source) :
    (source.take count).octets.length ≤ count := by
  simpa [take] using length_takeOnto_le [] count source

def Faultless (source : Source) : Prop :=
  source.Delivers source.held

theorem Delivers.faultless {source : Source} {octets : Octets} (delivers : Delivers source octets) :
    source.Faultless := by
  rw [Faultless, delivers.held]
  exact delivers

namespace Faultless

variable {source : Source}

theorem next (faultless : source.Faultless) :
    source.next.rest.Faultless ∧ ∀ reason rest, source.next ≠ .failed reason rest := by
  rw [Faultless] at faultless
  cases ahead : source.held with
  | nil =>
      rw [ahead] at faultless
      rw [faultless.next_nil]
      exact ⟨delivers_nil, by simp⟩
  | cons octet octets =>
      rw [ahead] at faultless
      obtain ⟨after, next, delivers⟩ := faultless.next_cons
      rw [next]
      exact ⟨delivers.faultless, by simp⟩

theorem take (faultless : source.Faultless) (count : Nat) :
    (source.take count).rest.Faultless ∧ ∀ reason, (source.take count).halt ≠ .failed reason := by
  rcases Nat.lt_or_ge source.held.length count with short | enough
  · rw [Delivers.take_short faultless short]
    exact ⟨delivers_nil, by simp⟩
  · have parts : source.held = source.held.take count ++ source.held.drop count :=
      (List.take_append_drop _ _).symm
    rw [Faultless, parts] at faultless
    obtain ⟨middle, passes, delivers⟩ := Delivers.split faultless
    have taken := passes.take
    rw [List.length_take_of_le enough] at taken
    rw [taken]
    exact ⟨delivers.faultless, by simp⟩

end Faultless

end BerRecords.Source
