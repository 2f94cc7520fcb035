import BerRecords.Source

/-! What a source gives, octet by octet. The cut into deliveries is invisible here. -/

set_option autoImplicit false

namespace BerRecords.Source

inductive Passes : Source → Octets → Source → Prop where
  | nil {source : Source} : Passes source [] source
  | cons {source middle after : Source} {octet : UInt8} {octets : Octets} :
      source.next = .octet octet middle → Passes middle octets after →
      Passes source (octet :: octets) after

/-- The source gives exactly these octets and is exhausted then. No request fails. -/
def Delivers (source : Source) (octets : Octets) : Prop :=
  ∃ last, Passes source octets last ∧ last.next = .exhausted ⟨[], .exhausted⟩

theorem Passes.append {source middle after : Source} {front back : Octets}
    (first : Passes source front middle) (second : Passes middle back after) :
    Passes source (front ++ back) after := by
  induction first with
  | nil => exact second
  | cons next _ ih => exact .cons next (ih second)

theorem Passes.split {source after : Source} {front back : Octets}
    (passes : Passes source (front ++ back) after) :
    ∃ middle, Passes source front middle ∧ Passes middle back after := by
  induction front generalizing source with
  | nil => exact ⟨source, .nil, passes⟩
  | cons octet front ih =>
      cases passes with
      | cons next rest =>
          obtain ⟨middle, first, second⟩ := ih rest
          exact ⟨middle, .cons next first, second⟩

private theorem takeOnto_of_passes {source after : Source} {octets : Octets}
    (passes : Passes source octets after) (done : Octets) :
    takeOnto done octets.length source = ⟨done.reverse ++ octets, .filled, after⟩ := by
  induction passes generalizing done with
  | nil => simp [takeOnto]
  | cons next _ ih => simp [takeOnto, next, ih]

theorem Passes.take {source after : Source} {octets : Octets}
    (passes : Passes source octets after) :
    source.take octets.length = ⟨octets, .filled, after⟩ := by
  have taken := takeOnto_of_passes passes []
  simpa [Source.take] using taken

private theorem passes_takeOnto {done : Octets} {count : Nat} {source : Source}
    (filled : (takeOnto done count source).halt = .filled) :
    ∃ octets, (takeOnto done count source).octets = done.reverse ++ octets ∧
      Passes source octets (takeOnto done count source).rest ∧ octets.length = count := by
  induction count generalizing done source with
  | zero => exact ⟨[], by simp [takeOnto], .nil, rfl⟩
  | succ count ih =>
      simp only [takeOnto] at filled ⊢
      cases next : source.next with
      | octet octet rest =>
          rw [next] at filled
          obtain ⟨octets, taken, passes, counted⟩ := ih filled
          exact ⟨octet :: octets, by simp [taken], .cons next passes, by simp [counted]⟩
      | exhausted rest => simp [next] at filled
      | failed reason rest => simp [next] at filled

/-- A request that is filled got the next octets, as many as it asked for. -/
theorem passes_take {source : Source} {count : Nat} (filled : (source.take count).halt = .filled) :
    Passes source (source.take count).octets (source.take count).rest ∧
      (source.take count).octets.length = count := by
  obtain ⟨octets, taken, passes, counted⟩ := passes_takeOnto filled
  have same : (source.take count).octets = octets := by simpa [Source.take] using taken
  exact ⟨same ▸ passes, same ▸ counted⟩

theorem delivers_nil : Delivers ⟨[], .exhausted⟩ [] :=
  ⟨_, .nil, rfl⟩

namespace Delivers

variable {source : Source} {octets : Octets}

theorem next_nil (delivers : Delivers source []) :
    source.next = .exhausted ⟨[], .exhausted⟩ := by
  obtain ⟨last, passes, ends⟩ := delivers
  cases passes
  exact ends

theorem next_cons {octet : UInt8} (delivers : Delivers source (octet :: octets)) :
    ∃ after, source.next = .octet octet after ∧ Delivers after octets := by
  obtain ⟨last, passes, ends⟩ := delivers
  cases passes with
  | cons next rest => exact ⟨_, next, last, rest, ends⟩

theorem split {front back : Octets} (delivers : Delivers source (front ++ back)) :
    ∃ middle, Passes source front middle ∧ Delivers middle back := by
  obtain ⟨last, passes, ends⟩ := delivers
  obtain ⟨middle, first, second⟩ := passes.split
  exact ⟨middle, first, last, second, ends⟩

theorem of_passes {after : Source} {front : Octets} (passes : Passes source front after)
    (delivers : Delivers after octets) : Delivers source (front ++ octets) := by
  obtain ⟨last, rest, ends⟩ := delivers
  exact ⟨last, passes.append rest, ends⟩

/-- What a source has given already was the beginning of what it delivers. -/
theorem rest {after : Source} {front : Octets} (delivers : Delivers source octets)
    (passes : Passes source front after) : ∃ back, octets = front ++ back ∧ Delivers after back := by
  induction passes generalizing octets with
  | nil => exact ⟨octets, rfl, delivers⟩
  | cons next _ ih =>
      cases octets with
      | nil =>
          rw [delivers.next_nil] at next
          cases next
      | cons octet octets =>
          obtain ⟨after, next', rest⟩ := delivers.next_cons
          rw [next'] at next
          cases next
          obtain ⟨back, rfl, delivered⟩ := ih rest
          exact ⟨back, rfl, delivered⟩

private theorem takeOnto_short (delivers : Delivers source octets) (done : Octets)
    {count : Nat} (short : octets.length < count) :
    takeOnto done count source = ⟨done.reverse ++ octets, .exhausted, ⟨[], .exhausted⟩⟩ := by
  induction octets generalizing source done count with
  | nil =>
      cases count with
      | zero => simp at short
      | succ count => simp [takeOnto, delivers.next_nil]
  | cons octet octets ih =>
      cases count with
      | zero => simp at short
      | succ count =>
          obtain ⟨after, next, rest⟩ := delivers.next_cons
          simp [takeOnto, next, ih rest (octet :: done) (Nat.lt_of_succ_lt_succ short)]

/-- A request for more octets than there are gets them all. -/
theorem take_short (delivers : Delivers source octets) {count : Nat}
    (short : octets.length < count) :
    source.take count = ⟨octets, .exhausted, ⟨[], .exhausted⟩⟩ := by
  have taken := takeOnto_short delivers [] short
  simpa [Source.take] using taken

end Delivers

def contents : List Delivery → Octets
  | [] => []
  | .piece first rest :: more => first :: rest ++ contents more
  | _ :: more => contents more

private theorem passes_piece (first : UInt8) (rest : Octets) (more : List Delivery)
    (ending : Ending) :
    Passes ⟨.piece first rest :: more, ending⟩ (first :: rest) ⟨more, ending⟩ := by
  induction rest generalizing first with
  | nil => exact .cons rfl .nil
  | cons second rest ih => exact .cons rfl (ih second)

private theorem Delivers.of_next_eq {source other : Source} {octets : Octets}
    (same : source.next = other.next) (delivers : Delivers other octets) :
    Delivers source octets := by
  obtain ⟨last, passes, ends⟩ := delivers
  cases passes with
  | nil => exact ⟨source, .nil, same.trans ends⟩
  | cons next rest => exact ⟨last, .cons (same.trans next) rest, ends⟩

/-- A source without failures delivers what its pieces hold, one after another. -/
theorem delivers_contents (deliveries : List Delivery)
    (faultless : ∀ reason, .failure reason ∉ deliveries) :
    Delivers ⟨deliveries, .exhausted⟩ (contents deliveries) := by
  induction deliveries with
  | nil => exact ⟨_, .nil, rfl⟩
  | cons delivery more ih =>
      have delivered := ih fun reason member => faultless reason (.tail _ member)
      cases delivery with
      | piece first rest => exact .of_passes (passes_piece first rest more _) delivered
      | interrupted =>
          have same : (⟨.interrupted :: more, .exhausted⟩ : Source).next =
              (⟨more, .exhausted⟩ : Source).next := rfl
          exact .of_next_eq same delivered
      | failure reason => exact absurd (.head _) (faultless reason)

theorem delivers_ofOctets (octets : Octets) : Delivers (ofOctets octets) octets := by
  cases octets with
  | nil => exact ⟨_, .nil, rfl⟩
  | cons first rest => exact ⟨_, passes_piece first rest [] _, rfl⟩

end BerRecords.Source
