import BerRecords.Proofs.Wire.Unique

/-!
# When a reader knows what it says

Each signal of a series of elements has a position at which its octets end. Those whose octets end
at or before a position are said first.
-/

set_option autoImplicit false

namespace BerRecords.Element

variable {encoding : TagEncoding}

mutual

/-- The signals of an element that starts at a stream position, each with the position where its
octets end: for a start those of the heading, for a value and an end those of the element. -/
def timed (offset : Nat) : Element encoding → List (Nat × Signal)
  | leaf heading value =>
    let inside := offset + heading.octets.length
    [(inside, .start (heading.header offset)), (inside + value.length, .value value),
      (inside + value.length, .stop heading.tag)]
  | branch heading children =>
    let inside := offset + heading.octets.length
    (inside, .start (heading.header offset)) ::
      (timedAll inside children ++ [(inside + (octetsAll children).length, .stop heading.tag)])

def timedAll (offset : Nat) : List (Element encoding) → List (Nat × Signal)
  | [] => []
  | element :: rest => timed offset element ++ timedAll (offset + (octets element).length) rest

end

def timedBody (offset : Nat) : Element encoding → List (Nat × Signal)
  | leaf heading value => [(offset + heading.octets.length + value.length, .value value)]
  | branch heading children => timedAll (offset + heading.octets.length) children

theorem timed_eq (offset : Nat) (element : Element encoding) :
    element.timed offset =
      (offset + element.heading.octets.length, .start (element.heading.header offset)) ::
        (element.timedBody offset ++ [(offset + element.octets.length, .stop element.heading.tag)]) := by
  cases element with
  | leaf heading value => simp [timed, timedBody, octets, Element.heading, Nat.add_assoc]
  | branch heading children => simp [timed, timedBody, octets, Element.heading, Nat.add_assoc]

mutual

theorem map_timed (offset : Nat) (element : Element encoding) :
    (element.timed offset).map Prod.snd = element.signals offset := by
  match element with
  | .leaf heading value => rfl
  | .branch heading children => simp [timed, signals, map_timedAll _ children]

theorem map_timedAll (offset : Nat) (elements : List (Element encoding)) :
    (timedAll offset elements).map Prod.snd = signalsAll offset elements := by
  match elements with
  | [] => rfl
  | element :: rest =>
      rw [timedAll, signalsAll, List.map_append, map_timed offset element, map_timedAll _ rest]

end

mutual

/-- An element says nothing before its heading has been read, and nothing after its end. -/
theorem timed_within (offset : Nat) (element : Element encoding) :
    ∀ said ∈ element.timed offset,
      offset + element.heading.octets.length ≤ said.1 ∧ said.1 ≤ offset + element.octets.length := by
  match element with
  | .leaf heading value =>
      simp [timed, octets, Element.heading, Nat.add_assoc]
  | .branch heading children =>
      have inside := timedAll_within (offset + heading.octets.length) children
      intro said member
      simp only [timed, List.mem_cons, List.mem_append, List.mem_nil_iff, or_false] at member
      rw [octets, List.length_append, Element.heading]
      rcases member with rfl | member | rfl
      · exact ⟨Nat.le_refl _, by omega⟩
      · obtain ⟨later, ends⟩ := inside said member
        exact ⟨Nat.le_of_lt later, by omega⟩
      · exact ⟨Nat.le_add_right _ _, by omega⟩

theorem timedAll_within (offset : Nat) (elements : List (Element encoding)) :
    ∀ said ∈ timedAll offset elements,
      offset < said.1 ∧ said.1 ≤ offset + (octetsAll elements).length := by
  match elements with
  | [] => exact fun said member => absurd member List.not_mem_nil
  | element :: rest =>
      have some_octets := List.length_pos_iff.2 element.heading.octets_ne_nil
      intro said member
      rw [timedAll, List.mem_append] at member
      rw [octetsAll, List.length_append]
      rcases member with member | member
      · obtain ⟨later, ends⟩ := timed_within offset element said member
        exact ⟨by omega, by omega⟩
      · obtain ⟨later, ends⟩ := timedAll_within (offset + element.octets.length) rest said member
        exact ⟨by omega, by omega⟩

end

mutual

theorem timed_sorted (offset : Nat) (element : Element encoding) :
    (element.timed offset).Pairwise (·.1 ≤ ·.1) := by
  match element with
  | .leaf heading value => simp [timed]
  | .branch heading children =>
      have inside := timedAll_within (offset + heading.octets.length) children
      rw [timed, List.pairwise_cons, List.pairwise_append]
      refine ⟨?_, timedAll_sorted _ children, List.pairwise_singleton _ _, ?_⟩
      · intro said member
        rcases List.mem_append.1 member with member | member
        · exact Nat.le_of_lt (inside said member).1
        · rw [List.mem_singleton.1 member]
          exact Nat.le_add_right _ _
      · intro said member last final
        rw [List.mem_singleton.1 final]
        exact (inside said member).2

theorem timedAll_sorted (offset : Nat) (elements : List (Element encoding)) :
    (timedAll offset elements).Pairwise (·.1 ≤ ·.1) := by
  match elements with
  | [] => exact .nil
  | element :: rest =>
      rw [timedAll, List.pairwise_append]
      refine ⟨timed_sorted offset element, timedAll_sorted _ rest, ?_⟩
      intro said member later after
      have ends := (timed_within offset element said member).2
      have begins := (timedAll_within _ rest later after).1
      exact Nat.le_trans ends (Nat.le_of_lt begins)

end

/-- The signals whose octets end at or before a position. -/
def saidBy (position : Nat) (entries : List (Nat × Signal)) : List Signal :=
  (entries.filter (·.1 ≤ position)).map Prod.snd

section

variable {position : Nat} {entries : List (Nat × Signal)}

theorem saidBy_append (position : Nat) (front back : List (Nat × Signal)) :
    saidBy position (front ++ back) = saidBy position front ++ saidBy position back := by
  rw [saidBy, List.filter_append, List.map_append]
  rfl

theorem saidBy_of_le (ended : ∀ said ∈ entries, said.1 ≤ position) :
    saidBy position entries = entries.map Prod.snd := by
  rw [saidBy, List.filter_eq_self.2]
  exact fun said member => decide_eq_true (ended said member)

theorem saidBy_of_lt (later : ∀ said ∈ entries, position < said.1) : saidBy position entries = [] := by
  rw [saidBy, List.filter_eq_nil_iff.2, List.map_nil]
  intro said member ended
  exact Nat.not_le.2 (later said member) (of_decide_eq_true ended)

/-- What is said by a position is the beginning of what is said. -/
theorem saidBy_begins (sorted : entries.Pairwise (·.1 ≤ ·.1)) :
    saidBy position entries <+: entries.map Prod.snd := by
  induction entries with
  | nil => exact List.prefix_rfl
  | cons first rest ih =>
      obtain ⟨earlier, sorted⟩ := List.pairwise_cons.1 sorted
      by_cases ended : first.1 ≤ position
      · rw [saidBy, List.filter_cons_of_pos (by simpa using ended)]
        exact List.cons_prefix_cons.2 ⟨rfl, ih sorted⟩
      · have later : ∀ said ∈ first :: rest, position < said.1 := by
          rw [List.forall_mem_cons]
          exact ⟨Nat.not_le.1 ended, fun said member =>
            Nat.lt_of_lt_of_le (Nat.not_le.1 ended) (earlier said member)⟩
        rw [saidBy_of_lt later]
        exact List.nil_prefix

end

theorem saidBy_of_wholly {position offset : Nat} {element : Element encoding}
    (ended : offset + element.octets.length ≤ position) :
    saidBy position (element.timed offset) = element.signals offset := by
  rw [saidBy_of_le, map_timed]
  exact fun said member => Nat.le_trans (timed_within _ _ said member).2 ended

theorem saidBy_of_unbegun {position offset : Nat} {element : Element encoding}
    (unbegun : position < offset + element.heading.octets.length) :
    saidBy position (element.timed offset) = [] :=
  saidBy_of_lt fun said member =>
    Nat.lt_of_lt_of_le unbegun (timed_within _ _ said member).1

theorem saidBy_of_later {position offset : Nat} {elements : List (Element encoding)}
    (later : position ≤ offset) : saidBy position (timedAll offset elements) = [] :=
  saidBy_of_lt fun said member => Nat.lt_of_le_of_lt later (timedAll_within _ _ said member).1

/-- By a position inside its content an element has said that it starts, and not yet that it ends. -/
theorem saidBy_timed {position offset : Nat} {element : Element encoding}
    (begun : offset + element.heading.octets.length ≤ position)
    (unfinished : position < offset + element.octets.length) :
    saidBy position (element.timed offset) =
      .start (element.heading.header offset) :: saidBy position (element.timedBody offset) := by
  have later : saidBy position
      [(offset + element.octets.length, .stop element.heading.tag)] = [] :=
    saidBy_of_lt (by simpa using unfinished)
  rw [timed_eq, ← List.singleton_append, saidBy_append, saidBy_append, later, List.append_nil,
    saidBy_of_le (by simpa using begun)]
  rfl

end BerRecords.Element
