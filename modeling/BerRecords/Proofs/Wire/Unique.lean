import BerRecords.Proofs.Wire.Identifier

/-! Octets have at most one reading as a series of well-formed elements. -/

set_option autoImplicit false

namespace BerRecords

theorem Length.Spells.unique {first second left right : Octets} {length other : Nat}
    (spells : Spells first length) (spells' : Spells second other)
    (same : first ++ left = second ++ right) : first = second ∧ length = other := by
  cases spells with
  | short small =>
      cases spells' with
      | short =>
          simp only [List.cons_append, List.nil_append, List.cons.injEq] at same
          obtain ⟨rfl, -⟩ := same
          exact ⟨rfl, rfl⟩
      | long counted =>
          simp only [List.cons_append, List.cons.injEq] at same
          obtain ⟨rfl, -⟩ := same
          omega
  | long counted =>
      cases spells' with
      | short small =>
          simp only [List.cons_append, List.cons.injEq] at same
          obtain ⟨rfl, -⟩ := same
          omega
      | long counted' =>
          simp only [List.cons_append, List.cons.injEq] at same
          obtain ⟨rfl, same⟩ := same
          obtain ⟨rfl, -⟩ := List.append_inj same (by omega)
          exact ⟨rfl, rfl⟩

variable {encoding : TagEncoding}

theorem Heading.unique {heading other : Heading encoding} {left right : Octets}
    (same : heading.octets ++ left = other.octets ++ right) : heading = other ∧ left = right := by
  rcases heading with ⟨tag, length, identifier, lengthOctets, spells, measures⟩
  rcases other with ⟨tag', length', identifier', lengthOctets', spells', measures'⟩
  simp only [octets, List.append_assoc] at same
  obtain ⟨rfl, rfl⟩ := spells.unique spells' same
  have same := List.append_cancel_left same
  obtain ⟨rfl, rfl⟩ := measures.unique measures' same
  exact ⟨rfl, List.append_cancel_left same⟩

theorem Heading.octets_ne_nil (heading : Heading encoding) : heading.octets ≠ [] := by
  have spells := heading.identifier_spells
  intro empty
  simp only [octets, List.append_eq_nil_iff] at empty
  rw [empty.1] at spells
  cases spells

theorem Heading.two_le_length (heading : Heading encoding) :
    2 ≤ heading.octets.length := by
  rcases heading with ⟨tag, length, identifier, lengthOctets, spells, measures⟩
  have identified : 0 < identifier.length := by
    cases spells <;> simp
  have measured : 0 < lengthOctets.length := by
    cases measures <;> simp
  rw [octets, List.length_append]
  exact Nat.add_le_add identified measured

namespace Element

theorem octets_eq (element : Element encoding) :
    element.octets = element.heading.octets ++ element.content := by
  cases element with
  | leaf heading value => rw [octets, Element.heading, content]
  | branch heading children => rw [octets, Element.heading, content]

theorem WellFormed.length_content {element : Element encoding} (wellFormed : element.WellFormed) :
    element.content.length = element.heading.length := by
  cases element with
  | leaf heading value =>
      rw [WellFormed] at wellFormed
      exact wellFormed.2
  | branch heading children =>
      rw [WellFormed] at wellFormed
      exact wellFormed.2.1

theorem length_octets_pos (element : Element encoding) : 0 < element.octets.length := by
  have some_octets := List.length_pos_iff.2 element.heading.octets_ne_nil
  rw [octets_eq, List.length_append]
  exact Nat.add_pos_left some_octets _

/-- A well-formed element ends where its heading says. -/
theorem WellFormed.stop_eq {element : Element encoding} {offset : Nat}
    (wellFormed : element.WellFormed) :
    (element.heading.header offset).stop = offset + element.octets.length := by
  rw [octets_eq, List.length_append, wellFormed.length_content, ← Nat.add_assoc]
  rfl

mutual

theorem unique {element other : Element encoding} {left right : Octets}
    (wellFormed : element.WellFormed) (wellFormed' : other.WellFormed)
    (same : element.octets ++ left = other.octets ++ right) : element = other := by
  match element, other with
  | leaf heading value, leaf heading' value' =>
      simp only [WellFormed] at wellFormed wellFormed'
      simp only [octets, List.append_assoc] at same
      obtain ⟨rfl, contents⟩ := Heading.unique same
      obtain ⟨rfl, -⟩ := List.append_inj contents (wellFormed.2.trans wellFormed'.2.symm)
      rfl
  | leaf heading value, branch heading' children' =>
      simp only [WellFormed] at wellFormed wellFormed'
      simp only [octets, List.append_assoc] at same
      obtain ⟨rfl, -⟩ := Heading.unique same
      simp [wellFormed.1] at wellFormed'
  | branch heading children, leaf heading' value' =>
      simp only [WellFormed] at wellFormed wellFormed'
      simp only [octets, List.append_assoc] at same
      obtain ⟨rfl, -⟩ := Heading.unique same
      simp [wellFormed.1] at wellFormed'
  | branch heading children, branch heading' children' =>
      simp only [WellFormed] at wellFormed wellFormed'
      simp only [octets, List.append_assoc] at same
      obtain ⟨rfl, contents⟩ := Heading.unique same
      have inside := (List.append_inj contents
        (wellFormed.2.1.trans wellFormed'.2.1.symm)).1
      rw [unique_all wellFormed.2.2 wellFormed'.2.2 inside]

theorem unique_all {elements others : List (Element encoding)}
    (wellFormed : WellFormedAll elements) (wellFormed' : WellFormedAll others)
    (same : octetsAll elements = octetsAll others) : elements = others := by
  match elements, others with
  | [], [] => rfl
  | [], other :: others =>
      simp [octetsAll, octets_eq, other.heading.octets_ne_nil] at same
  | element :: elements, [] =>
      simp [octetsAll, octets_eq, element.heading.octets_ne_nil] at same
  | element :: elements, other :: others =>
      simp only [WellFormedAll] at wellFormed wellFormed'
      simp only [octetsAll] at same
      obtain rfl := unique wellFormed.1 wellFormed'.1 same
      rw [unique_all wellFormed.2 wellFormed'.2 (List.append_cancel_left same)]

end

/-- A nesting limit aside, octets are read in at most one way. -/
theorem Parses.unique {limit limit' : Nat} {octets : Octets}
    {elements others : List (Element encoding)} (parses : Parses limit octets elements)
    (parses' : Parses limit' octets others) : elements = others :=
  unique_all parses.wellFormed parses'.wellFormed (parses.octets_eq.trans parses'.octets_eq.symm)

end Element

end BerRecords
