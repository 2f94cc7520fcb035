import BerRecords.Proofs.Wire.Grammar

/-! The octet-by-octet automaton of identifiers accepts exactly their spellings. -/

set_option autoImplicit false

namespace BerRecords.Identifier

def Pending.Completes (encoding : TagEncoding) : Pending → Octets → Tag → Prop
  | _, [], _ => False
  | pending, octet :: rest, tag =>
    match pending.push encoding octet with
    | .error _ => False
    | .ok (.complete found) => found = tag ∧ rest = []
    | .ok (.more next) => next.Completes encoding rest tag

variable {encoding : TagEncoding}

theorem Pending.push_ne_fresh {pending : Pending} {octet : UInt8} :
    pending.push encoding octet ≠ .ok (.more .fresh) := by
  cases pending with
  | fresh =>
      simp only [push]
      split
      · simp
      · split <;> simp
  | long first number octets =>
      simp only [push]
      split
      · simp
      · split
        · simp
        · split <;> simp

private theorem continues_iff (octet : UInt8) :
    Base128.continues octet = true ↔ 128 ≤ octet.toNat := by
  simp [Base128.continues]

private theorem completes_long_iff (first : UInt8) (number count : Nat) (octets : Octets)
    (tag : Tag) :
    (Pending.long first number count).Completes encoding octets tag ↔
      ∃ lead last, octets = lead ++ [last] ∧ count + lead.length + 1 ≤ maxNumberOctets ∧
        (count = 0 → lead.head? ≠ some 128) ∧ (∀ octet ∈ lead, 128 ≤ octet.toNat) ∧
        last.toNat < 128 ∧ tag = .ofLeadOctet first (octets.foldl Base128.extend number) := by
  induction octets generalizing number count with
  | nil => simp [Pending.Completes]
  | cons octet rest ih =>
      simp only [Pending.Completes, Pending.push]
      by_cases leadingZero : count = 0 ∧ octet = 128
      · obtain ⟨rfl, rfl⟩ := leadingZero
        simp only [and_self, ↓reduceIte, false_iff]
        rintro ⟨lead, last, split, -, noZero, -, final, -⟩
        cases lead with
        | nil =>
            simp only [List.nil_append, List.cons.injEq] at split
            obtain ⟨rfl, rfl⟩ := split
            exact absurd final (by decide)
        | cons head lead =>
            simp only [List.cons_append, List.cons.injEq] at split
            obtain ⟨rfl, -⟩ := split
            exact noZero trivial rfl
      · rw [if_neg leadingZero]
        by_cases full : maxNumberOctets ≤ count
        · simp only [full, ↓reduceIte, false_iff]
          rintro ⟨lead, last, -, room, -⟩
          omega
        · rw [if_neg full]
          by_cases more : 128 ≤ octet.toNat
          · simp only [(continues_iff octet).2 more, ↓reduceIte, ih]
            constructor
            · rintro ⟨lead, last, rfl, room, -, leads, final, rfl⟩
              refine ⟨octet :: lead, last, rfl, by simp only [List.length_cons]; omega, ?_, ?_,
                final, rfl⟩
              · rintro fresh ⟨⟩
                exact leadingZero ⟨fresh, rfl⟩
              · simpa using ⟨more, leads⟩
            · rintro ⟨lead, last, split, room, -, leads, final, rfl⟩
              cases lead with
              | nil =>
                  simp only [List.nil_append, List.cons.injEq] at split
                  obtain ⟨rfl, -⟩ := split
                  omega
              | cons head lead =>
                  simp only [List.cons_append, List.cons.injEq] at split
                  obtain ⟨rfl, rfl⟩ := split
                  simp only [List.length_cons] at room
                  exact ⟨lead, last, rfl, by omega, by simp,
                    fun octet member => leads octet (.tail _ member), final, rfl⟩
          · have ends : Base128.continues octet = false := by
              simpa [Base128.continues] using more
            simp only [ends, Bool.false_eq_true, ↓reduceIte]
            constructor
            · rintro ⟨rfl, rfl⟩
              exact ⟨[], octet, rfl, by simp only [List.length_nil]; omega, by simp, by simp,
                by omega, rfl⟩
            · rintro ⟨lead, last, split, -, -, leads, -, rfl⟩
              cases lead with
              | nil =>
                  simp only [List.nil_append, List.cons.injEq] at split
                  obtain ⟨rfl, rfl⟩ := split
                  exact ⟨rfl, rfl⟩
              | cons head lead =>
                  simp only [List.cons_append, List.cons.injEq] at split
                  obtain ⟨rfl, -⟩ := split
                  exact absurd (leads _ (.head _)) more

theorem completes_fresh_iff (octets : Octets) (tag : Tag) :
    Pending.fresh.Completes encoding octets tag ↔ Spells encoding octets tag := by
  cases octets with
  | nil =>
      simp only [Pending.Completes, false_iff]
      rintro ⟨⟩
  | cons first rest =>
      simp only [Pending.Completes, Pending.push, Tag.ofOctet?]
      by_cases marked : first.toNat % 32 = Tag.longMark
      · simp only [marked, ↓reduceIte]
        cases encoding with
        | singleOctet =>
            simp only [↓reduceIte, false_iff]
            intro spells
            cases spells with
            | short unmarked => exact unmarked marked
            | long enabled => cases enabled
        | multiOctet =>
            simp only [reduceCtorEq, ↓reduceIte, completes_long_iff]
            constructor
            · rintro ⟨lead, last, rfl, room, noZero, leads, final, rfl⟩
              exact .long rfl marked (by omega) (noZero trivial) leads final
            · intro spells
              cases spells with
              | short unmarked => exact absurd marked unmarked
              | @long _ last lead enabled _ room noZero leads final =>
                  exact ⟨lead, last, rfl, by omega, fun _ => noZero, leads, final, rfl⟩
      · simp only [marked, ↓reduceIte]
        constructor
        · rintro ⟨rfl, rfl⟩
          exact .short marked
        · intro spells
          cases spells with
          | short => exact ⟨rfl, rfl⟩
          | long _ marked' => exact absurd marked' marked

private theorem completes_unique {pending : Pending} {first second left right : Octets}
    {tag other : Tag} (completes : pending.Completes encoding first tag)
    (completes' : pending.Completes encoding second other)
    (same : first ++ left = second ++ right) : first = second ∧ tag = other := by
  induction first generalizing pending second with
  | nil => exact completes.elim
  | cons octet first ih =>
      cases second with
      | nil => exact completes'.elim
      | cons octet' second =>
          simp only [List.cons_append, List.cons.injEq] at same
          obtain ⟨rfl, same⟩ := same
          simp only [Pending.Completes] at completes completes'
          cases pushed : pending.push encoding octet with
          | error fault => simp [pushed] at completes
          | ok progress =>
              cases progress with
              | complete found =>
                  simp only [pushed] at completes completes'
                  obtain ⟨rfl, rfl⟩ := completes
                  obtain ⟨rfl, rfl⟩ := completes'
                  exact ⟨rfl, rfl⟩
              | more next =>
                  simp only [pushed] at completes completes'
                  obtain ⟨rfl, rfl⟩ := ih completes completes' same
                  exact ⟨rfl, rfl⟩

/-- No identifier is the beginning of another, and none names two tags. -/
theorem Spells.unique {first second left right : Octets} {tag other : Tag}
    (spells : Spells encoding first tag) (spells' : Spells encoding second other)
    (same : first ++ left = second ++ right) : first = second ∧ tag = other :=
  completes_unique ((completes_fresh_iff first tag).2 spells)
    ((completes_fresh_iff second other).2 spells') same

end BerRecords.Identifier
