import BerRecords.Module.Assignment
import Mathlib.Data.List.Infix

/-!
# Characters and lexemes

Which characters belong to one lexeme when they stand side by side, and what the readers of single
lexemes take from a text that starts with one.
-/

set_option autoImplicit false

namespace BerRecords

namespace Text

variable {c : Char} {code : Nat} {ranges others : List (Nat × Nat)}

/-- What can be checked of all ASCII characters. -/
theorem forall_ascii {holds : Char → Prop} (all : ∀ code < 128, holds (Char.ofNat code))
    (ascii : c.toNat < 128) : holds c :=
  Char.ofNat_toNat c ▸ all c.toNat ascii

theorem not_inRanges_of_apart
    (apart : (ranges.all fun range => others.all fun other =>
      range.2 < other.1 || other.2 < range.1) = true)
    (inside : inRanges ranges code = true) : inRanges others code = false := by
  simp only [inRanges, List.any_eq_true, Bool.and_eq_true, decide_eq_true_eq] at inside
  obtain ⟨range, member, lower, upper⟩ := inside
  simp only [inRanges, List.any_eq_false, Bool.and_eq_true, decide_eq_true_eq, not_and, Nat.not_le]
  intro other member' lower'
  have order := List.all_eq_true.1 (List.all_eq_true.1 apart range member) other member'
  simp only [Bool.or_eq_true, decide_eq_true_eq] at order
  omega

theorem inRanges_of_covered
    (covered : (ranges.all fun range => others.any fun other =>
      other.1 ≤ range.1 && range.2 ≤ other.2) = true)
    (inside : inRanges ranges code = true) : inRanges others code = true := by
  simp only [inRanges, List.any_eq_true, Bool.and_eq_true, decide_eq_true_eq] at inside ⊢
  obtain ⟨range, member, lower, upper⟩ := inside
  have wider := List.all_eq_true.1 covered range member
  simp only [List.any_eq_true, Bool.and_eq_true, decide_eq_true_eq] at wider
  obtain ⟨other, member', before, behind⟩ := wider
  exact ⟨other, member', by omega, by omega⟩

theorem isWordChar_of_isBlank (blank : isBlank c = true) : isWordChar c = false := by
  by_cases ascii : c.toNat < 128
  · refine @forall_ascii c (fun c => isBlank c = true → isWordChar c = false) ?_ ascii blank
    decide +kernel
  · rw [isWordChar, if_neg ascii]
    exact not_inRanges_of_apart (by decide +kernel) blank

theorem isWordChar_of_isDecimalDigit (digit : isDecimalDigit c = true) : isWordChar c = true := by
  by_cases ascii : c.toNat < 128
  · refine @forall_ascii c (fun c => isDecimalDigit c = true → isWordChar c = true) ?_ ascii digit
    decide +kernel
  · rw [isWordChar, if_neg ascii]
    exact inRanges_of_covered (by decide +kernel) digit

end Text

namespace Module

variable {c : Char}

def isJoint (c : Char) : Bool :=
  Text.isWordChar c || c = '-'

theorem isJoint_of_isNameChar (part : isNameChar c = true) : isJoint c = true := by
  have ascii : c.toNat < 128 := by
    rw [isNameChar, Bool.and_eq_true, decide_eq_true_eq] at part
    exact part.1
  refine @Text.forall_ascii c (fun c => isNameChar c = true → isJoint c = true) ?_ ascii part
  decide +kernel

theorem isJoint_of_isDecimalDigit (digit : Text.isDecimalDigit c = true) : isJoint c = true := by
  rw [isJoint, Text.isWordChar_of_isDecimalDigit digit, Bool.true_or]

theorem isJoint_of_isBlank (blank : Text.isBlank c = true) : isJoint c = false := by
  have other : c ≠ '-' := by
    rintro rfl
    cases blank
  rw [isJoint, Text.isWordChar_of_isBlank blank, decide_eq_false other, Bool.or_false]

end Module

end BerRecords
