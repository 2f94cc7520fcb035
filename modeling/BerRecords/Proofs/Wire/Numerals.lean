import BerRecords.Proofs.Wire.Grammar
import Mathlib.Data.Nat.Digits.Lemmas

/-!
# Numerals

Numbers written with one digit an octet, the most significant digit first: to the base 256 in
length fields and to the base 128 in tag numbers and subidentifiers. What is written takes the
fewest octets, and every other spelling of the same number takes more.
-/

set_option autoImplicit false

namespace BerRecords

/-- The digits of a number to a base, the most significant first and each one octet. -/
def numeral (base : Nat) (write : Nat → UInt8) (value : Nat) : Octets :=
  ((Nat.digits base value).map write).reverse

def numeralValue (base : Nat) (read : UInt8 → Nat) (octets : Octets) : Nat :=
  Nat.ofDigits base (octets.map read).reverse

section

variable {base : Nat} {read : UInt8 → Nat} {write : Nat → UInt8} {value : Nat} {octets : Octets}

theorem numeral_zero : numeral base write 0 = [] := by
  simp [numeral]

theorem numeral_of_pos (proper : 1 < base) (positive : 0 < value) :
    numeral base write value = numeral base write (value / base) ++ [write (value % base)] := by
  simp [numeral, Nat.digits_def' proper positive]

theorem length_numeral_le_iff (proper : 1 < base) {count : Nat} :
    (numeral base write value).length ≤ count ↔ value < base ^ count := by
  rw [← Nat.digits_length_le_iff proper, numeral, List.length_reverse, List.length_map]

theorem numeralValue_numeral (proper : 1 < base) (inverse : ∀ digit < base, read (write digit) = digit) :
    numeralValue base read (numeral base write value) = value := by
  have same : (Nat.digits base value).map (read ∘ write) = Nat.digits base value := by
    refine (List.map_congr_left fun digit member => ?_).trans (List.map_id _)
    exact inverse digit (Nat.digits_lt_base proper member)
  rw [numeralValue, numeral, List.map_reverse, List.reverse_reverse, List.map_map, same,
    Nat.ofDigits_digits]

/-- Reading one octet after another, most significant digit first, behind what was read before. -/
theorem foldl_numeralValue {α : Type} [CommSemiring α] (start : α) (octets : Octets) :
    octets.foldl (fun (value : α) octet => value * (base : α) + (read octet : α)) start =
      start * (base : α) ^ octets.length + (numeralValue base read octets : α) := by
  induction octets generalizing start with
  | nil => simp [numeralValue]
  | cons octet rest ih =>
      rw [List.foldl_cons, ih]
      simp only [numeralValue, List.map_cons, List.reverse_cons, Nat.ofDigits_append,
        Nat.ofDigits_singleton, List.length_cons, List.length_reverse, List.length_map]
      push_cast
      ring

theorem numeralValue_lt (proper : 1 < base) (below : ∀ octet ∈ octets, read octet < base) :
    numeralValue base read octets < base ^ octets.length := by
  have bounded := Nat.ofDigits_lt_base_pow_length (l := (octets.map read).reverse) proper
    (by simpa using below)
  simpa [numeralValue] using bounded

/-- No octets are fewer than the numeral of what they spell. -/
theorem length_numeral_numeralValue_le (proper : 1 < base)
    (below : ∀ octet ∈ octets, read octet < base) :
    (numeral base write (numeralValue base read octets)).length ≤ octets.length :=
  (length_numeral_le_iff proper).2 (numeralValue_lt proper below)

private theorem numeral_of_digits (inverse : ∀ octet ∈ octets, write (read octet) = octet)
    (digits : Nat.digits base (numeralValue base read octets) = (octets.map read).reverse) :
    numeral base write (numeralValue base read octets) = octets := by
  rw [numeral, digits, List.map_reverse, List.reverse_reverse, List.map_map]
  exact (List.map_congr_left inverse).trans (List.map_id _)

/-- Octets that are as few as the numeral of what they spell are that numeral. -/
theorem numeral_of_length_eq (proper : 1 < base) (below : ∀ octet ∈ octets, read octet < base)
    (inverse : ∀ octet ∈ octets, write (read octet) = octet)
    (few : (numeral base write (numeralValue base read octets)).length = octets.length) :
    numeral base write (numeralValue base read octets) = octets := by
  refine numeral_of_digits inverse (Nat.ofDigits_inj_of_len_eq proper ?_ ?_ ?_ ?_)
  · simpa [numeral] using few
  · exact fun digit member => Nat.digits_lt_base proper member
  · simpa using below
  · rw [Nat.ofDigits_digits, numeralValue]

/-- Octets whose first digit is not zero are the numeral of what they spell. -/
theorem numeral_of_head (proper : 1 < base) (below : ∀ octet ∈ octets, read octet < base)
    (inverse : ∀ octet ∈ octets, write (read octet) = octet)
    (leads : ∀ octet ∈ octets.head?, read octet ≠ 0) :
    numeral base write (numeralValue base read octets) = octets := by
  refine numeral_of_digits inverse (Nat.digits_ofDigits base proper _ (by simpa using below) ?_)
  cases octets with
  | nil => simp
  | cons octet rest => simpa using leads

theorem head_numeral (proper : 1 < base) (inverse : ∀ digit < base, read (write digit) = digit) :
    ∀ octet ∈ (numeral base write value).head?, read octet ≠ 0 := by
  intro octet member
  rw [numeral, List.head?_reverse, List.getLast?_map, Option.mem_def, Option.map_eq_some_iff] at member
  obtain ⟨digit, last, rfl⟩ := member
  have nonempty : Nat.digits base value ≠ [] := by
    rintro empty
    simp [empty] at last
  rw [List.getLast?_eq_some_getLast nonempty, Option.some.injEq] at last
  subst last
  rw [inverse _ (Nat.digits_lt_base proper (List.getLast_mem nonempty))]
  exact Nat.getLast_digit_ne_zero base (Nat.digits_ne_nil_iff_ne_zero.1 nonempty)

end

namespace Octets

theorem bigEndian_eq (octets : Octets) : octets.bigEndian = numeralValue 256 UInt8.toNat octets := by
  have read := @foldl_numeralValue 256 UInt8.toNat Nat _ 0 octets
  simpa [bigEndian] using read

private theorem spell_eq (value : Nat) (tail : Octets) :
    spell value tail = numeral 256 UInt8.ofNat value ++ tail := by
  fun_induction spell value tail with
  | case1 => simp [numeral_zero]
  | case2 value tail some ih =>
      rw [ih, numeral_of_pos (by decide) (Nat.pos_of_ne_zero some), List.append_assoc,
        List.singleton_append]

theorem ofNat_eq (value : Nat) : ofNat value = numeral 256 UInt8.ofNat value := by
  rw [ofNat, spell_eq, List.append_nil]

end Octets

namespace Base128

def continued (digit : Nat) : UInt8 :=
  UInt8.ofNat (128 + digit)

theorem group_lt (octet : UInt8) : group octet < 128 :=
  Nat.mod_lt _ (by decide)

theorem toNat_continued {digit : Nat} (small : digit < 128) :
    (continued digit).toNat = 128 + digit := by
  rw [continued, UInt8.toNat_ofNat', Nat.mod_eq_of_lt (by omega)]

theorem group_continued {digit : Nat} (small : digit < 128) : group (continued digit) = digit := by
  rw [group, toNat_continued small]
  omega

theorem continued_group {octet : UInt8} (continues : 128 ≤ octet.toNat) :
    continued (group octet) = octet := by
  have bounded := octet.toNat_lt
  apply UInt8.toNat_inj.1
  rw [toNat_continued (group_lt octet), group]
  omega

theorem foldl_extend (start : Nat) (octets : Octets) :
    octets.foldl extend start = start * 128 ^ octets.length + numeralValue 128 group octets :=
  foldl_numeralValue start octets

theorem value_append_singleton (lead : Octets) (last : UInt8) :
    value (lead ++ [last]) = numeralValue 128 group lead * 128 + group last := by
  have read := foldl_extend 0 lead
  rw [Nat.zero_mul, Nat.zero_add] at read
  rw [value, List.foldl_append, read]
  rfl

private theorem lead_eq (value : Nat) (tail : Octets) :
    lead value tail = numeral 128 continued value ++ tail := by
  fun_induction lead value tail with
  | case1 => simp [numeral_zero]
  | case2 value tail some ih =>
      rw [ih, numeral_of_pos (by decide) (Nat.pos_of_ne_zero some), List.append_assoc,
        List.singleton_append]
      rfl

theorem encode_eq (value : Nat) :
    encode value = numeral 128 continued (value / 128) ++ [UInt8.ofNat (value % 128)] := by
  rw [encode, lead_eq]

/-- The octets are the groups of a number, and all but the last of them continue. -/
inductive Spells : Octets → Nat → Prop where
  | intro {lead : Octets} {last : UInt8} :
      (∀ octet ∈ lead, 128 ≤ octet.toNat) → last.toNat < 128 →
      Spells (lead ++ [last]) (value (lead ++ [last]))

variable {number : Nat} {octets : Octets}

private theorem toNat_last (number : Nat) :
    (UInt8.ofNat (number % 128)).toNat = number % 128 := by
  rw [UInt8.toNat_ofNat', Nat.mod_eq_of_lt (by omega)]

theorem continues_numeral : ∀ octet ∈ numeral 128 continued number, 128 ≤ octet.toNat := by
  intro octet member
  rw [numeral, List.mem_reverse, List.mem_map] at member
  obtain ⟨digit, member, rfl⟩ := member
  rw [toNat_continued (Nat.digits_lt_base (by decide) member)]
  exact Nat.le_add_right _ _

theorem value_encode (number : Nat) : value (encode number) = number := by
  have lead := @numeralValue_numeral 128 group continued (number / 128) (by decide)
    fun _ => group_continued
  rw [encode_eq, value_append_singleton, lead, group, toNat_last]
  omega

theorem spells_encode (number : Nat) : Spells (encode number) number := by
  have small : (UInt8.ofNat (number % 128)).toNat < 128 := by
    rw [toNat_last]
    exact Nat.mod_lt _ (by decide)
  have spells := Spells.intro (@continues_numeral (number / 128)) small
  rwa [← encode_eq, value_encode] at spells

private theorem encode_value (lead : Octets) {last : UInt8} (small : last.toNat < 128) :
    encode (value (lead ++ [last])) =
      numeral 128 continued (numeralValue 128 group lead) ++ [last] := by
  have final : group last = last.toNat := Nat.mod_eq_of_lt small
  have before : (numeralValue 128 group lead * 128 + last.toNat) / 128 =
      numeralValue 128 group lead := by omega
  have after : (numeralValue 128 group lead * 128 + last.toNat) % 128 = last.toNat := by omega
  rw [value_append_singleton, encode_eq, final, before, after, UInt8.ofNat_toNat]

/-- A number has no shorter spelling than its encoding, and no other one of that length. -/
theorem Spells.shortest (spells : Spells octets number) :
    (encode number).length ≤ octets.length ∧
      ((encode number).length = octets.length → encode number = octets) := by
  obtain ⟨leads, small⟩ := spells
  rename_i lead last
  rw [encode_value lead small]
  simp only [List.length_append, Nat.add_le_add_iff_right, Nat.add_right_cancel_iff]
  refine ⟨length_numeral_numeralValue_le (by decide) fun octet _ => group_lt octet, fun few => ?_⟩
  rw [numeral_of_length_eq (by decide) (fun octet _ => group_lt octet)
    (fun octet member => continued_group (leads octet member)) few]

/-- A spelling that does not begin with an empty group is the encoding. -/
theorem Spells.eq_encode (spells : Spells octets number) (leading : octets.head? ≠ some 128) :
    octets = encode number := by
  obtain ⟨leads, small⟩ := spells
  rename_i lead last
  rw [encode_value lead small, numeral_of_head (by decide) (fun octet _ => group_lt octet)
    fun octet member => continued_group (leads octet member)]
  cases lead with
  | nil => simp
  | cons octet rest =>
      have continues := leads octet (.head _)
      have bounded := octet.toNat_lt
      rintro _ ⟨⟩ empty
      rw [group] at empty
      refine leading (congrArg some (UInt8.toNat_inj.1 ?_))
      show octet.toNat = 128
      omega

theorem encode_split (number : Nat) :
    ∃ lead last, encode number = lead ++ [last] ∧ (∀ octet ∈ lead, 128 ≤ octet.toNat) ∧
      last.toNat < 128 ∧ lead.head? ≠ some 128 := by
  refine ⟨_, _, encode_eq number, continues_numeral, ?_, fun empty => ?_⟩
  · rw [toNat_last]
    exact Nat.mod_lt _ (by decide)
  · exact @head_numeral 128 group continued (number / 128) (by decide)
      (fun _ => group_continued) 128 empty (by decide)

/-- So many octets are enough for a number of so many groups. -/
theorem length_encode_le_iff {count : Nat} :
    (encode number).length ≤ count + 1 ↔ number < 128 ^ (count + 1) := by
  rw [encode_eq, List.length_append, List.length_singleton, Nat.add_le_add_iff_right,
    length_numeral_le_iff (by decide), Nat.div_lt_iff_lt_mul (by decide), Nat.pow_succ]

end Base128

end BerRecords
