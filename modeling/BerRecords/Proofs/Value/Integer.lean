import BerRecords.Proofs.Wire.Numerals
import BerRecords.Value

/-!
# The value of an integer

Octets stand for an integer in two's complement, whatever their number. Leaving out an octet that
only repeats the sign does not change the integer, so what is left after leaving out as many as
possible has more than eight octets just where the integer does not fit in 64 bits.
-/

set_option autoImplicit false

namespace BerRecords

namespace Octets

/-- The integer for which all of the octets together, as one word, stand in two's complement. -/
def twosComplement (octets : Octets) : Int :=
  (BitVec.ofNat (8 * octets.length) octets.bigEndian).toInt

theorem bigEndian_lt (octets : Octets) : octets.bigEndian < 256 ^ octets.length := by
  rw [bigEndian_eq]
  exact numeralValue_lt (by decide) fun octet _ => octet.toNat_lt

theorem bigEndian_cons (first : UInt8) (rest : Octets) :
    bigEndian (first :: rest) = first.toNat * 256 ^ rest.length + bigEndian rest := by
  have read := @foldl_numeralValue 256 UInt8.toNat Nat _ first.toNat rest
  rw [bigEndian_eq rest]
  simpa [bigEndian] using read

private theorem pow_octets (count : Nat) : 2 ^ (8 * count) = 256 ^ count :=
  Nat.pow_mul 2 8 count

/-- The sign is the highest bit of the first octet, and weighs as much as a one before it. -/
theorem twosComplement_cons (first : UInt8) (rest : Octets) :
    twosComplement (first :: rest) =
      bigEndian (first :: rest) - if 128 ≤ first.toNat then 256 ^ (rest.length + 1) else 0 := by
  have bounded := bigEndian_lt (first :: rest)
  have within := bigEndian_lt rest
  rw [twosComplement, BitVec.toInt_eq_toNat_cond, BitVec.toNat_ofNat, pow_octets,
    Nat.mod_eq_of_lt bounded]
  have highest : 2 * bigEndian (first :: rest) < 256 ^ (first :: rest).length ↔ first.toNat < 128 := by
    rw [bigEndian_cons, List.length_cons, Nat.pow_succ]
    generalize 256 ^ rest.length = weight at within
    constructor
    · intro low
      by_contra high
      have := Nat.mul_le_mul_right weight (Nat.le_of_not_lt high)
      omega
    · intro low
      have := Nat.mul_le_mul_right weight (Nat.le_of_lt_succ low)
      omega
  by_cases low : first.toNat < 128
  · rw [if_pos (highest.2 low), if_neg (Nat.not_le.2 low), Int.sub_zero]
  · rw [if_neg (mt highest.1 low), if_pos (Nat.le_of_not_lt low), List.length_cons]
    push_cast
    rfl

theorem twosComplement_of_length_le {octets : Octets} (few : octets.length ≤ 8) :
    -2 ^ 63 ≤ octets.twosComplement ∧ octets.twosComplement < 2 ^ 63 := by
  have narrow : (2 : Int) ^ (8 * octets.length) ≤ 2 ^ 64 := by gcongr <;> omega
  have lower := BitVec.le_two_mul_toInt (x := BitVec.ofNat (8 * octets.length) octets.bigEndian)
  have upper := BitVec.two_mul_toInt_lt (x := BitVec.ofNat (8 * octets.length) octets.bigEndian)
  rw [← twosComplement] at lower upper
  omega

end Octets

namespace Value

open Octets

theorem signed_eq (octets : Octets) : signed octets = octets.twosComplement := by
  cases octets with
  | nil => rfl
  | cons first rest =>
      have read := fun start => @foldl_numeralValue 256 UInt8.toNat Int _ start (first :: rest)
      rw [← bigEndian_eq] at read
      rw [signed, twosComplement_cons]
      refine (read _).trans ?_
      by_cases high : 128 ≤ first.toNat
      · simp [high]
        ring
      · simp [high]

theorem redundantSign_iff {first second : UInt8} :
    redundantSign first second = true ↔
      (first.toNat = 0 ∧ second.toNat < 128) ∨ (first.toNat = 255 ∧ 128 ≤ second.toNat) := by
  simp [redundantSign, ← UInt8.toNat_inj]

/-- An octet that only repeats the sign does not count. -/
theorem twosComplement_redundant {first second : UInt8} (rest : Octets)
    (redundant : redundantSign first second = true) :
    twosComplement (first :: second :: rest) = twosComplement (second :: rest) := by
  rw [twosComplement_cons, twosComplement_cons, bigEndian_cons first, List.length_cons]
  push_cast
  obtain ⟨first_eq, low⟩ | ⟨first_eq, high⟩ := redundantSign_iff.1 redundant
  · rw [first_eq, if_neg (by decide), if_neg (Nat.not_le.2 low)]
    simp
  · rw [first_eq, if_pos (by decide), if_pos high]
    push_cast
    ring

/-- With seven octets behind it, an octet pair that is not a repeated sign leaves the 64-bit range. -/
theorem twosComplement_wide {first second : UInt8} {rest : Octets}
    (needed : ¬ redundantSign first second = true) (many : 7 ≤ rest.length) :
    ¬ (-2 ^ 63 ≤ twosComplement (first :: second :: rest) ∧
      twosComplement (first :: second :: rest) < 2 ^ 63) := by
  rw [redundantSign_iff] at needed
  have behind := bigEndian_lt rest
  have weighs : 256 ^ 7 ≤ 256 ^ rest.length := Nat.pow_le_pow_right (by decide) many
  have bounded := first.toNat_lt
  have bounded' := second.toNat_lt
  rw [twosComplement_cons, bigEndian_cons, bigEndian_cons, List.length_cons]
  simp only [pow_succ]
  push_cast
  zify at behind weighs
  generalize (256 : Int) ^ rest.length = weight at *
  by_cases negative : 128 ≤ first.toNat
  · have pair : (first.toNat : Int) * 256 + second.toNat ≤ 65407 := by omega
    have below := mul_le_mul_of_nonneg_right pair (by omega : 0 ≤ weight)
    rw [if_pos negative]
    intro within
    nlinarith
  · have pair : 128 ≤ (first.toNat : Int) * 256 + second.toNat := by omega
    have above := mul_le_mul_of_nonneg_right pair (by omega : 0 ≤ weight)
    rw [if_neg negative]
    intro within
    nlinarith

/-- Only repeated signs are dropped, and where too many octets are left the first is needed. -/
theorem dropSigns_spec (excess : Nat) (octets : Octets)
    (enough : octets.length ≤ excess + maxIntegerOctets) :
    twosComplement (dropSigns excess octets) = twosComplement octets ∧
      (maxIntegerOctets < (dropSigns excess octets).length →
        ∃ first second rest, dropSigns excess octets = first :: second :: rest ∧
          ¬ redundantSign first second = true) := by
  fun_induction dropSigns excess octets with
  | case1 excess first second rest redundant ih =>
      rw [twosComplement_redundant rest redundant]
      refine ih ?_
      rw [List.length_cons] at enough
      omega
  | case2 excess first second rest needed => exact ⟨rfl, fun _ => ⟨first, second, rest, rfl, needed⟩⟩
  | case3 excess octets short =>
      refine ⟨rfl, fun many => ?_⟩
      match excess, octets with
      | 0, _ => omega
      | _ + 1, [] => exact absurd many (Nat.not_lt_zero _)
      | _ + 1, [_] => exact absurd (Nat.le_of_succ_le_succ many) (Nat.not_lt_zero _)
      | _ + 1, _ :: _ :: _ => exact (short _ _ _ _ rfl rfl).elim

theorem readInteger_eq (octets : Octets) :
    readInteger octets =
      if octets = [] then .error .empty
      else if -2 ^ 63 ≤ octets.twosComplement ∧ octets.twosComplement < 2 ^ 63 then
        .ok octets.twosComplement
      else .error (.tooWide octets.length) := by
  obtain ⟨same, wide⟩ := dropSigns_spec (octets.length - maxIntegerOctets) octets (by omega)
  rw [readInteger]
  refine ite_congr (propext List.isEmpty_iff) (fun _ => rfl) fun _ => ?_
  generalize dropSigns (octets.length - maxIntegerOctets) octets = kept at same wide ⊢
  dsimp only
  rw [signed_eq, same]
  by_cases many : maxIntegerOctets < kept.length
  · obtain ⟨first, second, rest, rfl, needed⟩ := wide many
    have leaves := twosComplement_wide needed (Nat.le_of_succ_le_succ (Nat.le_of_succ_le_succ many))
    rw [same] at leaves
    rw [if_pos many, if_neg leaves]
  · have fits := twosComplement_of_length_le (Nat.le_of_not_lt many)
    rw [same] at fits
    rw [if_neg many, if_pos fits]

def signOctet (next : UInt8) : UInt8 :=
  if 128 ≤ next.toNat then 0xff else 0x00

theorem signOctet_signOctet (next : UInt8) : signOctet (signOctet next) = signOctet next := by
  by_cases negative : 128 ≤ next.toNat <;> simp [signOctet, negative]

theorem redundantSign_signOctet (next : UInt8) : redundantSign (signOctet next) next = true := by
  by_cases negative : 128 ≤ next.toNat
  · simp [signOctet, redundantSign, negative]
  · simp [signOctet, redundantSign, negative, Nat.lt_of_not_le negative]

theorem twosComplement_padded (count : Nat) (first : UInt8) (rest : Octets) :
    twosComplement (List.replicate count (signOctet first) ++ first :: rest) =
      twosComplement (first :: rest) := by
  induction count generalizing first rest with
  | zero => rfl
  | succ count ih =>
      have padded := ih (signOctet first) (first :: rest)
      rw [signOctet_signOctet] at padded
      rw [List.replicate_succ', List.append_assoc, List.singleton_append, padded]
      exact twosComplement_redundant rest (redundantSign_signOctet first)

/-- Content of an integer type stands for its two's complement, if there is any content and it is
within 64 bits, and has no meaning otherwise. Octets that only repeat the sign, however many, do
not matter. -/
theorem read_numeric {type : DeclaredType} (numeric : type = .integer ∨ type = .enumerated) :
    (∀ octets : Octets, read type octets =
      if octets = [] then .error .empty
      else if -2 ^ 63 ≤ octets.twosComplement ∧ octets.twosComplement < 2 ^ 63 then
        .ok (.integer octets.twosComplement)
      else .error (.tooWide octets.length)) ∧
      ∀ count first rest value,
        read type (List.replicate count (signOctet first) ++ first :: rest) = .ok value ↔
          read type (first :: rest) = .ok value := by
  have same : ∀ octets, read type octets = (readInteger octets).map .integer := by
    obtain rfl | rfl := numeric <;> exact fun _ => rfl
  refine ⟨fun octets => ?_, fun count first rest value => ?_⟩
  · rw [same, readInteger_eq, apply_ite (Except.map _), apply_ite (Except.map _)]
    rfl
  · rw [same, same, readInteger_eq, readInteger_eq, twosComplement_padded,
      if_neg (List.append_ne_nil_of_right_ne_nil _ (List.cons_ne_nil _ _)),
      if_neg (List.cons_ne_nil _ _)]
    by_cases fits : -2 ^ 63 ≤ twosComplement (first :: rest) ∧ twosComplement (first :: rest) < 2 ^ 63
    · rw [if_pos fits, if_pos fits]
    · rw [if_neg fits, if_neg fits]
      simp [Except.map]

/-- The least number with three repeated signs before it, and the number below it. -/
theorem read_numeric_of_least :
    read .enumerated [0xff, 0xff, 0xff, 0x80, 0, 0, 0, 0, 0, 0, 0] = .ok (.integer (-2 ^ 63)) ∧
      read .enumerated [0xff, 0x7f, 0xff, 0xff, 0xff, 0xff, 0xff, 0xff, 0xff] =
        .error (.tooWide 9) := by
  obtain ⟨meaning, padded⟩ := @read_numeric .enumerated (.inr rfl)
  have least : twosComplement [0x80, 0, 0, 0, 0, 0, 0, 0] = -2 ^ 63 := by decide
  have below : twosComplement [0xff, 0x7f, 0xff, 0xff, 0xff, 0xff, 0xff, 0xff, 0xff] = -2 ^ 63 - 1 := by
    decide
  refine ⟨(padded 3 0x80 _ _).2 ?_, ?_⟩
  · rw [meaning, least]
    rfl
  · rw [meaning, below]
    rfl

end Value

end BerRecords
