import BerRecords.Proofs.Text.Utf8
import BerRecords.Text.Utf16

/-!
# Texts in UTF-16

Pairs of octets are read as a text just when they are the big-endian units of this text: one unit
for a character of the first 65536, and two surrogates with ten bits each for every other.
-/

set_option autoImplicit false

namespace BerRecords.Utf16

variable {octets : Octets} {unit : Nat} {units : List Nat} {text : List Char}

def encodeChar (c : Char) : List Nat :=
  if c.toNat < 0x10000 then [c.toNat]
  else [0xd800 + (c.toNat - 0x10000) / 0x400, 0xdc00 + (c.toNat - 0x10000) % 0x400]

def unitOctets (unit : Nat) : Octets :=
  [UInt8.ofNat (unit / 256), UInt8.ofNat (unit % 256)]

/-! ## Units -/

theorem encodeChar_lt {c : Char} (member : unit ∈ encodeChar c) : unit < 0x10000 := by
  have valid : c.toNat < 0xd800 ∨ 0xdfff < c.toNat ∧ c.toNat < 0x110000 := c.valid
  rw [encodeChar] at member
  split at member
  · rw [List.mem_singleton] at member
    omega
  · simp only [List.mem_cons, List.not_mem_nil, or_false] at member
    omega

theorem units?_unitOctets (small : unit < 0x10000) :
    units? (unitOctets unit ++ octets) = (units? octets).map (unit :: ·) := by
  have spelled : (UInt8.ofNat (unit / 256)).toNat * 256 + (UInt8.ofNat (unit % 256)).toNat = unit := by
    rw [UInt8.toNat_ofNat', UInt8.toNat_ofNat']
    omega
  rw [unitOctets, List.cons_append, List.singleton_append, units?, spelled]

theorem units?_flatMap (small : ∀ unit ∈ units, unit < 0x10000) :
    units? (units.flatMap unitOctets) = some units := by
  induction units with
  | nil => rfl
  | cons unit rest ih =>
      obtain ⟨first, small⟩ := List.forall_mem_cons.1 small
      rw [List.flatMap_cons, units?_unitOctets first, ih small]
      rfl

theorem flatMap_of_units? (read : units? octets = some units) :
    octets = units.flatMap unitOctets ∧ ∀ unit ∈ units, unit < 0x10000 := by
  fun_induction units? octets generalizing units with
  | case1 =>
      cases read
      exact ⟨rfl, nofun⟩
  | case2 => cases read
  | case3 high low rest ih =>
      obtain ⟨later, pairs, rfl⟩ := Option.map_eq_some_iff.1 read
      obtain ⟨rfl, small⟩ := ih pairs
      have highest := high.toNat_lt
      have lowest := low.toNat_lt
      refine ⟨?_, List.forall_mem_cons.2 ⟨by omega, small⟩⟩
      simp only [List.flatMap_cons, unitOctets, List.cons_append, List.nil_append,
        List.cons.injEq, ← UInt8.toNat_inj, UInt8.toNat_ofNat', and_true]
      omega

/-! ## Characters -/

theorem isHigh_iff : isHigh unit = true ↔ 0xd800 ≤ unit ∧ unit < 0xdc00 := by
  simp [isHigh]

theorem isLow_iff : isLow unit = true ↔ 0xdc00 ≤ unit ∧ unit < 0xe000 := by
  simp [isLow]

theorem decode_cons (high : ¬ isHigh unit = true) (low : ¬ isLow unit = true) (units : List Nat) :
    decode (unit :: units) = (decode units).map (Char.ofNat unit :: ·) := by
  cases units with
  | nil =>
      have neither : ¬ (isHigh unit || isLow unit) = true := by simp [high, low]
      simp only [decode, if_neg neither]
      rfl
  | cons next rest =>
      rw [decode, if_neg low, if_neg high]
      rfl

theorem decode_cons_cons {next : Nat} (high : isHigh unit = true) (low : isLow next = true)
    (units : List Nat) :
    decode (unit :: next :: units) = (decode units).map
      (Char.ofNat (0x10000 + (unit - 0xd800) * 0x400 + (next - 0xdc00)) :: ·) := by
  have other : ¬ isLow unit = true := by
    rw [isHigh_iff] at high
    rw [isLow_iff]
    omega
  rw [decode, if_neg other, if_pos high, if_pos low]
  rfl

theorem decode_encodeChar (c : Char) (units : List Nat) :
    decode (encodeChar c ++ units) = (decode units).map (c :: ·) := by
  have valid : c.toNat < 0xd800 ∨ 0xdfff < c.toNat ∧ c.toNat < 0x110000 := c.valid
  rw [encodeChar]
  split
  · rw [List.singleton_append, decode_cons, c.ofNat_toNat]
    · rw [isHigh_iff]
      omega
    · rw [isLow_iff]
      omega
  · have joined : 0x10000 + (0xd800 + (c.toNat - 0x10000) / 0x400 - 0xd800) * 0x400 +
        (0xdc00 + (c.toNat - 0x10000) % 0x400 - 0xdc00) = c.toNat := by omega
    rw [List.cons_append, List.singleton_append, decode_cons_cons, joined, c.ofNat_toNat]
    · rw [isHigh_iff]
      omega
    · rw [isLow_iff]
      omega

theorem decode_flatMap (text : List Char) : decode (text.flatMap encodeChar) = .ok text := by
  induction text with
  | nil => rfl
  | cons c text ih =>
      rw [List.flatMap_cons, decode_encodeChar, ih]
      rfl

theorem encodeChar_ofNat (small : unit < 0x10000) (high : ¬ isHigh unit = true)
    (low : ¬ isLow unit = true) : encodeChar (Char.ofNat unit) = [unit] := by
  rw [isHigh_iff] at high
  rw [isLow_iff] at low
  have code : (Char.ofNat unit).toNat = unit := Utf8.val_ofNat (by rw [Nat.isValidChar]; omega)
  rw [encodeChar, code, if_pos small]

theorem encodeChar_pair {next : Nat} (high : isHigh unit = true) (low : isLow next = true) :
    encodeChar (Char.ofNat (0x10000 + (unit - 0xd800) * 0x400 + (next - 0xdc00))) =
      [unit, next] := by
  rw [isHigh_iff] at high
  rw [isLow_iff] at low
  have code : (Char.ofNat (0x10000 + (unit - 0xd800) * 0x400 + (next - 0xdc00))).toNat =
      0x10000 + (unit - 0xd800) * 0x400 + (next - 0xdc00) :=
    Utf8.val_ofNat (by rw [Nat.isValidChar]; omega)
  rw [encodeChar, code, if_neg (by omega)]
  simp only [List.cons.injEq, and_true]
  omega

theorem flatMap_of_decode (small : ∀ unit ∈ units, unit < 0x10000)
    (decoded : decode units = .ok text) : units = text.flatMap encodeChar := by
  fun_induction decode units generalizing text
  case case1 =>
    cases decoded
    rfl
  case case3 unit single =>
    cases decoded
    rw [Bool.or_eq_true, not_or] at single
    rw [List.flatMap_singleton, encodeChar_ofNat (small unit (.head _)) single.1 single.2]
  case case5 unit next rest _ high low ih =>
    obtain ⟨-, small⟩ := List.forall_mem_cons.1 small
    obtain ⟨-, small⟩ := List.forall_mem_cons.1 small
    rcases later : decode rest with fault | tail
    · rw [later] at decoded
      cases decoded
    · rw [later] at decoded
      cases decoded
      rw [List.flatMap_cons, encodeChar_pair high low, ← ih small later]
      rfl
  case case7 unit next rest low high ih =>
    obtain ⟨first, small⟩ := List.forall_mem_cons.1 small
    rcases later : decode (next :: rest) with fault | tail
    · rw [later] at decoded
      cases decoded
    · rw [later] at decoded
      cases decoded
      rw [List.flatMap_cons, encodeChar_ofNat first high low, ← ih small later]
      rfl
  -- An unpaired surrogate is refused.
  all_goals cases decoded

end BerRecords.Utf16
