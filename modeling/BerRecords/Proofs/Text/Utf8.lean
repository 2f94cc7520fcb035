import BerRecords.Text.Utf8
import Mathlib.Tactic.SplitIfs

/-!
# Texts in UTF-8

Decoding gives back the characters of every text that was written as UTF-8, and it accepts no other
octets than those that a text is written with.
-/

set_option autoImplicit false

namespace BerRecords.Utf8

variable {index : Nat} {done : List Char} {rest : Octets}

/-! ## What is written is read -/

theorem isTail_ofNat (number : Nat) : isTail (UInt8.ofNat (number % 64 + 128)) = true := by
  simp only [isTail, UInt8.toNat_ofNat', Bool.and_eq_true, decide_eq_true_eq]
  omega

theorem tailBits_ofNat (number : Nat) :
    tailBits (UInt8.ofNat (number % 64 + 128)) = number % 64 := by
  rw [tailBits, UInt8.toNat_ofNat']
  omega

theorem width_eq {number octets : Nat} (byte : number < 256)
    (range : (octets = 1 ∧ number < 0x80) ∨ (octets = 2 ∧ 0xc2 ≤ number ∧ number < 0xe0) ∨
      (octets = 3 ∧ 0xe0 ≤ number ∧ number < 0xf0) ∨ (octets = 4 ∧ 0xf0 ≤ number ∧ number < 0xf5)) :
    width (UInt8.ofNat number) = octets := by
  simp only [width, UInt8.toNat_ofNat', Nat.mod_eq_of_lt byte]
  split_ifs <;> omega

/-- The second octet of three is neither that of a shorter form nor of a surrogate. -/
theorem secondFits_of_three {code : Nat} (least : 0x800 ≤ code) (most : code < 0x10000)
    (valid : code < 0xd800 ∨ 0xdfff < code) :
    secondFits (UInt8.ofNat (code / 4096 % 16 + 224)) (UInt8.ofNat (code / 64 % 64 + 128)) = true := by
  simp only [secondFits, isTail_ofNat, UInt8.toNat_ofNat', Bool.true_and]
  split_ifs <;> simp only [decide_eq_true_eq] <;> omega

/-- The second octet of four is neither that of a shorter form nor beyond the last character. -/
theorem secondFits_of_four {code : Nat} (least : 0x10000 ≤ code) (most : code < 0x110000) :
    secondFits (UInt8.ofNat (code / 262144 % 8 + 240)) (UInt8.ofNat (code / 4096 % 64 + 128)) =
      true := by
  simp only [secondFits, isTail_ofNat, UInt8.toNat_ofNat', Bool.true_and]
  split_ifs <;> simp only [decide_eq_true_eq] <;> omega

/-- The octets of a character are read as this character. -/
theorem decodeFrom_utf8EncodeChar (c : Char) :
    decodeFrom index done (String.utf8EncodeChar c ++ rest) =
      decodeFrom (index + (String.utf8EncodeChar c).length) (c :: done) rest := by
  have valid : c.val.toNat < 0xd800 ∨ 0xdfff < c.val.toNat ∧ c.val.toNat < 0x110000 := c.valid
  have same {code : Nat} (eq : code = c.val.toNat) : Char.ofNat code = c := by
    rw [eq]
    exact c.ofNat_toNat
  rw [String.utf8EncodeChar]
  split_ifs with one two three
  · have wide : width (UInt8.ofNat c.val.toNat) = 1 := width_eq (by omega) (by omega)
    rw [decodeFrom.eq_def]
    simp only [List.cons_append, List.nil_append, wide]
    rw [same (by rw [UInt8.toNat_ofNat']; omega)]
    rfl
  · have wide : width (UInt8.ofNat (c.val.toNat / 64 % 32 + 192)) = 2 :=
      width_eq (by omega) (by omega)
    rw [decodeFrom.eq_def]
    simp only [List.cons_append, List.nil_append, wide, isTail_ofNat, tailBits_ofNat, ↓reduceIte]
    rw [same (by rw [UInt8.toNat_ofNat']; omega)]
    rfl
  · have wide : width (UInt8.ofNat (c.val.toNat / 4096 % 16 + 224)) = 3 :=
      width_eq (by omega) (by omega)
    have fits := secondFits_of_three (show 0x800 ≤ c.val.toNat by omega) (by omega) (by omega)
    rw [decodeFrom.eq_def]
    simp only [List.cons_append, List.nil_append, wide, fits, isTail_ofNat, tailBits_ofNat,
      ↓reduceIte]
    rw [same (by rw [UInt8.toNat_ofNat']; omega)]
    rfl
  · have wide : width (UInt8.ofNat (c.val.toNat / 262144 % 8 + 240)) = 4 :=
      width_eq (by omega) (by omega)
    have fits := secondFits_of_four (show 0x10000 ≤ c.val.toNat by omega) (by omega)
    rw [decodeFrom.eq_def]
    simp only [List.cons_append, List.nil_append, wide, fits, isTail_ofNat, tailBits_ofNat,
      ↓reduceIte]
    rw [same (by rw [UInt8.toNat_ofNat']; omega)]
    rfl

theorem decodeFrom_utf8Encode (text : List Char) :
    decodeFrom index done (text.flatMap String.utf8EncodeChar) = .ok (done.reverse ++ text) := by
  induction text generalizing index done with
  | nil => rw [List.flatMap_nil, decodeFrom, List.append_nil]
  | cons c text ih =>
      rw [List.flatMap_cons, decodeFrom_utf8EncodeChar, ih, List.reverse_cons, List.append_assoc,
        List.singleton_append]

theorem decode_utf8Encode (text : List Char) :
    decode (text.flatMap String.utf8EncodeChar) = .ok text :=
  decodeFrom_utf8Encode text

/-! ## What is read was written -/

section

variable {octets : Octets} {first second third fourth : UInt8} {text : List Char}

theorem width_cases (first : UInt8) :
    (width first = 1 ∧ first.toNat < 0x80) ∨
      (width first = 2 ∧ 0xc2 ≤ first.toNat ∧ first.toNat < 0xe0) ∨
      (width first = 3 ∧ 0xe0 ≤ first.toNat ∧ first.toNat < 0xf0) ∨
      (width first = 4 ∧ 0xf0 ≤ first.toNat ∧ first.toNat < 0xf5) ∨ width first = 0 := by
  dsimp only [width]
  split_ifs <;> omega

theorem isTail_iff {octet : UInt8} : isTail octet = true ↔ octet.toNat = 128 + tailBits octet := by
  have bounded := octet.toNat_lt
  simp only [isTail, tailBits, Bool.and_eq_true, decide_eq_true_eq]
  omega

theorem tailBits_lt (octet : UInt8) : tailBits octet < 64 :=
  Nat.mod_lt _ (by decide)

theorem secondFits_iff : secondFits first second = true ↔
    isTail second = true ∧ (first.toNat = 0xe0 → 0xa0 ≤ second.toNat) ∧
      (first.toNat = 0xed → second.toNat < 0xa0) ∧ (first.toNat = 0xf0 → 0x90 ≤ second.toNat) ∧
      (first.toNat = 0xf4 → second.toNat < 0x90) := by
  rw [secondFits, Bool.and_eq_true]
  refine and_congr_right fun _ => ?_
  split_ifs <;> simp only [decide_eq_true_eq, true_iff] <;> omega

theorem val_ofNat {code : Nat} (valid : code.isValidChar) : (Char.ofNat code).val.toNat = code := by
  rw [Char.ofNat, dif_pos valid]
  rfl

theorem utf8EncodeChar_of_one (wide : width first = 1) :
    String.utf8EncodeChar (Char.ofNat first.toNat) = [first] := by
  have range := width_cases first
  rw [String.utf8EncodeChar, val_ofNat (.inl (by omega)), if_pos (by omega), UInt8.ofNat_toNat]

theorem utf8EncodeChar_of_two (wide : width first = 2) (tail : isTail second = true) :
    String.utf8EncodeChar (Char.ofNat (first.toNat % 32 * 64 + tailBits second)) =
      [first, second] := by
  have range := width_cases first
  have small := tailBits_lt second
  rw [isTail_iff] at tail
  generalize tailBits second = bits at *
  rw [String.utf8EncodeChar, val_ofNat (.inl (by omega)), if_neg (by omega), if_pos (by omega)]
  simp only [List.cons.injEq, ← UInt8.toNat_inj, UInt8.toNat_ofNat', and_true]
  omega

theorem utf8EncodeChar_of_three (wide : width first = 3) (fits : secondFits first second = true)
    (tail : isTail third = true) :
    String.utf8EncodeChar
        (Char.ofNat ((first.toNat % 16 * 64 + tailBits second) * 64 + tailBits third)) =
      [first, second, third] := by
  have range := width_cases first
  have lead : first.toNat = 224 + first.toNat % 16 := by omega
  have middle_lt := tailBits_lt second
  have lower_lt := tailBits_lt third
  simp only [secondFits_iff, isTail_iff] at fits tail
  generalize first.toNat % 16 = top, tailBits second = middle, tailBits third = lower at *
  have valid : ((top * 64 + middle) * 64 + lower).isValidChar := by
    rw [Nat.isValidChar]
    omega
  rw [String.utf8EncodeChar, val_ofNat valid, if_neg (by omega), if_neg (by omega),
    if_pos (by omega)]
  simp only [List.cons.injEq, ← UInt8.toNat_inj, UInt8.toNat_ofNat', and_true]
  omega

theorem utf8EncodeChar_of_four (wide : width first = 4) (fits : secondFits first second = true)
    (tail : isTail third = true) (tail' : isTail fourth = true) :
    String.utf8EncodeChar (Char.ofNat (((first.toNat % 8 * 64 + tailBits second) * 64 +
        tailBits third) * 64 + tailBits fourth)) = [first, second, third, fourth] := by
  have range := width_cases first
  have lead : first.toNat = 240 + first.toNat % 8 := by omega
  have upper_lt := tailBits_lt second
  have middle_lt := tailBits_lt third
  have lower_lt := tailBits_lt fourth
  simp only [secondFits_iff, isTail_iff] at fits tail tail'
  generalize first.toNat % 8 = top, tailBits second = upper, tailBits third = middle,
    tailBits fourth = lower at *
  have valid : (((top * 64 + upper) * 64 + middle) * 64 + lower).isValidChar := by
    rw [Nat.isValidChar]
    omega
  rw [String.utf8EncodeChar, val_ofNat valid, if_neg (by omega), if_neg (by omega),
    if_neg (by omega)]
  simp only [List.cons.injEq, ← UInt8.toNat_inj, UInt8.toNat_ofNat', and_true]
  omega

/-- The text goes on after what is done with the characters that the octets are written with. -/
def Continues (done : List Char) (octets : Octets) (text : List Char) : Prop :=
  ∃ characters, text = done.reverse ++ characters ∧
    octets = characters.flatMap String.utf8EncodeChar

theorem Continues.cons {c : Char} {lead : Octets} (written : String.utf8EncodeChar c = lead)
    (later : Continues (c :: done) rest text) : Continues done (lead ++ rest) text := by
  obtain ⟨characters, rfl, rfl⟩ := later
  refine ⟨c :: characters, ?_, ?_⟩
  · rw [List.reverse_cons, List.append_assoc, List.singleton_append]
  · rw [List.flatMap_cons, written]

theorem continues_of_decodeFrom (decoded : decodeFrom index done octets = .ok text) :
    Continues done octets text := by
  fun_induction decodeFrom index done octets
  case case1 =>
    cases decoded
    exact ⟨[], (List.append_nil _).symm, rfl⟩
  case case2 wide ih => exact .cons (utf8EncodeChar_of_one wide) (ih decoded)
  case case4 wide second rest tail ih => exact .cons (utf8EncodeChar_of_two wide tail) (ih decoded)
  case case9 wide second third rest fits tail ih =>
    exact .cons (utf8EncodeChar_of_three wide fits tail) (ih decoded)
  case case18 wide second third fourth rest fits tail tail' ih =>
    exact .cons (utf8EncodeChar_of_four wide fits tail tail') (ih decoded)
  -- Every other way ends in a fault.
  all_goals cases decoded

theorem decode_eq_ok_iff :
    decode octets = .ok text ↔ octets = text.flatMap String.utf8EncodeChar := by
  constructor
  · intro decoded
    obtain ⟨characters, rfl, rfl⟩ := continues_of_decodeFrom decoded
    rfl
  · rintro rfl
    exact decode_utf8Encode text

end

end BerRecords.Utf8
