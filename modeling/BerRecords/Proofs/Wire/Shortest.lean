import BerRecords.Proofs.Wire.Numerals

/-!
# Shortest headings

Of all octets that name a tag the ones written for it are the fewest, and so are those written
for a length. No other octets of that number say the same.
-/

set_option autoImplicit false

namespace BerRecords

namespace Tag

variable {tag : Tag} {low : Nat}

theorem toNat_leadOctet (small : low < 32) :
    (tag.leadOctet low).toNat =
      tag.tagClass.bits * 64 + (if tag.constructed then 32 else 0) + low := by
  have bits : tag.tagClass.bits ≤ 3 := by cases tag.tagClass <;> decide
  rw [leadOctet, UInt8.toNat_ofNat', Nat.mod_eq_of_lt]
  split <;> omega

theorem leadOctet_mod (small : low < 32) : (tag.leadOctet low).toNat % 32 = low := by
  rw [toNat_leadOctet small]
  split <;> omega

theorem ofLeadOctet_leadOctet (small : low < 32) :
    ofLeadOctet (tag.leadOctet low) tag.number = tag := by
  rcases tag with ⟨tagClass, constructed, number⟩
  rw [ofLeadOctet, toNat_leadOctet small]
  cases constructed with
  | true =>
      have front : (tagClass.bits * 64 + 32 + low) / 64 = tagClass.bits := by omega
      have form : (tagClass.bits * 64 + 32 + low) / 32 % 2 = 1 := by omega
      simp [front, form, TagClass.ofBits_bits]
  | false =>
      have front : (tagClass.bits * 64 + 0 + low) / 64 = tagClass.bits := by omega
      have form : (tagClass.bits * 64 + 0 + low) / 32 % 2 = 0 := by omega
      simp only [Bool.false_eq_true, ↓reduceIte, front, form, TagClass.ofBits_bits]
      rfl

theorem leadOctet_ofLeadOctet (octet : UInt8) (number : Nat) :
    (ofLeadOctet octet number).leadOctet (octet.toNat % 32) = octet := by
  have bounded := octet.toNat_lt
  have bits : (TagClass.ofBits (octet.toNat / 64)).bits = octet.toNat / 64 := by
    have few : octet.toNat / 64 < 4 := by omega
    generalize octet.toNat / 64 = bits at few ⊢
    interval_cases bits <;> rfl
  apply UInt8.toNat_inj.1
  rw [toNat_leadOctet (Nat.mod_lt _ (by decide)), ofLeadOctet, bits]
  by_cases form : octet.toNat / 32 % 2 = 1
  · simp only [form, decide_true, ↓reduceIte]
    omega
  · simp only [form, decide_false, Bool.false_eq_true, ↓reduceIte]
    omega

/-- The identifiers of a reader that reads this encoding can name the tag. -/
def Encodable (encoding : TagEncoding) (tag : Tag) : Prop :=
  tag.number < 31 ∨ encoding = .multiOctet ∧ tag.number < 2 ^ 28

variable {encoding : TagEncoding} {octets : Octets}

theorem octets_of_short (short : tag.number < longMark) :
    tag.octets = [tag.leadOctet tag.number] :=
  if_pos short

theorem octets_of_long (long : ¬tag.number < longMark) :
    tag.octets = tag.leadOctet longMark :: Base128.encode tag.number :=
  if_neg long

theorem spells_octets (encodable : tag.Encodable encoding) :
    Identifier.Spells encoding tag.octets tag := by
  by_cases short : tag.number < longMark
  · have small : tag.number < 32 := Nat.lt_trans short (by decide)
    have unmarked : (tag.leadOctet tag.number).toNat % 32 ≠ longMark := by
      rw [leadOctet_mod small]
      exact Nat.ne_of_lt short
    have spells := @Identifier.Spells.short encoding _ unmarked
    rwa [leadOctet_mod small, ofLeadOctet_leadOctet small, ← octets_of_short short] at spells
  · obtain ⟨enabled, bounded⟩ := encodable.resolve_left short
    have few : (Base128.encode tag.number).length ≤ 3 + 1 :=
      Base128.length_encode_le_iff.2 (Nat.lt_of_lt_of_eq bounded (by norm_num))
    obtain ⟨lead, last, split, leads, final, leading⟩ := Base128.encode_split tag.number
    rw [split, List.length_append, List.length_singleton] at few
    have spells := @Identifier.Spells.long encoding (tag.leadOctet longMark) last lead enabled
      (leadOctet_mod (by decide)) few leading leads final
    rwa [← split, Base128.value_encode, ofLeadOctet_leadOctet (by decide),
      ← octets_of_long short] at spells

end Tag

theorem Identifier.Spells.shortest {encoding : TagEncoding} {octets : Octets} {tag : Tag}
    (spells : Spells encoding octets tag) :
    tag.octets.length ≤ octets.length ∧
      (tag.octets.length = octets.length → tag.octets = octets) := by
  cases spells with
  | @short octet unmarked =>
      have small : octet.toNat % 32 < Tag.longMark := by
        rw [Tag.longMark] at unmarked ⊢
        omega
      rw [Tag.octets_of_short small]
      exact ⟨Nat.le_refl _, fun _ => congrArg (· :: []) (Tag.leadOctet_ofLeadOctet octet _)⟩
  | @long first last lead _ marked _ _ leads final =>
      have least := (Base128.Spells.intro leads final).shortest
      generalize Base128.value (lead ++ [last]) = number at least ⊢
      have same : (Tag.ofLeadOctet first number).leadOctet Tag.longMark = first := by
        rw [← marked]
        exact Tag.leadOctet_ofLeadOctet first number
      by_cases short : number < Tag.longMark
      · rw [Tag.octets_of_short short]
        simp
      · rw [Tag.octets_of_long short, same]
        simp only [List.length_cons, Nat.add_le_add_iff_right, Nat.add_right_cancel_iff]
        exact ⟨least.1, fun few => congrArg (first :: ·) (least.2 few)⟩

namespace Length

variable {length : Nat}

theorem octets_of_short (short : length < 128) : octets length = [UInt8.ofNat length] :=
  if_pos short

theorem octets_of_long (long : ¬length < 128) :
    octets length = UInt8.ofNat (128 + (Octets.ofNat length).length) :: Octets.ofNat length :=
  if_neg long

theorem spells_octets (bounded : length < 2 ^ 32) : Spells (octets length) length := by
  by_cases short : length < 128
  · have same : (UInt8.ofNat length).toNat = length := by
      rw [UInt8.toNat_ofNat']
      omega
    have spells := @Spells.short (UInt8.ofNat length) (same.symm ▸ short)
    rwa [same, ← octets_of_short short] at spells
  · have said : Octets.bigEndian (Octets.ofNat length) = length := by
      rw [Octets.bigEndian_eq, Octets.ofNat_eq]
      refine numeralValue_numeral (by decide) fun digit small => ?_
      rw [UInt8.toNat_ofNat', Nat.mod_eq_of_lt small]
    have few : (Octets.ofNat length).length ≤ maxOctets := by
      rw [Octets.ofNat_eq, length_numeral_le_iff (by decide)]
      exact Nat.lt_of_lt_of_eq bounded (by norm_num [maxOctets])
    have some : 1 ≤ (Octets.ofNat length).length := by
      rw [Nat.one_le_iff_ne_zero, Ne, List.length_eq_zero_iff]
      intro empty
      rw [empty] at said
      exact short (said ▸ by decide)
    have counted : (UInt8.ofNat (128 + (Octets.ofNat length).length)).toNat =
        128 + (Octets.ofNat length).length := by
      rw [maxOctets] at few
      rw [UInt8.toNat_ofNat']
      omega
    have spells := Spells.long counted some few
    rwa [said, ← octets_of_long short] at spells

theorem Spells.shortest {octets : Octets} (spells : Spells octets length) :
    (Length.octets length).length ≤ octets.length ∧
      ((Length.octets length).length = octets.length → Length.octets length = octets) := by
  cases spells with
  | @short octet small =>
      rw [octets_of_short small, UInt8.ofNat_toNat]
      exact ⟨Nat.le_refl _, fun _ => rfl⟩
  | @long first number counted some few =>
      by_cases short : Octets.bigEndian number < 128
      · rw [octets_of_short short]
        simp only [List.length_cons, List.length_nil]
        omega
      · rw [octets_of_long short, Octets.bigEndian_eq, Octets.ofNat_eq]
        simp only [List.length_cons, Nat.add_le_add_iff_right, Nat.add_right_cancel_iff]
        refine ⟨length_numeral_numeralValue_le (by decide) fun octet _ => octet.toNat_lt,
          fun same => ?_⟩
        rw [same, ← counted, UInt8.ofNat_toNat, numeral_of_length_eq (by decide)
          (fun octet _ => octet.toNat_lt) (fun octet _ => UInt8.ofNat_toNat) same]

end Length

namespace Heading

variable {encoding : TagEncoding}

def shortest (tag : Tag) (length : Nat) (encodable : tag.Encodable encoding)
    (bounded : length < 2 ^ 32) : Heading encoding where
  tag := tag
  length := length
  identifier := tag.octets
  lengthOctets := Length.octets length
  identifier_spells := tag.spells_octets encodable
  length_spells := Length.spells_octets bounded

/-- Every heading is at least as long as the one written for its tag and length, and is the same
if it is as long. -/
theorem shortest_le (heading : Heading encoding) (offset : Nat) :
    let least := (Header.shortest heading.tag heading.length offset).octets
    least.length ≤ heading.octets.length ∧
      (least.length = heading.octets.length → least = heading.octets) := by
  intro least
  obtain ⟨identifier_le, identifier_eq⟩ := heading.identifier_spells.shortest
  obtain ⟨length_le, length_eq⟩ := heading.length_spells.shortest
  have both : least.length =
      heading.tag.octets.length + (Length.octets heading.length).length := List.length_append
  rw [both, Heading.octets, List.length_append]
  refine ⟨Nat.add_le_add identifier_le length_le, fun few => ?_⟩
  -- Neither part can make up for the other, since neither is longer than what was read.
  rw [← identifier_eq (by omega), ← length_eq (by omega)]
  rfl

end Heading

end BerRecords
