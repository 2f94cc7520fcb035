import BerRecords.Proofs.Text.Utf16
import BerRecords.Proofs.Value.Digits
import BerRecords.Proofs.Value.Integer
import BerRecords.Proofs.Value.Oid

/-!
# The meaning of content

What content stands for under a declared type, told without the way in which it is read: integers
by two's complement, texts and telephone numbers by the octets they are written with, and object
identifiers by their subidentifiers. Content is read as a value just when it stands for this value.
-/

set_option autoImplicit false

namespace BerRecords.Value

open Octets (twosComplement)

variable {type : DeclaredType} {octets : Octets} {value : Value}

/-- The types of texts with one octet below 128 for each character. -/
def sevenBit : List DeclaredType :=
  [.ia5String, .printableString, .visibleString, .numericString, .utcTime, .generalizedTime]

def unicode : List DeclaredType :=
  [.utf8String, .graphicString, .generalString]

def untold : List DeclaredType :=
  [.real, .octetString, .sequence, .sequenceOf, .set, .setOf, .choice, .any]

/-- The content stands for the value under the type. -/
inductive Denotes : DeclaredType → Octets → Value → Prop where
  | integer {type : DeclaredType} {octets : Octets} : type = .integer ∨ type = .enumerated →
      octets ≠ [] → -2 ^ 63 ≤ twosComplement octets → twosComplement octets < 2 ^ 63 →
      Denotes type octets (.integer (twosComplement octets))
  | false : Denotes .boolean [0] (.boolean false)
  | true {octet : UInt8} : octet ≠ 0 → Denotes .boolean [octet] (.boolean true)
  | null : Denotes .null [] .null
  | sevenBit {type : DeclaredType} {text : List Char} : type ∈ sevenBit →
      (∀ c ∈ text, c.toNat < 128) →
      Denotes type (text.map fun c => UInt8.ofNat c.toNat) (.text text)
  | utf8 {type : DeclaredType} {text : List Char} : type ∈ unicode →
      Denotes type (text.flatMap String.utf8EncodeChar) (.text text)
  | utf16 {text : List Char} :
      Denotes .bmpString ((text.flatMap Utf16.encodeChar).flatMap Utf16.unitOctets) (.text text)
  | digits {text : List Char} : (∀ symbol ∈ text, symbol ∈ symbols) →
      Denotes .tbcdString (pack text) (.digits text)
  | oid {octets : Octets} {first : Nat} {rest : List Nat} :
      Base128.Series Base128.Spells octets (first :: rest) →
      (∀ number ∈ first :: rest, number < 2 ^ 64) →
      Denotes .objectIdentifier octets (.oid (".".intercalate
        ((min 2 (first / 40) :: (first - 40 * min 2 (first / 40)) :: rest).map toString)))
  | bits {unused : UInt8} {octets : Octets} : unused.toNat ≤ 7 → (octets = [] → unused = 0) →
      Denotes .bitString (unused :: octets) (.bits unused.toNat octets)
  | raw {type : DeclaredType} {octets : Octets} : type ∈ untold → Denotes type octets (.raw octets)

/-! ## Results under a map -/

theorem exists_of_map_eq_ok {α β ε : Type} {f : α → β} {result : Except ε α} {b : β}
    (mapped : result.map f = .ok b) : ∃ a, result = .ok a ∧ f a = b := by
  cases result with
  | error => cases mapped
  | ok a =>
      cases mapped
      exact ⟨a, rfl, rfl⟩

theorem eq_ok_of_mapError {α ε δ : Type} {f : ε → δ} {result : Except ε α} {a : α}
    (mapped : result.mapError f = .ok a) : result = .ok a := by
  cases result with
  | error => cases mapped
  | ok =>
      cases mapped
      rfl

/-! ## Texts -/

theorem eq_map_of_readSevenBit {text : List Char} (read : readSevenBit octets = .ok text) :
    (∀ c ∈ text, c.toNat < 128) ∧ octets = text.map fun c => UInt8.ofNat c.toNat := by
  rw [readSevenBit] at read
  split at read
  · cases read
  · rename_i none
    have small : ∀ octet ∈ octets, octet.toNat < 128 := by
      simpa [List.findIdx?_eq_none_iff] using none
    have code : ∀ octet ∈ octets, (Char.ofNat octet.toNat).toNat = octet.toNat := by
      intro octet member
      exact Utf8.val_ofNat (.inl (Nat.lt_trans (small octet member) (by decide)))
    cases read
    refine ⟨List.forall_mem_map.2 fun octet member => ?_, ?_⟩
    · rw [code octet member]
      exact small octet member
    · rw [List.map_map]
      refine (List.map_id _).symm.trans (List.map_congr_left fun octet member => ?_)
      rw [Function.comp_apply, code octet member, UInt8.ofNat_toNat, id]

theorem readSevenBit_map {text : List Char} (small : ∀ c ∈ text, c.toNat < 128) :
    readSevenBit (text.map fun c => UInt8.ofNat c.toNat) = .ok text := by
  have code : ∀ c ∈ text, (UInt8.ofNat c.toNat).toNat = c.toNat := by
    intro c member
    rw [UInt8.toNat_ofNat']
    exact Nat.mod_eq_of_lt (Nat.lt_trans (small c member) (by decide))
  have none : (text.map fun c => UInt8.ofNat c.toNat).findIdx? (128 ≤ ·.toNat) = none := by
    rw [List.findIdx?_eq_none_iff, List.forall_mem_map]
    intro c member
    rw [code c member, decide_eq_false_iff_not, Nat.not_le]
    exact small c member
  rw [readSevenBit, none]
  dsimp only
  rw [List.map_map]
  refine congrArg _ ((List.map_congr_left fun c member => ?_).trans (List.map_id _))
  rw [Function.comp_apply, code c member, c.ofNat_toNat, id]

theorem eq_flatMap_of_readTwoOctet {text : List Char} (read : readTwoOctet octets = .ok text) :
    octets = (text.flatMap Utf16.encodeChar).flatMap Utf16.unitOctets := by
  rw [readTwoOctet] at read
  split at read
  · cases read
  · rename_i units pairs
    obtain ⟨rfl, small⟩ := Utf16.flatMap_of_units? pairs
    rw [Utf16.flatMap_of_decode small (eq_ok_of_mapError read)]

theorem readTwoOctet_flatMap (text : List Char) :
    readTwoOctet ((text.flatMap Utf16.encodeChar).flatMap Utf16.unitOctets) = .ok text := by
  have small : ∀ unit ∈ text.flatMap Utf16.encodeChar, unit < 0x10000 := by
    rw [List.forall_mem_flatMap]
    exact fun c _ unit => Utf16.encodeChar_lt
  rw [readTwoOctet, Utf16.units?_flatMap small]
  dsimp only
  rw [Utf16.decode_flatMap]
  rfl

/-! ## Content that is read -/

theorem denotes_of_readInteger (numeric : type = .integer ∨ type = .enumerated)
    (told : (readInteger octets).map .integer = .ok value) : Denotes type octets value := by
  obtain ⟨number, read, rfl⟩ := exists_of_map_eq_ok told
  rw [readInteger_eq] at read
  split at read
  · cases read
  · rename_i content
    split at read
    · rename_i fits
      cases read
      exact .integer numeric content fits.1 fits.2
    · cases read

theorem denotes_of_readSevenBit (member : type ∈ sevenBit)
    (told : (readSevenBit octets).map .text = .ok value) : Denotes type octets value := by
  obtain ⟨text, read, rfl⟩ := exists_of_map_eq_ok told
  obtain ⟨small, rfl⟩ := eq_map_of_readSevenBit read
  exact .sevenBit member small

theorem denotes_of_decode (member : type ∈ unicode)
    (told : ((Utf8.decode octets).mapError Fault.utf8).map .text = .ok value) :
    Denotes type octets value := by
  obtain ⟨text, read, rfl⟩ := exists_of_map_eq_ok told
  rw [Utf8.decode_eq_ok_iff.1 (eq_ok_of_mapError read)]
  exact .utf8 member

theorem denotes_of_readTwoOctet (told : (readTwoOctet octets).map .text = .ok value) :
    Denotes .bmpString octets value := by
  obtain ⟨text, read, rfl⟩ := exists_of_map_eq_ok told
  rw [eq_flatMap_of_readTwoOctet read]
  exact .utf16

theorem denotes_of_read_digits (told : read .tbcdString octets = .ok value) :
    Denotes .tbcdString octets value := by
  obtain ⟨text, known, rfl⟩ := (packed_of_read told).exists_text
  rw [read_pack known] at told
  cases told
  exact .digits known

theorem denotes_of_read_oid (told : read .objectIdentifier octets = .ok value) :
    Denotes .objectIdentifier octets value := by
  obtain ⟨numbers, series⟩ | cut := Base128.exists_series octets
  · cases numbers with
    | nil =>
        cases series
        cases told
    | cons first rest =>
        rw [read_oid_series (series.ne_nil (List.cons_ne_nil _ _)) series] at told
        split at told
        · rename_i fit
          cases told
          rw [dotted_cons]
          exact .oid series fit
        · cases told
  · obtain ⟨fault, failed⟩ := read_oid_cut cut
    rw [failed] at told
    cases told

theorem readBits_cons (unused : UInt8) (rest : Octets) :
    readBits (unused :: rest) =
      if unused.toNat ≤ 7 ∧ (rest = [] → unused = 0) then .ok (.bits unused.toNat rest)
      else .error (.badUnusedCount unused.toNat) := by
  have fine : ¬ (7 < unused.toNat ∨ (rest.isEmpty ∧ unused ≠ 0)) ↔
      unused.toNat ≤ 7 ∧ (rest = [] → unused = 0) := by
    rw [not_or, Nat.not_lt, List.isEmpty_iff, not_and, not_not]
  rw [readBits, ← ite_not]
  exact ite_congr (propext fine) (fun _ => rfl) fun _ => rfl

theorem denotes_of_readBits (told : readBits octets = .ok value) :
    Denotes .bitString octets value := by
  cases octets with
  | nil => cases told
  | cons unused rest =>
      rw [readBits_cons] at told
      split at told
      · rename_i fine
        cases told
        exact .bits fine.1 fine.2
      · cases told

theorem denotes_of_read (told : read type octets = .ok value) : Denotes type octets value := by
  cases type with
  | integer => exact denotes_of_readInteger (.inl rfl) told
  | enumerated => exact denotes_of_readInteger (.inr rfl) told
  | boolean =>
      -- Any other number of octets is a fault.
      match octets, told with
      | [octet], rfl =>
          by_cases zero : octet = 0
          · subst zero
            exact .false
          · rw [decide_eq_true zero]
            exact .true zero
  | null =>
      match octets, told with
      | [], rfl => exact .null
  | ia5String | printableString | visibleString | numericString | utcTime | generalizedTime =>
      exact denotes_of_readSevenBit (by decide) told
  | utf8String | graphicString | generalString => exact denotes_of_decode (by decide) told
  | bmpString => exact denotes_of_readTwoOctet told
  | tbcdString => exact denotes_of_read_digits told
  | objectIdentifier => exact denotes_of_read_oid told
  | bitString => exact denotes_of_readBits told
  | real | octetString | sequence | sequenceOf | set | setOf | choice | any =>
      cases told
      exact .raw (by decide)

/-! ## Content that has a meaning -/

theorem read_of_sevenBit (member : type ∈ sevenBit) (octets : Octets) :
    read type octets = (readSevenBit octets).map .text := by
  simp only [sevenBit, List.mem_cons, List.not_mem_nil, or_false] at member
  obtain rfl | rfl | rfl | rfl | rfl | rfl := member <;> rfl

theorem read_of_unicode (member : type ∈ unicode) (octets : Octets) :
    read type octets = ((Utf8.decode octets).mapError Fault.utf8).map .text := by
  simp only [unicode, List.mem_cons, List.not_mem_nil, or_false] at member
  obtain rfl | rfl | rfl := member <;> rfl

theorem read_of_untold (member : type ∈ untold) (octets : Octets) :
    read type octets = .ok (.raw octets) := by
  simp only [untold, List.mem_cons, List.not_mem_nil, or_false] at member
  obtain rfl | rfl | rfl | rfl | rfl | rfl | rfl | rfl := member <;> rfl

theorem read_of_denotes (denotes : Denotes type octets value) : read type octets = .ok value := by
  cases denotes with
  | integer numeric content least most =>
      have same : read type octets = (readInteger octets).map .integer := by
        obtain rfl | rfl := numeric <;> rfl
      rw [same, readInteger_eq, if_neg content, if_pos ⟨least, most⟩]
      rfl
  | false => rfl
  | true some =>
      show Except.ok (Value.boolean (decide _)) = _
      rw [decide_eq_true some]
  | null => rfl
  | sevenBit member small =>
      rw [read_of_sevenBit member, readSevenBit_map small]
      rfl
  | utf8 member =>
      rw [read_of_unicode member, Utf8.decode_utf8Encode]
      rfl
  | utf16 =>
      rw [read, readTwoOctet_flatMap]
      rfl
  | digits known => exact read_pack known
  | oid series fit =>
      rw [read_oid_series (series.ne_nil (List.cons_ne_nil _ _)) series, if_pos fit, dotted_cons]
  | bits few full => rw [read, readBits_cons, if_pos ⟨few, full⟩]
  | raw member => exact read_of_untold member octets

/-- Content is read as the values that it stands for and as no other. -/
theorem read_eq_ok_iff : read type octets = .ok value ↔ Denotes type octets value :=
  ⟨denotes_of_read, read_of_denotes⟩

end BerRecords.Value
