import BerRecords.Proofs.Reader.Heading
import BerRecords.Proofs.Wire.Shortest

/-!
# Writing and reading headers

What is written for a header is read as that header, unless the tag has a number that the
reader's identifiers cannot name. What is read is never shorter than what would be written.
-/

set_option autoImplicit false

namespace BerRecords

namespace Identifier

variable {encoding : TagEncoding}

def Pending.Refuses (encoding : TagEncoding) (fault : IdentifierError) : Pending → Octets → Prop
  | _, [] => False
  | pending, octet :: rest =>
    match pending.push encoding octet with
    | .error found => found = fault
    | .ok (.complete _) => False
    | .ok (.more next) => next.Refuses encoding fault rest

private theorem refuses_long (first : UInt8) (number count : Nat) {lead : Octets} (last : UInt8)
    (leads : ∀ octet ∈ lead, 128 ≤ octet.toNat) (leading : count = 0 → lead.head? ≠ some 128)
    (many : maxNumberOctets ≤ count + lead.length) :
    (Pending.long first number count).Refuses encoding .tooLong (lead ++ [last]) := by
  induction lead generalizing number count with
  | nil =>
      have full : maxNumberOctets ≤ count := many
      have later : count ≠ 0 := by
        rintro rfl
        exact absurd full (by decide)
      simp [Pending.Refuses, Pending.push, later, full]
  | cons octet lead ih =>
      have continues : Base128.continues octet = true := by
        simpa [Base128.continues] using leads octet (.head _)
      have proper : ¬(count = 0 ∧ octet = 128) :=
        fun empty => leading empty.1 (congrArg some empty.2)
      by_cases full : maxNumberOctets ≤ count
      · simp [Pending.Refuses, Pending.push, proper, full]
      · simp only [List.cons_append, Pending.Refuses, Pending.push, proper, full, continues,
          ↓reduceIte]
        refine ih _ _ (fun octet member => leads octet (.tail _ member)) (by simp) ?_
        rw [List.length_cons] at many
        omega

/-- The identifier of a tag that the encoding cannot name is refused. -/
theorem refuses_octets {tag : Tag} (foreign : ¬tag.Encodable encoding) :
    ∃ fault, Pending.fresh.Refuses encoding fault tag.octets := by
  rw [Tag.Encodable, not_or, not_and] at foreign
  obtain ⟨long, large⟩ := foreign
  have marked : (tag.leadOctet Tag.longMark).toNat % 32 = Tag.longMark :=
    Tag.leadOctet_mod (by decide)
  rw [Tag.octets_of_long long]
  cases encoding with
  | singleOctet =>
      exact ⟨.notEnabled (tag.leadOctet Tag.longMark), by
        simp [Pending.Refuses, Pending.push, Tag.ofOctet?, marked]⟩
  | multiOctet =>
      have many : ¬(Base128.encode tag.number).length ≤ 3 + 1 := fun few =>
        large rfl (Nat.lt_of_lt_of_eq (Base128.length_encode_le_iff.1 few) (by norm_num))
      obtain ⟨lead, last, split, leads, -, leading⟩ := Base128.encode_split tag.number
      rw [split, List.length_append, List.length_singleton] at many
      refine ⟨.tooLong, ?_⟩
      simp only [Pending.Refuses, Pending.push, Tag.ofOctet?, marked, ↓reduceIte, reduceCtorEq]
      rw [split]
      exact refuses_long _ _ 0 last leads (fun _ => leading) (by rw [maxNumberOctets]; omega)

end Identifier

namespace Reader

open Identifier (Pending)

variable {parent : Option Header} {start : Nat} {reader : Reader} {source : Source}

private theorem readIdentifier_of_refuses {pending : Pending} {octets : Octets}
    {fault : IdentifierError} (refuses : pending.Refuses reader.encoding fault octets)
    (within : Within parent (reader.offset + octets.length))
    (passes : reader.source.Passes octets source) :
    ∃ after, (readIdentifier parent start pending).on reader =
      (.error (.corrupt start (parent.map (·.offset)) "" (.identifier fault)), after) := by
  induction octets generalizing pending reader with
  | nil => exact refuses.elim
  | cons octet rest ih =>
      cases passes with
      | @cons _ middle _ _ _ next passes =>
          rw [readIdentifier_of_octet (headerOctet?_some_iff.2 ⟨within.first, middle, next, rfl⟩)]
          simp only [Pending.Refuses] at refuses
          cases pushed : pending.push reader.encoding octet with
          | error found =>
              simp only [pushed] at refuses
              exact ⟨reader.advance 1 middle, by simp [pushed, refuses]⟩
          | ok progress =>
              cases progress with
              | complete whole => simp [pushed] at refuses
              | more later =>
                  simp only [pushed] at refuses
                  obtain ⟨after, failed⟩ := @ih (reader.advance 1 middle) later refuses
                    (within_cons.1 within) passes
                  exact ⟨after, by simp [pushed, failed]⟩

/-- A header whose identifier is refused is broken structure that begins with the header. -/
theorem readHeader_of_refuses {octets rest : Octets} {fault : IdentifierError}
    (refuses : Pending.fresh.Refuses reader.encoding fault octets)
    (passes : reader.source.Passes (octets ++ rest) source) :
    ∃ after, (readHeader none).on reader =
      (.error (.corrupt reader.offset none "" (.identifier fault)), after) := by
  obtain ⟨middle, front, -⟩ := passes.split
  obtain ⟨after, failed⟩ := @readIdentifier_of_refuses none reader.offset reader middle .fresh
    octets fault refuses (within_none _) front
  refine ⟨after, ?_⟩
  rw [readHeader, Attempt.on_bind, Attempt.on_get]
  dsimp only
  rw [Attempt.on_bind, failed]
  rfl

/-- Outside any element, what is written for a header is read as that header and taken to its
last octet, whatever follows, if the tag's number is below 31, or below 2^28 and long identifiers
are enabled. Otherwise it is broken structure. Wherever a header is read, its octets are at least as
many as those written for its tag and length, and the same if they are as many. -/
theorem readHeader_inverts_shortest :
    (∀ (tag : Tag) (length : Nat) (reader : Reader) (source : Source), length < 2 ^ 32 →
      reader.source.Passes (Header.shortest tag length reader.offset).octets source →
      if tag.number < 31 ∨ reader.encoding = .multiOctet ∧ tag.number < 2 ^ 28 then
        (readHeader none).on reader =
          (.ok (some (.shortest tag length reader.offset)),
            reader.advance (Header.shortest tag length reader.offset).size source)
      else
        ∃ fault after, (readHeader none).on reader =
          (.error (.corrupt reader.offset none "" (.identifier fault)), after)) ∧
      ∀ (parent : Option Header) (reader after : Reader) (header : Header),
        (readHeader parent).on reader = (.ok (some header), after) →
        let least := (Header.shortest header.tag header.length header.offset).octets
        least.length ≤ header.octets.length ∧
          (least.length = header.octets.length → least = header.octets) := by
  constructor
  · intro tag length reader source bounded passes
    split
    · rename_i encodable
      exact readHeader_of_heading (Heading.shortest tag length encodable bounded) rfl passes
    · rename_i foreign
      obtain ⟨fault, refuses⟩ := Identifier.refuses_octets foreign
      exact ⟨fault, readHeader_of_refuses refuses passes⟩
  · intro parent reader after header read
    obtain ⟨heading, rfl, -⟩ := readHeader_some_iff.1 read
    exact heading.shortest_le reader.offset

/-- The header of a constructed element with a long identifier and two length octets at position 7, a tag
number of 28 bits and one, and a length that is padded with a zero octet. -/
theorem readHeader_inverts_shortest_of_long :
    let long : Header := ⟨⟨.context, true, 300⟩, 258, 7, [0xbf, 0x82, 0x2c, 0x82, 0x01, 0x02]⟩
    let reader : Reader :=
      ⟨.ofOctets (long.octets ++ [0xff]), 7, .multiOctet, defaultMaxDepth, none⟩
    let huge : Reader :=
      ⟨.ofOctets [0x5f, 0x81, 0x80, 0x80, 0x80, 0x00, 0x00], 0, .multiOctet, defaultMaxDepth, none⟩
    let padded : Reader := .ofSource .singleOctet defaultMaxDepth (.ofOctets [0x02, 0x82, 0x00, 0x05])
    (Header.shortest long.tag 258 7 = long ∧ (readHeader none).on reader =
        (.ok (some long), reader.advance 6 (.ofOctets [0xff]))) ∧
      (∃ fault after, (readHeader none).on huge =
        (.error (.corrupt 0 none "" (.identifier fault)), after)) ∧
      ((readHeader none).on padded).1 = .ok (some ⟨.integer, 5, 0, [0x02, 0x82, 0x00, 0x05]⟩) ∧
        (Header.shortest .integer 5 0).octets.length ≤ 4 := by
  intro long reader huge padded
  have same : Header.shortest long.tag 258 7 = long := by decide +kernel
  have passes : reader.source.Passes (Header.shortest long.tag 258 7).octets (.ofOctets [0xff]) := by
    rw [same]
    exact .cons rfl (.cons rfl (.cons rfl (.cons rfl (.cons rfl (.cons rfl .nil)))))
  have read := readHeader_inverts_shortest.1 long.tag 258 reader _ (by decide) passes
  have large : (Header.shortest (.application (2 ^ 28)) 0 0).octets =
      [0x5f, 0x81, 0x80, 0x80, 0x80, 0x00, 0x00] := by decide +kernel
  have passes' : huge.source.Passes (Header.shortest (.application (2 ^ 28)) 0 0).octets
      ⟨[], .exhausted⟩ := by
    rw [large]
    exact .cons rfl (.cons rfl (.cons rfl (.cons rfl (.cons rfl (.cons rfl (.cons rfl .nil))))))
  have failed := readHeader_inverts_shortest.1 (.application (2 ^ 28)) 0 huge _ (by decide) passes'
  have accepted : ((readHeader none).on padded).1 =
      .ok (some ⟨.integer, 5, 0, [0x02, 0x82, 0x00, 0x05]⟩) := by decide +kernel
  rw [if_pos (.inr ⟨rfl, by decide⟩)] at read
  rw [if_neg (by decide)] at failed
  refine ⟨⟨same, ?_⟩, failed, accepted, ?_⟩
  · rw [same] at read
    exact read
  · exact (readHeader_inverts_shortest.2 none padded _ _ (Prod.ext accepted rfl)).1

end Reader

end BerRecords
