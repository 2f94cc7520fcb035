import BerRecords.Proofs.Wire.Numerals
import BerRecords.Value

/-!
# The arcs of an object identifier

Content is a series of subidentifiers to the base 128, each with any number of empty groups before
it. It is read unless it is empty, breaks off inside a subidentifier or holds one that does not fit
in 64 bits. The dotted text tells the subidentifiers, so without empty groups it tells the content.
-/

set_option autoImplicit false

namespace BerRecords

namespace Base128

variable {octets piece rest : Octets} {octet : UInt8} {number : Nat} {numbers : List Nat}

def Unpadded (octets : Octets) (number : Nat) : Prop :=
  Spells octets number ∧ octets.head? ≠ some 128

inductive Series (Written : Octets → Nat → Prop) : Octets → List Nat → Prop where
  | nil : Series Written [] []
  | cons {piece rest : Octets} {number : Nat} {numbers : List Nat} :
      Written piece number → Series Written rest numbers →
      Series Written (piece ++ rest) (number :: numbers)

theorem Series.spells (series : Series Unpadded octets numbers) : Series Spells octets numbers := by
  induction series with
  | nil => exact .nil
  | cons unpadded _ ih => exact .cons unpadded.1 ih

theorem Series.eq_flatMap (series : Series Unpadded octets numbers) :
    octets = numbers.flatMap encode := by
  induction series with
  | nil => rfl
  | cons unpadded _ ih => rw [List.flatMap_cons, ← ih, ← unpadded.1.eq_encode unpadded.2]

theorem Series.ne_nil (series : Series Spells octets numbers) (some : numbers ≠ []) :
    octets ≠ [] := by
  cases series with
  | nil => exact absurd rfl some
  | cons spells _ =>
      obtain ⟨leads, final⟩ := spells
      simp

theorem Spells.single (final : octet.toNat < 128) : Spells [octet] (value [octet]) :=
  @Spells.intro [] octet (by simp) final

theorem Spells.grow (continues : 128 ≤ octet.toNat) (spells : Spells piece number) :
    ∃ number', Spells (octet :: piece) number' := by
  obtain ⟨leads, final⟩ := spells
  exact ⟨_, .intro (List.forall_mem_cons.2 ⟨continues, leads⟩) final⟩

/-- An empty group before a number does not change it. -/
theorem Spells.pad (spells : Spells piece number) : Spells (128 :: piece) number := by
  obtain ⟨leads, final⟩ := spells
  exact .intro (List.forall_mem_cons.2 ⟨by decide, leads⟩) final

theorem Spells.unpad (spells : Spells (128 :: piece) number) : Spells piece number := by
  generalize written : 128 :: piece = octets at spells
  obtain ⟨leads, final⟩ := spells
  rename_i lead last
  cases lead with
  | nil =>
      cases written
      exact absurd final (by decide)
  | cons octet lead =>
      cases written
      exact .intro (List.forall_mem_cons.1 leads).2 final

/-- The spellings of a number are its encoding with any number of empty groups before it. -/
theorem spells_iff_padded :
    Spells octets number ↔ ∃ padding, octets = List.replicate padding 128 ++ encode number := by
  constructor
  · intro spells
    induction octets with
    | nil => exact ⟨0, spells.eq_encode (by simp)⟩
    | cons octet rest ih =>
        by_cases empty : octet = 128
        · subst empty
          obtain ⟨padding, rfl⟩ := ih spells.unpad
          exact ⟨padding + 1, rfl⟩
        · exact ⟨0, spells.eq_encode (by simpa using empty)⟩
  · rintro ⟨padding, rfl⟩
    induction padding with
    | zero => exact spells_encode number
    | succ padding ih => exact ih.pad

/-- Octets that do not end inside a number are a series. -/
theorem exists_series (octets : Octets) :
    (∃ numbers, Series Spells octets numbers) ∨ ∃ octet ∈ octets.getLast?, 128 ≤ octet.toNat := by
  induction octets with
  | nil => exact .inl ⟨[], .nil⟩
  | cons octet rest ih =>
      obtain ⟨numbers, series⟩ | ⟨last, ends, continues⟩ := ih
      · by_cases continues : 128 ≤ octet.toNat
        · cases series with
          | nil => exact .inr ⟨octet, rfl, continues⟩
          | cons spells series =>
              obtain ⟨number, grown⟩ := spells.grow continues
              exact .inl ⟨_, .cons grown series⟩
        · exact .inl ⟨_, .cons (.single (Nat.lt_of_not_le continues)) series⟩
      · refine .inr ⟨last, ?_, continues⟩
        rw [Option.mem_def] at ends
        rw [List.getLast?_cons, ends]
        rfl

end Base128

namespace Value

open Base128

section

variable {octet last : UInt8} {lead rest octets : Octets} {current : Nat} {pending : Bool}
  {numbers : List Nat}

/-- The guard before each octet stops just what would pass 64 bits. -/
theorem maxExtendable_lt_iff : maxExtendable < current ↔ ¬ extend current octet < 2 ^ 64 := by
  have small := group_lt octet
  rw [extend, show maxExtendable = 2 ^ 57 - 1 from rfl]
  omega

theorem readArcsFrom_cons :
    readArcsFrom current pending (octet :: rest) =
      if extend current octet < 2 ^ 64 then
        if 128 ≤ octet.toNat then readArcsFrom (extend current octet) true rest
        else (readArcsFrom 0 false rest).map (extend current octet :: ·)
      else .error .subidentifierTooLarge := by
  rw [readArcsFrom, ite_congr (propext (@maxExtendable_lt_iff octet current)) (fun _ => rfl) fun _ => rfl,
    ite_not]
  refine ite_congr rfl (fun _ => ?_) fun _ => rfl
  exact ite_congr (propext decide_eq_true_iff) (fun _ => rfl) fun _ => rfl

theorem le_foldl_extend (current : Nat) (octets : Octets) :
    current ≤ octets.foldl extend current := by
  rw [foldl_extend]
  exact Nat.le_add_right_of_le (Nat.le_mul_of_pos_right _ (Nat.pow_pos (by decide)))

/-- A number is read if it fits, wherever in it the guard would have stopped. -/
theorem readArcsFrom_piece (leads : ∀ octet ∈ lead, 128 ≤ octet.toNat) (final : last.toNat < 128) :
    readArcsFrom current pending (lead ++ last :: rest) =
      if (lead ++ [last]).foldl extend current < 2 ^ 64 then
        (readArcsFrom 0 false rest).map ((lead ++ [last]).foldl extend current :: ·)
      else .error .subidentifierTooLarge := by
  induction lead generalizing current pending with
  | nil =>
      rw [List.nil_append, readArcsFrom_cons, if_neg (Nat.not_le.2 final)]
      rfl
  | cons octet lead ih =>
      obtain ⟨within, leads⟩ := List.forall_mem_cons.1 leads
      rw [List.cons_append, readArcsFrom_cons, if_pos within, ih leads, List.cons_append, List.foldl_cons]
      have grows := le_foldl_extend (extend current octet) (lead ++ [last])
      by_cases fits : extend current octet < 2 ^ 64
      · rw [if_pos fits]
      · rw [if_neg fits, if_neg (by omega)]

theorem readArcsFrom_series (series : Series Spells octets numbers) :
    readArcsFrom 0 false octets =
      if ∀ number ∈ numbers, number < 2 ^ 64 then .ok numbers
      else .error .subidentifierTooLarge := by
  induction series with
  | nil => rfl
  | cons spells _ ih =>
      obtain ⟨leads, final⟩ := spells
      rename_i last
      rw [List.append_assoc, List.singleton_append, readArcsFrom_piece leads final, ih, ← value,
        apply_ite (Except.map _)]
      simp only [List.forall_mem_cons, ite_and]
      rfl

theorem readArcsFrom_cut (cut : ∃ octet ∈ octets.getLast?, 128 ≤ octet.toNat) :
    ∃ fault, readArcsFrom current pending octets = .error fault := by
  induction octets generalizing current pending with
  | nil => simp at cut
  | cons octet rest ih =>
      rw [readArcsFrom_cons]
      by_cases fits : extend current octet < 2 ^ 64
      · rw [if_pos fits]
        cases rest with
        | nil =>
            obtain ⟨last, ends, within⟩ := cut
            obtain rfl : octet = last := Option.some.inj ends
            rw [if_pos within]
            exact ⟨.subidentifierCut, rfl⟩
        | cons next rest =>
            rw [List.getLast?_cons_cons] at cut
            by_cases within : 128 ≤ octet.toNat
            · rw [if_pos within]
              exact ih cut
            · obtain ⟨fault, failed⟩ := @ih 0 false cut
              rw [if_neg within, failed]
              exact ⟨fault, rfl⟩
      · rw [if_neg fits]
        exact ⟨.subidentifierTooLarge, rfl⟩

end

/-! ## The dotted text -/

theorem splitFirst_eq (first : Nat) :
    splitFirst first = (min 2 (first / 40), first - 40 * min 2 (first / 40)) := by
  rw [splitFirst]
  split_ifs <;> simp <;> omega

theorem dotted_cons (first : Nat) (rest : List Nat) :
    dotted (first :: rest) = ".".intercalate
      ((min 2 (first / 40) :: (first - 40 * min 2 (first / 40)) :: rest).map toString) := by
  rw [dotted, splitFirst_eq]

private theorem toDigits_injective : Function.Injective (Nat.toDigits 10) := by
  intro number number' same
  have read := congrArg (Nat.ofDigitChars 10 · 0) same
  simpa [Nat.ofDigitChars_toDigits] using read

/-- The points in a dotted text are those between the arcs. -/
theorem splitOn_arcs {arcs : List Nat} (some : arcs ≠ []) :
    (".".intercalate (arcs.map toString)).toList.splitOn '.' = arcs.map (Nat.toDigits 10) := by
  have digits : (arcs.map toString).map String.toList = arcs.map (Nat.toDigits 10) := by
    rw [List.map_map]
    refine List.map_congr_left fun arc _ => ?_
    rw [Function.comp_apply, Nat.toString_eq_repr, Nat.toList_repr]
  rw [String.toList_intercalate, digits]
  refine List.splitOn_intercalate '.' ?_ (by simpa using some)
  simp only [List.forall_mem_map]
  intro arc _ point
  exact absurd (Nat.isDigit_of_mem_toDigits (by decide) (by decide) point) (by decide)

theorem dotted_injective {first first' : Nat} {rest rest' : List Nat}
    (same : dotted (first :: rest) = dotted (first' :: rest')) : first :: rest = first' :: rest' := by
  rw [dotted_cons, dotted_cons] at same
  have split := congrArg (·.toList.splitOn '.') same
  simp only [splitOn_arcs (List.cons_ne_nil _ _)] at split
  -- The first subidentifier is 40 times the top arc and the second arc, for any top arc up to 2.
  obtain ⟨top, second, rfl⟩ : _ ∧ _ ∧ rest = rest' := by
    simpa only [List.cons.injEq] using List.map_injective_iff.2 toDigits_injective split
  rw [show first = first' by omega]

/-! ## Content -/

theorem read_oid_series {octets : Octets} {numbers : List Nat} (content : octets ≠ [])
    (series : Series Spells octets numbers) :
    read .objectIdentifier octets =
      if ∀ number ∈ numbers, number < 2 ^ 64 then .ok (.oid (dotted numbers))
      else .error .subidentifierTooLarge := by
  show (readOid octets).map Value.oid = _
  rw [readOid, if_neg (by simpa using content), readArcsFrom_series series, apply_ite (Except.map _),
    apply_ite (Except.map _)]
  rfl

theorem read_oid_ok {octets : Octets} {numbers : List Nat} {text : String}
    (series : Series Spells octets numbers) (told : read .objectIdentifier octets = .ok (.oid text)) :
    ∃ first rest, numbers = first :: rest ∧ dotted (first :: rest) = text := by
  cases numbers with
  | nil =>
      cases series
      cases told
  | cons first rest =>
      refine ⟨first, rest, rfl, ?_⟩
      rw [read_oid_series (series.ne_nil (List.cons_ne_nil _ _)) series] at told
      split at told
      · cases told
        rfl
      · cases told

theorem read_oid_cut {octets : Octets} (cut : ∃ octet ∈ octets.getLast?, 128 ≤ octet.toNat) :
    ∃ fault, read .objectIdentifier octets = .error fault := by
  obtain ⟨fault, failed⟩ := @readArcsFrom_cut octets 0 false cut
  show ∃ fault, (readOid octets).map Value.oid = .error fault
  cases octets with
  | nil => exact ⟨.empty, rfl⟩
  | cons octet rest =>
      rw [readOid, List.isEmpty_cons, if_neg (by decide), failed]
      exact ⟨fault, rfl⟩

/-- A series of subidentifiers is read as its dotted text, whether or not empty groups stand before
them. Reading fails just where there is no content, the last octet promises another, or a
subidentifier takes more than 64 bits. Without empty groups the text tells the content. -/
theorem read_objectIdentifier :
    (∀ content first rest, Series Spells content (first :: rest) →
      (∀ number ∈ first :: rest, number < 2 ^ 64) →
        let top := min 2 (first / 40)
        read .objectIdentifier content =
          .ok (.oid (".".intercalate ((top :: (first - 40 * top) :: rest).map toString)))) ∧
      (∀ content, (∃ fault, read .objectIdentifier content = .error fault) ↔
        content = [] ∨ (∃ octet ∈ content.getLast?, 128 ≤ octet.toNat) ∨
          ∃ numbers, Series Spells content numbers ∧ ∃ number ∈ numbers, 2 ^ 64 ≤ number) ∧
        ∀ content content' numbers numbers' text,
          Series Unpadded content numbers → Series Unpadded content' numbers' →
            read .objectIdentifier content = .ok (.oid text) →
              read .objectIdentifier content' = .ok (.oid text) → content = content' := by
  refine ⟨fun content first rest series fit => ?_, fun content => ⟨fun ⟨fault, failed⟩ => ?_, ?_⟩, ?_⟩
  · intro top
    rw [read_oid_series (series.ne_nil (List.cons_ne_nil _ _)) series, if_pos fit, dotted_cons]
  · obtain ⟨numbers, series⟩ | cut := exists_series content
    · by_cases empty : content = []
      · exact .inl empty
      · refine .inr (.inr ⟨numbers, series, ?_⟩)
        by_contra fit
        rw [read_oid_series empty series, if_pos (by simpa using fit)] at failed
        cases failed
    · exact .inr (.inl cut)
  · rintro (rfl | cut | ⟨numbers, series, number, member, large⟩)
    · exact ⟨.empty, rfl⟩
    · exact read_oid_cut cut
    · rw [read_oid_series (series.ne_nil (List.ne_nil_of_mem member)) series,
        if_neg fun fit => Nat.not_lt.2 large (fit number member)]
      exact ⟨_, rfl⟩
  · intro content content' numbers numbers' text series series' told told'
    obtain ⟨first, rest, rfl, rfl⟩ := read_oid_ok series.spells told
    obtain ⟨first', rest', rfl, same⟩ := read_oid_ok series'.spells told'
    rw [series.eq_flatMap, series'.eq_flatMap, dotted_injective same]

/-- A padded identifier, one that breaks off, and one whose only subidentifier is a bit too wide. -/
theorem read_objectIdentifier_padded :
    read .objectIdentifier [0x80, 0x2a, 0x86, 0x48] = .ok (.oid "1.2.840") ∧
      (∃ fault, read .objectIdentifier [0x2a, 0x86] = .error fault) ∧
        ∃ fault, read .objectIdentifier
          [0x82, 0x80, 0x80, 0x80, 0x80, 0x80, 0x80, 0x80, 0x80, 0x00] = .error fault := by
  obtain ⟨meaning, fails, -⟩ := read_objectIdentifier
  have padded : Series Spells [0x80, 0x2a, 0x86, 0x48] [42, 840] :=
    .cons (@Spells.intro [0x80] 0x2a (by simp) (by decide))
      (.cons (@Spells.intro [0x86] 0x48 (by simp) (by decide)) .nil)
  have wide : Series Spells [0x82, 0x80, 0x80, 0x80, 0x80, 0x80, 0x80, 0x80, 0x80, 0x00] [2 ^ 64] :=
    .cons (@Spells.intro [0x82, 0x80, 0x80, 0x80, 0x80, 0x80, 0x80, 0x80, 0x80] 0x00
      (by simp) (by decide)) .nil
  refine ⟨(meaning _ _ _ padded (by decide)).trans (by decide +kernel), ?_, ?_⟩
  · exact (fails _).2 (.inr (.inl ⟨0x86, rfl, by decide⟩))
  · exact (fails _).2 (.inr (.inr ⟨_, wide, _, .head _, Nat.le_refl _⟩))

end Value

end BerRecords
