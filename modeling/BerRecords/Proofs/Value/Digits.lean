import BerRecords.Value
import Mathlib.Data.Set.Function

/-!
# Telephone numbers

Content holds two of fifteen symbols an octet, the first of them in the low half. Above the last
symbol of an odd number stands filler, and nowhere else, so content and number tell each other.
-/

set_option autoImplicit false

namespace BerRecords.Value

def symbols : List Char :=
  ['0', '1', '2', '3', '4', '5', '6', '7', '8', '9', '*', '#', 'a', 'b', 'c']

def ofHalves (low high : Nat) : UInt8 :=
  UInt8.ofNat (16 * high + low)

/-- Two symbols an octet, the first in the low half, and fifteen above a last one that is alone. -/
def pack : List Char → Octets
  | [] => []
  | [last] => [ofHalves (symbols.idxOf last) 15]
  | first :: second :: rest =>
    ofHalves (symbols.idxOf first) (symbols.idxOf second) :: pack rest

/-- No half octet is filler, except that the last one may be. -/
structure Packed (content : Octets) : Prop where
  low : ∀ octet ∈ content, octet.toNat % 16 ≠ 15
  high : ∀ octet ∈ content.dropLast, octet.toNat / 16 ≠ 15

variable {content rest : Octets} {octet next : UInt8} {text : List Char} {index : Nat}

theorem packed_nil : Packed [] :=
  ⟨nofun, nofun⟩

theorem packed_singleton : Packed [octet] ↔ octet.toNat % 16 ≠ 15 :=
  ⟨fun packed => packed.low octet (.head _), fun low => ⟨by simpa using low, nofun⟩⟩

theorem packed_cons_cons : Packed (octet :: next :: rest) ↔
    octet.toNat % 16 ≠ 15 ∧ octet.toNat / 16 ≠ 15 ∧ Packed (next :: rest) := by
  constructor
  · rintro ⟨low, high⟩
    rw [List.dropLast_cons_cons] at high
    obtain ⟨low, lows⟩ := List.forall_mem_cons.1 low
    obtain ⟨high, highs⟩ := List.forall_mem_cons.1 high
    exact ⟨low, high, lows, highs⟩
  · rintro ⟨low, high, lows, highs⟩
    refine ⟨List.forall_mem_cons.2 ⟨low, lows⟩, ?_⟩
    rw [List.dropLast_cons_cons]
    exact List.forall_mem_cons.2 ⟨high, highs⟩

/-! ## Half octets -/

theorem digitSymbol_mem {half : Nat} (small : half < 15) : digitSymbol half ∈ symbols := by
  have all : ∀ half < 15, digitSymbol half ∈ symbols := by decide
  exact all half small

theorem idxOf_digitSymbol {half : Nat} (small : half < 15) :
    symbols.idxOf (digitSymbol half) = half := by
  have all : ∀ half < 15, symbols.idxOf (digitSymbol half) = half := by decide
  exact all half small

theorem idxOf_lt {symbol : Char} (member : symbol ∈ symbols) : symbols.idxOf symbol < 15 :=
  List.idxOf_lt_length_iff.2 member

theorem digitSymbol_idxOf {symbol : Char} (member : symbol ∈ symbols) :
    digitSymbol (symbols.idxOf symbol) = symbol := by
  have all : (symbols.all fun symbol => digitSymbol (symbols.idxOf symbol) == symbol) = true := by
    decide
  exact eq_of_beq (List.all_eq_true.1 all symbol member)

theorem ofHalves_low {low high : Nat} (small : low < 15) :
    (ofHalves low high).toNat % 16 = low := by
  rw [ofHalves, UInt8.toNat_ofNat']
  omega

theorem ofHalves_high {low high : Nat} (small : low < 15) (small' : high < 16) :
    (ofHalves low high).toNat / 16 = high := by
  rw [ofHalves, UInt8.toNat_ofNat']
  omega

theorem ofHalves_toNat (octet : UInt8) :
    ofHalves (octet.toNat % 16) (octet.toNat / 16) = octet := by
  rw [ofHalves, Nat.div_add_mod, UInt8.ofNat_toNat]

theorem high_lt (octet : UInt8) : octet.toNat / 16 < 16 := by
  have small := octet.toNat_lt
  omega

/-! ## Reading -/

theorem readDigitsFrom_ofHalves {low high : Nat} (small : low < 15) (small' : high < 16) :
    readDigitsFrom index (ofHalves low high :: rest) =
      if high = 15 then
        if rest.isEmpty then .ok [digitSymbol low] else .error (.earlyFiller index)
      else (readDigitsFrom (index + 1) rest).map (digitSymbol low :: digitSymbol high :: ·) := by
  have symbol : ¬low = filler := Nat.ne_of_lt small
  rw [readDigitsFrom, ofHalves_low small, ofHalves_high small small', if_neg symbol]
  rfl

theorem readDigitsFrom_pack (known : ∀ symbol ∈ text, symbol ∈ symbols) :
    readDigitsFrom index (pack text) = .ok text := by
  induction text using pack.induct generalizing index with
  | case1 => rfl
  | case2 last =>
      have member := known last (.head _)
      rw [pack, readDigitsFrom_ofHalves (idxOf_lt member) (by decide), digitSymbol_idxOf member]
      rfl
  | case3 first second rest ih =>
      obtain ⟨member, known⟩ := List.forall_mem_cons.1 known
      obtain ⟨member', known⟩ := List.forall_mem_cons.1 known
      have small := idxOf_lt member'
      rw [pack, readDigitsFrom_ofHalves (idxOf_lt member) (Nat.lt_succ_of_lt small),
        if_neg (Nat.ne_of_lt small), ih known, digitSymbol_idxOf member, digitSymbol_idxOf member']
      rfl

/-- Every content that keeps to the rule of filler is that of a number. -/
theorem Packed.exists_text (packed : Packed content) :
    ∃ text, (∀ symbol ∈ text, symbol ∈ symbols) ∧ pack text = content := by
  induction content with
  | nil => exact ⟨[], nofun, rfl⟩
  | cons octet rest ih =>
      have low : octet.toNat % 16 < 15 := by
        have := packed.low octet (.head _)
        omega
      by_cases high : octet.toNat / 16 = 15
      · -- Filler is allowed in the last octet only.
        cases rest with
        | cons next rest => exact absurd high (packed_cons_cons.1 packed).2.1
        | nil =>
            refine ⟨[digitSymbol (octet.toNat % 16)], by simpa using digitSymbol_mem low, ?_⟩
            rw [pack, idxOf_digitSymbol low, ← high, ofHalves_toNat]
      · have high : octet.toNat / 16 < 15 := by
          have := high_lt octet
          omega
        have later : Packed rest := by
          cases rest with
          | nil => exact packed_nil
          | cons next rest => exact (packed_cons_cons.1 packed).2.2
        obtain ⟨text, known, rfl⟩ := ih later
        refine ⟨digitSymbol (octet.toNat % 16) :: digitSymbol (octet.toNat / 16) :: text, ?_, ?_⟩
        · exact List.forall_mem_cons.2
            ⟨digitSymbol_mem low, List.forall_mem_cons.2 ⟨digitSymbol_mem high, known⟩⟩
        · rw [pack, idxOf_digitSymbol low, idxOf_digitSymbol high, ofHalves_toNat]

theorem packed_of_readDigitsFrom (read : readDigitsFrom index content = .ok text) :
    Packed content := by
  induction content generalizing index text with
  | nil => exact packed_nil
  | cons octet rest ih =>
      rw [readDigitsFrom] at read
      split at read
      · cases read
      · rename_i low
        split at read
        · split at read
          · rename_i last
            rw [List.isEmpty_iff.1 last]
            exact packed_singleton.2 low
          · cases read
        · rename_i high
          rcases later : readDigitsFrom (index + 1) rest with fault | tail
          · rw [later] at read
            cases read
          · have packed := ih later
            cases rest with
            | nil => exact packed_singleton.2 low
            | cons next rest => exact packed_cons_cons.2 ⟨low, high, packed⟩

theorem read_pack (known : ∀ symbol ∈ text, symbol ∈ symbols) :
    read .tbcdString (pack text) = .ok (.digits text) := by
  show (readDigitsFrom 0 (pack text)).map Value.digits = _
  rw [readDigitsFrom_pack known]
  rfl

theorem packed_of_read {value : Value} (told : read .tbcdString content = .ok value) :
    Packed content := by
  change (readDigitsFrom 0 content).map Value.digits = _ at told
  rcases told' : readDigitsFrom 0 content with fault | text
  · rw [told'] at told
    cases told
  · exact packed_of_readDigitsFrom told'

/-- Content is read exactly if no half octet but the last is filler. Reading pairs this content one
to one with the numbers of the fifteen symbols, and takes a number back out of the octets that it
is packed into. -/
theorem read_tbcdString :
    (∀ content, (∃ value, read .tbcdString content = .ok value) ↔ Packed content) ∧
      Set.BijOn (read .tbcdString) {content | Packed content}
        ((fun text => .ok (.digits text)) '' {text | ∀ symbol ∈ text, symbol ∈ symbols}) ∧
      ∀ text, (∀ symbol ∈ text, symbol ∈ symbols) →
        read .tbcdString (pack text) = .ok (.digits text) := by
  refine ⟨fun content => ⟨fun ⟨value, told⟩ => packed_of_read told, fun packed => ?_⟩,
    ⟨?mapsTo, ?injOn, ?surjOn⟩, fun text known => read_pack known⟩
  · obtain ⟨text, known, rfl⟩ := packed.exists_text
    exact ⟨_, read_pack known⟩
  case mapsTo =>
    intro content packed
    obtain ⟨text, known, rfl⟩ := Packed.exists_text packed
    exact ⟨text, known, (read_pack known).symm⟩
  case injOn =>
    intro content packed content' packed' same
    obtain ⟨text, known, rfl⟩ := Packed.exists_text packed
    obtain ⟨text', known', rfl⟩ := Packed.exists_text packed'
    rw [read_pack known, read_pack known'] at same
    cases same
    rfl
  case surjOn =>
    rintro _ ⟨text, known, rfl⟩
    exact ⟨pack text, packed_of_read (read_pack known), read_pack known⟩

/-- A number with an odd count of symbols, and filler before the last octet. -/
theorem read_tbcdString_odd :
    read .tbcdString [0x21, 0xba, 0xfc] = .ok (.digits ['1', '2', '*', '#', 'a']) ∧
      ¬∃ value, read .tbcdString [0xf1, 0x22] = .ok value := by
  obtain ⟨accepts, -, undoes⟩ := read_tbcdString
  have packed : pack ['1', '2', '*', '#', 'a'] = [0x21, 0xba, 0xfc] := by decide
  refine ⟨?_, fun told => ?_⟩
  · rw [← packed]
    exact undoes _ (by simp [symbols])
  · exact ((accepts _).1 told).high 0xf1 (by decide) (by decide)

end BerRecords.Value
