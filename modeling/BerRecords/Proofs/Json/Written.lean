import BerRecords.Proofs.Json.Grammar

/-!
# Written values

The written form of a value is a JSON text, and the value is its only reading. It is free of control
characters, whatever texts are in the value, so it takes one line.
-/

set_option autoImplicit false

namespace BerRecords.Json

variable {text rest tail : List Char}

/-! ## Numbers -/

/-- What follows a number does not go on with it. -/
def Apart (tail : List Char) : Prop :=
  ∀ c ∈ tail.head?, c.isDigit = false

theorem apart_cons {c : Char} (other : c.isDigit = false) : Apart (c :: tail) :=
  fun _ same => Option.some.inj same ▸ other

theorem takeWhile_of_apart (apart : Apart tail) : tail.takeWhile Char.isDigit = [] := by
  cases tail with
  | nil => rfl
  | cons c tail => exact List.takeWhile_cons_of_neg (by simp [apart c rfl])

theorem dropWhile_of_apart (apart : Apart tail) : tail.dropWhile Char.isDigit = tail := by
  cases tail with
  | nil => rfl
  | cons c tail => exact List.dropWhile_cons_of_neg (by simp [apart c rfl])

theorem head?_toDigits {value : Nat} (zero : (Nat.toDigits 10 value).head? = some '0') :
    value = 0 := by
  induction value using Nat.strongRecOn with
  | ind value ih =>
      rw [Nat.toDigits_eq_if (by decide)] at zero
      split at zero
      · exact Nat.digitChar_eq_zero.1 (Option.some.inj zero)
      · rename_i large
        have front : (Nat.toDigits 10 (value / 10)).head? = some '0' := by
          rw [List.head?_append] at zero
          cases first : (Nat.toDigits 10 (value / 10)).head? with
          | none => exact absurd (List.head?_eq_none_iff.1 first) Nat.toDigits_ne_nil
          | some c => rwa [first] at zero
        have small := ih (value / 10) (by omega) front
        omega

theorem isDecimal_toDigits (value : Nat) : IsDecimal (Nat.toDigits 10 value) := by
  refine ⟨Nat.toDigits_ne_nil, fun zero => ?_⟩
  rw [head?_toDigits zero]
  rfl

theorem takeWhile_toDigits (value : Nat) (apart : Apart tail) :
    (Nat.toDigits 10 value ++ tail).takeWhile Char.isDigit = Nat.toDigits 10 value := by
  rw [List.takeWhile_append_of_pos fun c member =>
    Nat.isDigit_of_mem_toDigits (by decide) (by decide) member, takeWhile_of_apart apart,
    List.append_nil]

theorem dropWhile_toDigits (value : Nat) (apart : Apart tail) :
    (Nat.toDigits 10 value ++ tail).dropWhile Char.isDigit = tail := by
  rw [List.dropWhile_append_of_pos fun c member =>
    Nat.isDigit_of_mem_toDigits (by decide) (by decide) member, dropWhile_of_apart apart]

theorem toList_toString_ofNat (value : Nat) :
    (toString (Int.ofNat value)).toList = Nat.toDigits 10 value :=
  String.toList_ofList

theorem toList_toString_negSucc (value : Nat) :
    (toString (Int.negSucc value)).toList = '-' :: Nat.toDigits 10 (value + 1) := by
  have spelled : toString (Int.negSucc value) = "-" ++ Nat.repr (value + 1) := rfl
  rw [spelled, String.toList_append]
  exact congrArg ('-' :: ·) String.toList_ofList

theorem numeral_toString (value : Int) (apart : Apart tail) :
    Numeral ((toString value).toList ++ tail) value tail := by
  have decimal (digits : Nat) :
      IsDecimal ((Nat.toDigits 10 digits ++ tail).takeWhile Char.isDigit) := by
    rw [takeWhile_toDigits digits apart]
    exact isDecimal_toDigits digits
  cases value with
  | ofNat value =>
      have natural := Numeral.natural (decimal value)
      rwa [takeWhile_toDigits value apart, dropWhile_toDigits value apart,
        Nat.ofDigitChars_ten_toDigits, ← toList_toString_ofNat] at natural
  | negSucc value =>
      have negative := Numeral.negative (decimal (value + 1))
      rwa [takeWhile_toDigits _ apart, dropWhile_toDigits _ apart,
        Nat.ofDigitChars_ten_toDigits, ← List.cons_append, ← toList_toString_negSucc] at negative

/-! ## Values -/

theorem isBlank_of_isDigit {c : Char} (digit : c.isDigit = true) : isBlank c = false := by
  have blank {other : Char} (apart : other.isDigit = false) : c ≠ other :=
    fun same => by rw [same, apart] at digit; cases digit
  simp [isBlank, blank (rfl : Char.isDigit ' ' = false), blank (rfl : Char.isDigit '\t' = false),
    blank (rfl : Char.isDigit '\n' = false), blank (rfl : Char.isDigit '\r' = false)]

/-- No value begins with a blank. -/
theorem Reads.skip_eq {value : Json} (reads : Reads text value rest) : skip text = text := by
  cases reads with
  | integer numeral =>
      cases text with
      | nil => rfl
      | cons c text =>
          have head := numeral.head
          rw [Bool.or_eq_true, decide_eq_true_eq] at head
          refine List.dropWhile_cons_of_neg (Bool.eq_false_iff.1 ?_)
          rcases head with rfl | digit
          · rfl
          · exact isBlank_of_isDigit digit
  | _ => rfl

theorem readsMember_write {key text : List Char} {value : Json} (reads : Reads text value rest) :
    ReadsMember (skip (quote key ++ ':' :: text)) key value rest := by
  have skipped : skip (quote key ++ ':' :: text) =
      '"' :: (key.flatMap escape ++ '"' :: ':' :: text) := by
    rw [quote, List.cons_append, List.append_assoc]
    rfl
  rw [skipped]
  exact .member (literal_escapes key _) rfl (reads.skip_eq.symm ▸ reads)

mutual

theorem reads_write {tail : List Char} :
    ∀ value : Json, Apart tail → Reads (write tail value) value tail
  | .null, _ => .null
  | .boolean true, _ => .true
  | .boolean false, _ => .false
  | .integer value, apart => .integer (numeral_toString value apart)
  | .text characters, _ => by
      rw [write, quote, List.cons_append, List.append_assoc]
      exact .text (literal_escapes characters tail)
  | .array [], _ => .noItems rfl
  | .array (item :: items), _ => .array (readsItems_write (item :: items) (List.cons_ne_nil _ _))
  | .object [], _ => .noMembers rfl
  | .object (member :: members), _ =>
      .object (readsMembers_write (member :: members) (List.cons_ne_nil _ _))

theorem readsItems_write {tail : List Char} :
    ∀ items : List Json, items ≠ [] →
      ReadsItems (writeItems true (']' :: tail) items) items tail
  | [], some_item => absurd rfl some_item
  | [item], _ => by
      have reads := reads_write item (apart_cons rfl : Apart (']' :: tail))
      exact .last (reads.skip_eq.symm ▸ reads) rfl
  | item :: next :: items, _ => by
      let others := writeItems true (']' :: tail) (next :: items)
      have more : ReadsItems others (next :: items) tail :=
        readsItems_write (next :: items) (List.cons_ne_nil _ _)
      have reads := reads_write item (apart_cons rfl : Apart (',' :: others))
      exact .more (reads.skip_eq.symm ▸ reads) rfl more

theorem readsMembers_write {tail : List Char} :
    ∀ members : List (List Char × Json), members ≠ [] →
      ReadsMembers (writeMembers true ('\x7d' :: tail) members) members tail
  | [], some_member => absurd rfl some_member
  | [(key, value)], _ => by
      have reads := reads_write value (apart_cons rfl : Apart ('\x7d' :: tail))
      exact .last (readsMember_write reads) rfl
  | (key, value) :: next :: members, _ => by
      let others := writeMembers true ('\x7d' :: tail) (next :: members)
      have more : ReadsMembers others (next :: members) tail :=
        readsMembers_write (next :: members) (List.cons_ne_nil _ _)
      have reads := reads_write value (apart_cons rfl : Apart (',' :: others))
      exact .more (readsMember_write reads) rfl more

end

/-- The written form of a value is a text of this value and of no other. -/
theorem isText_characters_iff {value other : Json} :
    IsText value.characters other ↔ other = value := by
  have reads : Reads value.characters value [] := reads_write value nofun
  have written : IsText value.characters value := ⟨[], reads.skip_eq.symm ▸ reads, rfl⟩
  exact ⟨fun read => read.unique written, fun same => same ▸ written⟩

/-! ## No control characters -/

theorem shown_toDigits (value : Nat) : ∀ c ∈ Nat.toDigits 10 value, Shown c := by
  intro c member
  have digit := Nat.isDigit_of_mem_toDigits (by decide) (by decide) member
  rw [Char.isDigit_iff_toNat] at digit
  exact Nat.le_trans (by decide) digit.1

theorem shown_toString (value : Int) : ∀ c ∈ (toString value).toList, Shown c := by
  cases value with
  | ofNat value =>
      rw [toList_toString_ofNat]
      exact shown_toDigits value
  | negSucc value =>
      rw [toList_toString_negSucc]
      exact List.forall_mem_cons.2 ⟨by decide, shown_toDigits _⟩

mutual

theorem shown_write {tail : List Char} (shown : ∀ c ∈ tail, Shown c) :
    ∀ value : Json, ∀ c ∈ write tail value, Shown c
  | .null | .boolean true | .boolean false =>
      List.forall_mem_append.2 ⟨shown_of_all rfl, shown⟩
  | .integer value => List.forall_mem_append.2 ⟨shown_toString value, shown⟩
  | .text characters => List.forall_mem_append.2 ⟨shown_quote characters, shown⟩
  | .array items =>
      List.forall_mem_cons.2 ⟨by decide,
        shown_writeItems (List.forall_mem_cons.2 ⟨by decide, shown⟩) items true⟩
  | .object members =>
      List.forall_mem_cons.2 ⟨by decide,
        shown_writeMembers (List.forall_mem_cons.2 ⟨by decide, shown⟩) members true⟩

theorem shown_writeItems {tail : List Char} (shown : ∀ c ∈ tail, Shown c) :
    ∀ items : List Json, ∀ first, ∀ c ∈ writeItems first tail items, Shown c
  | [], _ => shown
  | item :: rest, true => shown_write (shown_writeItems shown rest false) item
  | item :: rest, false =>
      List.forall_mem_cons.2 ⟨by decide, shown_write (shown_writeItems shown rest false) item⟩

theorem shown_writeMembers {tail : List Char} (shown : ∀ c ∈ tail, Shown c) :
    ∀ members : List (List Char × Json), ∀ first,
      ∀ c ∈ writeMembers first tail members, Shown c
  | [], _ => shown
  | (key, value) :: rest, first => by
      have others := shown_write (shown_writeMembers shown rest false) value
      have written : ∀ c ∈ quote key ++ ':' :: write (writeMembers false tail rest) value,
          Shown c :=
        List.forall_mem_append.2 ⟨shown_quote key, List.forall_mem_cons.2 ⟨by decide, others⟩⟩
      cases first with
      | true => exact written
      | false => exact List.forall_mem_cons.2 ⟨by decide, written⟩

end

theorem shown_characters (value : Json) : ∀ c ∈ value.characters, Shown c :=
  shown_write (List.forall_mem_nil _) value

/-! ## Bytes -/

theorem shown_utf8EncodeChar {c : Char} (shown : Shown c) :
    ∀ byte ∈ String.utf8EncodeChar c, 0x20 ≤ byte.toNat := by
  have least : 0x20 ≤ c.val.toNat := shown
  rw [String.utf8EncodeChar]
  repeat' split
  all_goals
    simp only [List.forall_mem_cons, UInt8.toNat_ofNat', Nat.reducePow, List.not_mem_nil,
      false_implies, implies_true, and_true]
    omega

theorem toList_loop_eq (bytes : ByteArray) (index : Nat) (done : List UInt8) :
    ByteArray.toList.loop bytes index done = done.reverse ++ bytes.data.toList.drop index := by
  fun_induction ByteArray.toList.loop bytes index done with
  | case1 index done inside ih =>
      have inside : index < bytes.data.toList.length := inside
      have here : bytes.get! index = bytes.data.toList[index] :=
        getElem!_pos bytes.data index inside
      rw [ih, List.reverse_cons, List.append_assoc, List.singleton_append, here,
        List.drop_eq_getElem_cons inside]
  | case2 index done outside =>
      rw [List.drop_eq_nil_of_le (Nat.le_of_not_lt outside), List.append_nil]

theorem toList_eq (bytes : ByteArray) : bytes.toList = bytes.data.toList := by
  rw [ByteArray.toList, toList_loop_eq]
  rfl

theorem toList_toUTF8 (text : List Char) :
    (String.ofList text).toUTF8.toList = text.flatMap String.utf8EncodeChar := by
  rw [toList_eq, String.toUTF8_eq_toByteArray, String.toByteArray_ofList, List.utf8Encode,
    List.toList_data_toByteArray]

/-- A text without control characters has no byte below a space. -/
theorem shown_toUTF8 {text : List Char} (shown : ∀ c ∈ text, Shown c) :
    ∀ byte ∈ (String.ofList text).toUTF8.toList, 0x20 ≤ byte.toNat := by
  rw [toList_toUTF8, List.forall_mem_flatMap]
  exact fun c member => shown_utf8EncodeChar (shown c member)

end BerRecords.Json
