import BerRecords.Json.Text
import BerRecords.Text.Utf16

/-!
# String literals

What a JSON string stands for: every character but the quote, the backslash and the control
characters may stand for itself, and a backslash starts an escape, which may spell a character by
its UTF-16 units. A literal stands for one text only, and quoting a text gives a literal of it.
-/

set_option autoImplicit false

namespace BerRecords.Json

variable {text rest rest' : List Char} {c c' : Char}

/-! ## Escapes -/

def shortEscape? : Char → Option Char
  | '"' => some '"'
  | '\\' => some '\\'
  | '/' => some '/'
  | 'b' => some '\x08'
  | 'f' => some '\x0c'
  | 'n' => some '\n'
  | 'r' => some '\r'
  | 't' => some '\t'
  | _ => none

def hexDigit? (c : Char) : Option Nat :=
  if '0' ≤ c ∧ c ≤ '9' then some (c.toNat - '0'.toNat)
  else if 'a' ≤ c ∧ c ≤ 'f' then some (c.toNat - 'a'.toNat + 10)
  else if 'A' ≤ c ∧ c ≤ 'F' then some (c.toNat - 'A'.toNat + 10)
  else none

def hexUnit? : List Char → Option (Nat × List Char)
  | first :: second :: third :: fourth :: rest => do
    let first ← hexDigit? first
    let second ← hexDigit? second
    let third ← hexDigit? third
    let fourth ← hexDigit? fourth
    return (((first * 16 + second) * 16 + third) * 16 + fourth, rest)
  | _ => none

/-- The text begins with a character of a literal, before the rest. -/
inductive Spelled : List Char → Char → List Char → Prop where
  | plain {c : Char} {rest : List Char} : 0x20 ≤ c.toNat → c ≠ '"' → c ≠ '\\' →
      Spelled (c :: rest) c rest
  | short {letter c : Char} {rest : List Char} : shortEscape? letter = some c →
      Spelled ('\\' :: letter :: rest) c rest
  | unit {text rest : List Char} {c : Char} : hexUnit? text = some (c.toNat, rest) →
      Spelled ('\\' :: 'u' :: text) c rest
  | pair {text next rest : List Char} {c : Char} {high low : Nat} :
      hexUnit? text = some (high, '\\' :: 'u' :: next) → Utf16.isHigh high = true →
      hexUnit? next = some (low, rest) → Utf16.isLow low = true →
      c.toNat = 0x10000 + (high - 0xd800) * 0x400 + (low - 0xdc00) →
      Spelled ('\\' :: 'u' :: text) c rest

/-- After the opening quote the text begins with a literal of the characters. -/
inductive Literal : List Char → List Char → List Char → Prop where
  | close {rest : List Char} : Literal ('"' :: rest) [] rest
  | cons {text middle rest characters : List Char} {c : Char} : Spelled text c middle →
      Literal middle characters rest → Literal text (c :: characters) rest

/-! ## One reading -/

/-- No character is a surrogate. -/
theorem not_isHigh (c : Char) : Utf16.isHigh c.toNat = false := by
  have valid : c.toNat < 0xd800 ∨ 0xdfff < c.toNat ∧ c.toNat < 0x110000 := c.valid
  simp only [Utf16.isHigh, Bool.and_eq_false_iff, decide_eq_false_iff_not]
  omega

theorem Spelled.unique (spelled : Spelled text c rest) (spelled' : Spelled text c' rest') :
    c = c' ∧ rest = rest' := by
  cases spelled with
  | plain _ _ backslash =>
      cases spelled' with
      | plain => exact ⟨rfl, rfl⟩
      | short | unit | pair => exact absurd rfl backslash
  | short known =>
      cases spelled' with
      | plain _ _ backslash => exact absurd rfl backslash
      | short known' => exact ⟨Option.some.inj (known.symm.trans known'), rfl⟩
      | unit | pair => cases known
  | unit read =>
      cases spelled' with
      | plain _ _ backslash => exact absurd rfl backslash
      | short known => cases known
      | unit read' =>
          obtain ⟨same, rfl⟩ := Prod.mk.inj (Option.some.inj (read.symm.trans read'))
          exact ⟨Char.toNat_inj.1 same, rfl⟩
      | pair read' high =>
          obtain ⟨rfl, -⟩ := Prod.mk.inj (Option.some.inj (read.symm.trans read'))
          cases high.symm.trans (not_isHigh c)
  | pair read high next _ same =>
      cases spelled' with
      | plain _ _ backslash => exact absurd rfl backslash
      | short known => cases known
      | unit read' =>
          obtain ⟨rfl, -⟩ := Prod.mk.inj (Option.some.inj (read.symm.trans read'))
          cases high.symm.trans (not_isHigh c')
      | pair read' _ next' _ same' =>
          cases read.symm.trans read'
          cases next.symm.trans next'
          exact ⟨Char.toNat_inj.1 (same.trans same'.symm), rfl⟩

theorem Literal.unique {characters characters' : List Char}
    (literal : Literal text characters rest) (literal' : Literal text characters' rest') :
    characters = characters' ∧ rest = rest' := by
  induction literal generalizing characters' with
  | close =>
      cases literal' with
      | close => exact ⟨rfl, rfl⟩
      | cons spelled =>
          cases spelled with
          | plain _ quote => exact absurd rfl quote
  | cons spelled _ ih =>
      cases literal' with
      | close =>
          cases spelled with
          | plain _ quote => exact absurd rfl quote
      | cons spelled' literal' =>
          obtain ⟨rfl, rfl⟩ := spelled.unique spelled'
          obtain ⟨rfl, rfl⟩ := ih literal'
          exact ⟨rfl, rfl⟩

/-! ## Quoting -/

theorem hexDigit?_digitChar {digit : Nat} (small : digit < 16) :
    hexDigit? (Nat.digitChar digit) = some digit := by
  have all : ∀ digit < 16, hexDigit? (Nat.digitChar digit) = some digit := by decide
  exact all digit small

theorem hexUnit?_control {code : Nat} (control : code < 0x20) (rest : List Char) :
    hexUnit? ('0' :: '0' :: Nat.digitChar (code / 16) :: Nat.digitChar (code % 16) :: rest) =
      some (code, rest) := by
  have zero : hexDigit? '0' = some 0 := rfl
  have spelled : (((0 * 16 + 0) * 16 + code / 16) * 16 + code % 16) = code := by omega
  simp only [hexUnit?, zero, hexDigit?_digitChar (show code / 16 < 16 by omega),
    hexDigit?_digitChar (show code % 16 < 16 by omega), bind, Option.bind, pure, spelled]

theorem spelled_escape (c : Char) (rest : List Char) : Spelled (escape c ++ rest) c rest := by
  unfold escape
  by_cases quote : c = '"'
  · subst quote
    exact .short rfl
  by_cases backslash : c = '\\'
  · subst backslash
    exact .short rfl
  by_cases newline : c = '\n'
  · subst newline
    exact .short rfl
  by_cases back : c = '\r'
  · subst back
    exact .short rfl
  by_cases tab : c = '\t'
  · subst tab
    exact .short rfl
  rw [if_neg quote, if_neg backslash, if_neg newline, if_neg back, if_neg tab]
  by_cases control : c.toNat < 0x20
  · rw [if_pos control]
    exact .unit (hexUnit?_control control rest)
  · rw [if_neg control]
    exact .plain (Nat.le_of_not_lt control) quote backslash

theorem literal_escapes (characters rest : List Char) :
    Literal (characters.flatMap escape ++ '"' :: rest) characters rest := by
  induction characters with
  | nil => exact .close
  | cons c characters ih =>
      rw [List.flatMap_cons, List.append_assoc]
      exact .cons (spelled_escape c _) ih

/-! ## No control characters -/

/-- No control character. -/
def Shown (c : Char) : Prop :=
  0x20 ≤ c.toNat

instance : DecidablePred Shown :=
  fun c => inferInstanceAs (Decidable (0x20 ≤ c.toNat))

theorem shown_of_all {characters : List Char}
    (all : characters.all (fun c => decide (Shown c)) = true) : ∀ c ∈ characters, Shown c :=
  fun c member => of_decide_eq_true (List.all_eq_true.1 all c member)

theorem shown_digitChar {digit : Nat} (small : digit < 16) : Shown (Nat.digitChar digit) := by
  have all : ∀ digit < 16, Shown (Nat.digitChar digit) := by decide
  exact all digit small

theorem shown_escape (c : Char) : ∀ shown ∈ escape c, Shown shown := by
  unfold escape
  by_cases control : c.toNat < 0x20
  · have upper := shown_digitChar (show c.toNat / 16 < 16 by omega)
    have lower := shown_digitChar (show c.toNat % 16 < 16 by omega)
    rw [if_pos control]
    repeat' split
    case isFalse.isFalse.isFalse.isFalse.isFalse =>
      refine shown_of_all ?_
      simp only [List.all_cons, List.all_nil, upper, lower, decide_true]
      rfl
    all_goals exact shown_of_all rfl
  · rw [if_neg control]
    repeat' split
    case isFalse.isFalse.isFalse.isFalse.isFalse =>
      exact List.forall_mem_singleton.2 (Nat.le_of_not_lt control)
    all_goals exact shown_of_all rfl

theorem shown_quote (characters : List Char) : ∀ shown ∈ quote characters, Shown shown := by
  rw [quote, List.forall_mem_cons, List.forall_mem_append, List.forall_mem_flatMap]
  exact ⟨by decide, fun c _ => shown_escape c, shown_of_all rfl⟩

end BerRecords.Json
