import BerRecords.Proofs.Json.Written
import BerRecords.Proofs.Text.Utf8
import Mathlib.Data.List.Basic

/-!
# The octets of quoted text

Quoting can be done on the octets of a text. What needs an escape takes one octet, and the octets
between two escapes are copied in one run, so no character is cut. What is written is a string
literal, and reading it gives back the text.
-/

set_option autoImplicit false

namespace BerRecords.Json

/-! ## Copying in runs -/

def octetEscape? (octet : UInt8) : Option Octets :=
  if octet = 0x22 then some [0x5c, 0x22]
  else if octet = 0x5c then some [0x5c, 0x5c]
  else if octet = 0x0a then some [0x5c, 0x6e]
  else if octet = 0x0d then some [0x5c, 0x72]
  else if octet = 0x09 then some [0x5c, 0x74]
  else if octet < 0x20 then
    some ([0x5c, 0x75, 0x30, 0x30] ++
      (Octets.hexPair octet).map fun digit => UInt8.ofNat digit.toNat)
  else none

/-- Writes the octets of `text` from `plain` on. Those before `index` need no escape and are copied
when the next one does; the last argument holds those from `index` on. -/
def copyRuns (text : Octets) (plain index : Nat) : Octets → Octets
  | [] => text.drop plain
  | octet :: rest =>
    match octetEscape? octet with
    | none => copyRuns text plain (index + 1) rest
    | some escaped =>
      (text.take index).drop plain ++ (escaped ++ copyRuns text (index + 1) (index + 1) rest)

def quoteOctets (text : Octets) : Octets :=
  0x22 :: (copyRuns text 0 0 text ++ [0x22])

def escapeOctet (octet : UInt8) : Octets :=
  (octetEscape? octet).getD [octet]

/-- Whatever stands before the run, the run is copied once, and each octet after it is written as
if it stood alone. -/
theorem copyRuns_eq (front run rest : Octets) :
    copyRuns (front ++ run ++ rest) front.length (front ++ run).length rest =
      run ++ rest.flatMap escapeOctet := by
  induction rest generalizing front run with
  | nil =>
      rw [copyRuns, List.append_nil, List.drop_left, List.flatMap_nil, List.append_nil]
  | cons octet rest ih =>
      rw [copyRuns, List.flatMap_cons]
      rcases escaped : octetEscape? octet with _ | escaped
      · have later := ih front (run ++ [octet])
        simp only [List.append_assoc, List.singleton_append, List.length_append,
          List.length_singleton, ← Nat.add_assoc] at later ⊢
        rw [later, escapeOctet, escaped]
        rfl
      · have later := ih (front ++ run ++ [octet]) []
        simp only [List.append_assoc, List.singleton_append, List.nil_append, List.append_nil,
          List.length_append, List.length_singleton, ← Nat.add_assoc] at later ⊢
        rw [later, ← List.append_assoc front, ← List.length_append, List.take_left, List.drop_left,
          escapeOctet, escaped]
        rfl

/-! ## Characters -/

theorem octetEscape?_eq_none {octet : UInt8} (high : 0x80 ≤ octet.toNat) :
    octetEscape? octet = none := by
  have other {small : UInt8} (below : small.toNat < 0x80) : octet ≠ small := by
    rintro rfl
    omega
  have large : ¬octet < 0x20 := by
    rw [UInt8.lt_iff_toNat_lt]
    exact Nat.not_lt.2 (Nat.le_trans (by decide) high)
  rw [octetEscape?, if_neg (other (by decide)), if_neg (other (by decide)),
    if_neg (other (by decide)), if_neg (other (by decide)), if_neg (other (by decide)),
    if_neg large]

theorem high_utf8EncodeChar {c : Char} (wide : 0x80 ≤ c.toNat) :
    ∀ octet ∈ String.utf8EncodeChar c, 0x80 ≤ octet.toNat := by
  have wide : ¬c.val.toNat ≤ 0x7f := Nat.not_le.2 wide
  rw [String.utf8EncodeChar, if_neg wide]
  split_ifs
  all_goals
    simp only [List.forall_mem_cons, UInt8.toNat_ofNat', Nat.reducePow, List.not_mem_nil,
      false_implies, implies_true, and_true]
    omega

theorem escape_of_wide {c : Char} (wide : 0x80 ≤ c.toNat) : escape c = [c] := by
  have other {small : Char} (below : small.toNat < 0x80) : c ≠ small := by
    rintro rfl
    omega
  rw [escape, if_neg (other (by decide)), if_neg (other (by decide)), if_neg (other (by decide)),
    if_neg (other (by decide)), if_neg (other (by decide)), if_neg (by omega)]

/-- The octets of an escaped character are its own octets, escaped one by one. -/
theorem utf8_escape (c : Char) :
    (escape c).flatMap String.utf8EncodeChar = (String.utf8EncodeChar c).flatMap escapeOctet := by
  by_cases wide : 0x80 ≤ c.toNat
  · rw [escape_of_wide wide, List.flatMap_singleton]
    have plain : ∀ octet ∈ String.utf8EncodeChar c, escapeOctet octet = [octet] := by
      intro octet member
      rw [escapeOctet, octetEscape?_eq_none (high_utf8EncodeChar wide octet member)]
      rfl
    rw [List.flatMap_congr plain, List.flatMap_singleton']
  · -- What is left are the characters of one octet, those with an escape among them.
    have narrow : ∀ code < 0x80, (escape (Char.ofNat code)).flatMap String.utf8EncodeChar =
        (String.utf8EncodeChar (Char.ofNat code)).flatMap escapeOctet := by decide +kernel
    have known := narrow c.toNat (Nat.lt_of_not_le wide)
    rwa [Char.ofNat_toNat] at known

theorem quoteOctets_utf8 (text : List Char) :
    quoteOctets (text.flatMap String.utf8EncodeChar) =
      (quote text).flatMap String.utf8EncodeChar := by
  have copied := copyRuns_eq [] [] (text.flatMap String.utf8EncodeChar)
  have escaped : (text.flatMap escape).flatMap String.utf8EncodeChar =
      (text.flatMap String.utf8EncodeChar).flatMap escapeOctet := by
    rw [List.flatMap_assoc, List.flatMap_assoc]
    exact List.flatMap_congr fun c _ => utf8_escape c
  rw [quoteOctets, quote, List.flatMap_cons, List.flatMap_append, escaped]
  exact congrArg (fun inside => 0x22 :: (inside ++ [0x22])) copied

/-- Escapes side by side, and a character of three octets between them. -/
example : quoteOctets "a\"\n€\t\x01".toUTF8.toList =
    "\"a\\\"\\n€\\t\\u0001\"".toUTF8.toList := by
  decide +kernel

/-- What is written for a text is the UTF-8 of a string literal, without an octet below a space.
Copying the octets of the text in runs between its escapes comes to the same, and the literal is
one of the text and of no other. -/
theorem quoted_octets_read_back (text : String) :
    let written := (String.ofList (quote text.toList)).toUTF8.toList
    quoteOctets text.toUTF8.toList = written ∧ (∀ octet ∈ written, 0x20 ≤ octet.toNat) ∧
      ∃ literal, Utf8.decode written = .ok ('"' :: literal) ∧
        ∀ characters rest,
          Literal literal characters rest ↔ characters = text.toList ∧ rest = [] := by
  intro written
  have encoded : written = (quote text.toList).flatMap String.utf8EncodeChar := toList_toUTF8 _
  have literal := literal_escapes text.toList []
  refine ⟨?_, shown_toUTF8 (shown_quote text.toList), text.toList.flatMap escape ++ ['"'], ?_, ?_⟩
  · rw [encoded, ← quoteOctets_utf8, ← toList_toUTF8, String.ofList_toList]
  · rw [encoded, Utf8.decode_utf8Encode]
    rfl
  · intro characters rest
    refine ⟨fun other => other.unique literal, ?_⟩
    rintro ⟨rfl, rfl⟩
    exact literal

end BerRecords.Json
