import BerRecords.Module.Lexeme
import BerRecords.Tag

/-!
# Written tags

A tag stands in brackets: an optional class word and a number, and behind the
brackets an optional word that makes the tag implicit or explicit.
-/

set_option autoImplicit false

namespace BerRecords.Module

def classWords : List String :=
  ["APPLICATION", "UNIVERSAL", "PRIVATE", "CONTEXT", "CONTEXT-SPECIFIC"]

def wordThenBlanks? (word : String) (text : List Char) : Option (List Char) :=
  match strip? word.toList text with
  | some (c :: rest) => if Text.isBlank c then some (Text.trimStart rest) else none
  | _ => none

/-- The first of some words that stands at the start of a text before a blank, and what
follows the blanks. -/
def wordOf? (words : List String) (text : List Char) : Option (String × List Char) :=
  words.findSome? fun word => (wordThenBlanks? word text).map (word, ·)

def readClassWord (text : List Char) : Option String × List Char :=
  match wordOf? classWords text with
  | some (word, rest) => (some word, rest)
  | none => (none, text)

def bracketedTag? (text : List Char) : Option (Option String × List Char × List Char) :=
  match Text.trimStart text with
  | '[' :: rest =>
    let (word, rest) := readClassWord (Text.trimStart rest)
    let digits := rest.takeWhile Text.isDecimalDigit
    if digits.isEmpty then none
    else
      match Text.trimStart (rest.dropWhile Text.isDecimalDigit) with
      | ']' :: rest => some (word, digits, rest)
      | _ => none
  | _ => none

/-- The number that digits spell, if they are ASCII digits of a 32-bit number. -/
def tagNumber? (digits : List Char) : Option Nat :=
  if digits.all Char.isDigit then
    let number := digits.foldl (fun number c => number * 10 + (c.toNat - '0'.toNat)) 0
    if number < UInt32.size then some number else none
  else none

/-- What follows the word that makes a tag implicit or explicit, if one stands at the
start of a text. Both are read alike. -/
def skipTagging (text : List Char) : List Char :=
  match wordOf? ["IMPLICIT", "EXPLICIT"] text with
  | some (_, rest) => rest
  | none => text

def readTag (text : List Char) : Except TypeFault (Option Tag × List Char) :=
  match bracketedTag? text with
  | none => .ok (none, skipTagging (Text.trimStart text))
  | some (word, digits, rest) =>
    match tagNumber? digits with
    | some number =>
      .ok (some ⟨.ofKeyword word, false, number⟩, skipTagging (Text.trimStart rest))
    | none => .error (.tagNumber (String.ofList digits))

theorem wordThenBlanks?_length {word : String} {text rest : List Char}
    (found : wordThenBlanks? word text = some rest) : rest.length < text.length := by
  simp only [wordThenBlanks?] at found
  split at found
  · rename_i c rest' stripped
    split at found
    · cases found
      have := strip?_length stripped
      have := trimStart_length rest'
      simp only [List.length_cons] at *
      omega
    · cases found
  · cases found

theorem wordOf?_length {words : List String} {word : String} {text rest : List Char}
    (found : wordOf? words text = some (word, rest)) : rest.length < text.length := by
  obtain ⟨word', -, taken⟩ := List.exists_of_findSome?_eq_some found
  simp only [Option.map_eq_some_iff, Prod.mk.injEq] at taken
  obtain ⟨rest', blanks, -, rfl⟩ := taken
  exact wordThenBlanks?_length blanks

theorem skipTagging_length (text : List Char) : (skipTagging text).length ≤ text.length := by
  simp only [skipTagging]
  split
  · rename_i found
    exact Nat.le_of_lt (wordOf?_length found)
  · exact Nat.le_refl _

theorem dropWhile_length (keep : Char → Bool) (text : List Char) :
    (text.dropWhile keep).length ≤ text.length :=
  (List.dropWhile_suffix _).length_le

theorem readClassWord_length (text : List Char) :
    (readClassWord text).2.length ≤ text.length := by
  simp only [readClassWord]
  split
  · rename_i found
    exact Nat.le_of_lt (wordOf?_length found)
  · exact Nat.le_refl _

theorem bracketedTag?_length {text digits rest : List Char} {word : Option String}
    (found : bracketedTag? text = some (word, digits, rest)) : rest.length ≤ text.length := by
  have outer := trimStart_length text
  simp only [bracketedTag?] at found
  split at found
  · rename_i rest' opened
    rw [opened] at outer
    have inner := trimStart_length rest'
    have classed := readClassWord_length (Text.trimStart rest')
    split at found
    · cases found
    · split at found
      · rename_i last closed
        cases found
        have after := trimStart_length
          ((readClassWord (Text.trimStart rest')).2.dropWhile Text.isDecimalDigit)
        rw [closed] at after
        have := dropWhile_length Text.isDecimalDigit (readClassWord (Text.trimStart rest')).2
        simp only [List.length_cons] at *
        omega
      · cases found
  · cases found

theorem readTag_length {text rest : List Char} {tag : Option Tag}
    (read : readTag text = .ok (tag, rest)) : rest.length ≤ text.length := by
  have shorter : ∀ later : List Char,
      (skipTagging (Text.trimStart later)).length ≤ later.length := fun later =>
    Nat.le_trans (skipTagging_length _) (trimStart_length _)
  simp only [readTag] at read
  split at read
  · cases read
    exact shorter text
  · rename_i word digits later found
    split at read
    · cases read
      exact Nat.le_trans (shorter later) (bracketedTag?_length found)
    · cases read

end BerRecords.Module
