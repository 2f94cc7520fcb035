import BerRecords.Module.Fault
import BerRecords.Text.Word

/-!
# Lexemes of a module text

Keywords, names and bracketed groups at the start of a text, each with what
follows it. What follows is never longer than the text, and shorter where
something was taken away.
-/

set_option autoImplicit false

namespace BerRecords.Module

def isNameChar (c : Char) : Bool :=
  c.toNat < 128 && (c.isAlphanum || c = '_' || c = '-')

def snippet (text : List Char) : String :=
  String.ofList (text.take 40)

def strip? : List Char → List Char → Option (List Char)
  | [], text => some text
  | _ :: _, [] => none
  | l :: lead, c :: text => if l = c then strip? lead text else none

/-- What follows a keyword at the start of a text, where no longer name starts. -/
def keyword? (word : String) (text : List Char) : Option (List Char) :=
  match strip? word.toList text with
  | none => none
  | some rest => if rest.head?.any isNameChar then none else some rest

def readName (text : List Char) : Except TypeFault (String × List Char) :=
  let text := Text.trimStart text
  let name := text.takeWhile isNameChar
  if name.isEmpty then .error (.nameExpected (snippet text))
  else .ok (String.ofList name, text.dropWhile isNameChar)

/-- Splits a text behind an opening bracket at the bracket that closes it: what stands
between, and what follows. `depth` brackets are open and `inner` has been passed,
reversed. -/
def enclosed? (opening closing : Char) (depth : Nat) (inner : List Char) :
    List Char → Option (List Char × List Char)
  | [] => none
  | c :: rest =>
    if c = opening then enclosed? opening closing (depth + 1) (c :: inner) rest
    else if c = closing then
      if depth ≤ 1 then some (inner.reverse, rest)
      else enclosed? opening closing (depth - 1) (c :: inner) rest
    else enclosed? opening closing depth (c :: inner) rest

def readBraces (text : List Char) : Except TypeFault (List Char × List Char) :=
  match Text.trimStart text with
  | '\x7b' :: rest =>
    match enclosed? '\x7b' '\x7d' 1 [] rest with
    | some found => .ok found
    | none => .error .unbalancedBrace
  | text => .error (.braceExpected (snippet text))

theorem strip?_length {lead text rest : List Char} (found : strip? lead text = some rest) :
    rest.length + lead.length = text.length := by
  fun_induction strip? lead text with
  | case1 => simp_all
  | case2 => simp at found
  | case3 lead c text ih =>
    have := ih found
    simp only [List.length_cons] at *
    omega
  | case4 => simp at found

theorem keyword?_length {word : String} {text rest : List Char}
    (found : keyword? word text = some rest) : rest.length + word.toList.length = text.length := by
  simp only [keyword?] at found
  split at found
  · simp at found
  · rename_i rest' stripped
    split at found
    · simp at found
    · simp only [Option.some.injEq] at found
      subst found
      exact strip?_length stripped

theorem trimStart_length (text : List Char) : (Text.trimStart text).length ≤ text.length :=
  (List.dropWhile_suffix _).length_le

theorem readName_length {text rest : List Char} {name : String}
    (read : readName text = .ok (name, rest)) : rest.length ≤ text.length := by
  simp only [readName] at read
  split at read
  · cases read
  · cases read
    exact Nat.le_trans (List.dropWhile_suffix _).length_le (trimStart_length text)

theorem enclosed?_length {opening closing : Char} {depth : Nat}
    {passed text inner rest : List Char}
    (found : enclosed? opening closing depth passed text = some (inner, rest)) :
    inner.length + rest.length < passed.length + text.length := by
  fun_induction enclosed? opening closing depth passed text with
  | case1 => simp at found
  | case2 depth passed text ih =>
    have := ih found
    simp only [List.length_cons] at *
    omega
  | case3 depth passed text _ _ =>
    simp only [Option.some.injEq, Prod.mk.injEq] at found
    obtain ⟨rfl, rfl⟩ := found
    simp
  | case4 depth passed text _ _ ih =>
    have := ih found
    simp only [List.length_cons] at *
    omega
  | case5 depth passed c text _ _ ih =>
    have := ih found
    simp only [List.length_cons] at *
    omega

theorem readBraces_length {text inner rest : List Char}
    (read : readBraces text = .ok (inner, rest)) :
    inner.length + rest.length + 1 < text.length := by
  have bound := trimStart_length text
  simp only [readBraces] at read
  split at read
  · rename_i rest' start
    split at read
    · rename_i found enclosed
      cases read
      have := enclosed?_length enclosed
      rw [start] at bound
      simp only [List.length_cons, List.length_nil] at *
      omega
    · cases read
  · cases read

def skipConstraints (text : List Char) : Except TypeFault (List Char) :=
  match _start : Text.trimStart text with
  | '(' :: rest =>
    match _found : enclosed? '(' ')' 1 [] rest with
    | some (_, rest) => skipConstraints rest
    | none => .error .unbalancedParenthesis
  | text => .ok text
termination_by text.length
decreasing_by
  have := trimStart_length text
  have := enclosed?_length _found
  simp_all only [List.length_cons, List.length_nil]
  omega

theorem skipConstraints_length {text rest : List Char}
    (skipped : skipConstraints text = .ok rest) : rest.length ≤ text.length := by
  fun_induction skipConstraints text with
  | case1 text rest' start inner rest'' found ih =>
    have := trimStart_length text
    have := enclosed?_length found
    have := ih skipped
    simp_all only [List.length_cons, List.length_nil]
    omega
  | case2 => cases skipped
  | case3 text other =>
    cases skipped
    exact trimStart_length text

/-- Cuts a text at its commas outside all braces and parentheses. `depth` counts the
groups open, and `piece` has been passed since the last cut, reversed. -/
def splitItemsFrom (depth : Int) (piece : List Char) : List Char → List (List Char)
  | [] => [piece.reverse]
  | c :: rest =>
    if c = '\x7b' || c = '(' then splitItemsFrom (depth + 1) (c :: piece) rest
    else if c = '\x7d' || c = ')' then splitItemsFrom (depth - 1) (c :: piece) rest
    else if c = ',' && depth = 0 then piece.reverse :: splitItemsFrom depth [] rest
    else splitItemsFrom depth (c :: piece) rest

def splitItems (text : List Char) : List (List Char) :=
  splitItemsFrom 0 [] text

def joinedLength : List (List Char) → Nat
  | [] => 0
  | piece :: rest => piece.length + 1 + joinedLength rest

/-- The pieces together are no longer than the text, each counted with one comma. -/
theorem splitItemsFrom_length (depth : Int) (piece text : List Char) :
    joinedLength (splitItemsFrom depth piece text) = piece.length + text.length + 1 := by
  fun_induction splitItemsFrom depth piece text with
  | case1 => simp [joinedLength]
  | case2 _ _ _ _ _ ih => simp only [ih, List.length_cons]; omega
  | case3 _ _ _ _ _ _ ih => simp only [ih, List.length_cons]; omega
  | case4 _ _ _ _ _ _ _ ih =>
    simp only [joinedLength, ih, List.length_cons, List.length_reverse, List.length_nil]
    omega
  | case5 _ _ _ _ _ _ _ ih => simp only [ih, List.length_cons]; omega

theorem splitItems_length (text : List Char) :
    joinedLength (splitItems text) = text.length + 1 := by
  simpa [splitItems] using splitItemsFrom_length 0 [] text

/-- Whether one of two words stands in a text between characters of no word. `joined`
tells whether a word character precedes. -/
def hasWord (words : List String) (joined : Bool) : List Char → Bool
  | [] => false
  | c :: rest =>
    (!joined && words.any fun word =>
      match strip? word.toList (c :: rest) with
      | some after => !after.head?.any Text.isWordChar
      | none => false) || hasWord words (Text.isWordChar c) rest

end BerRecords.Module
