import BerRecords.Module.Lexeme

/-!
# Comments and directives

A directive stands between two pairs of hyphens, its first word is `snacc` in any
case, and it may run over several lines; a blank takes its place. Every other pair of
hyphens starts a comment that runs to the end of its line.
-/

set_option autoImplicit false

namespace BerRecords.Module

/-- Whether a character is the letter `s` when case does not matter. The long s folds
to it. -/
def isLetterS (c : Char) : Bool :=
  c = 's' || c = 'S' || c = 'ſ'

def directiveWord? : List Char → Option (List Char)
  | s :: n :: a :: c :: c' :: rest =>
    if isLetterS s && n.toLower = 'n' && a.toLower = 'a' && c.toLower = 'c' && c'.toLower = 'c' &&
      !rest.head?.any Text.isWordChar
    then some rest
    else none
  | _ => none

def afterHyphens? : List Char → Option (List Char)
  | [] => none
  | '-' :: '-' :: rest => some rest
  | _ :: rest => afterHyphens? rest

def afterDirective? (text : List Char) : Option (List Char) :=
  (directiveWord? (Text.trimStart text)).bind afterHyphens?

theorem directiveWord?_length {text rest : List Char} (found : directiveWord? text = some rest) :
    rest.length < text.length := by
  simp only [directiveWord?] at found
  split at found
  · split at found
    · cases found
      simp only [List.length_cons]
      omega
    · cases found
  · cases found

theorem afterHyphens?_length {text rest : List Char} (found : afterHyphens? text = some rest) :
    rest.length < text.length := by
  fun_induction afterHyphens? text with
  | case1 => simp at found
  | case2 =>
    cases found
    simp only [List.length_cons]
    omega
  | case3 _ _ _ ih =>
    have := ih found
    simp only [List.length_cons]
    omega

theorem afterDirective?_length {text rest : List Char}
    (found : afterDirective? text = some rest) : rest.length < text.length := by
  simp only [afterDirective?, Option.bind_eq_some_iff] at found
  obtain ⟨body, word, hyphens⟩ := found
  have := trimStart_length text
  have := directiveWord?_length word
  have := afterHyphens?_length hyphens
  omega

def withoutDirectives : List Char → List Char
  | [] => []
  | c :: text =>
    match c, text with
    | '-', '-' :: rest =>
      match _found : afterDirective? rest with
      | some after => ' ' :: withoutDirectives after
      | none => '-' :: withoutDirectives ('-' :: rest)
    | c, text => c :: withoutDirectives text
termination_by text => text.length
decreasing_by
  · have := afterDirective?_length _found
    simp only [List.length_cons]
    omega
  · simp
  · simp

/-- A text without its comments. `inside` tells whether the text starts in one. -/
def withoutCommentsFrom (inside : Bool) : List Char → List Char
  | [] => []
  | '\n' :: text => '\n' :: withoutCommentsFrom false text
  | '-' :: '-' :: text => withoutCommentsFrom true text
  | c :: text =>
    if inside then withoutCommentsFrom true text else c :: withoutCommentsFrom false text

def withoutComments (text : List Char) : List Char :=
  withoutCommentsFrom false text

end BerRecords.Module
