import BerRecords.Module.Assignment
import BerRecords.Proofs.Module.Readers

/-!
# Lines, assignments and texts without comments

Where an assignment is found on a line, how a text falls into lines, and what is read of a text in which
no two hyphens make a comment.
-/

set_option autoImplicit false

namespace BerRecords.Module

variable {before behind text rest line name start : List Char} {c : Char}

/-! ## Assignments -/

def isIndent (c : Char) : Bool :=
  c = ' ' || c = '\t'

theorem isJoint_of_isIndent (indent : isIndent c = true) : isJoint c = false := by
  rw [isIndent, Bool.or_eq_true, decide_eq_true_eq, decide_eq_true_eq] at indent
  rcases indent with rfl | rfl <;> rfl

theorem dropWhile_append_of_all {p : Char → Bool} {front back : List Char}
    (all : ∀ c ∈ front, p c = true) (stops : back.head?.any p = false) :
    (front ++ back).dropWhile p = back ∧ (front ++ back).takeWhile p = front := by
  have stop : back.dropWhile p = back ∧ back.takeWhile p = [] := by
    cases back with
    | nil => exact ⟨rfl, rfl⟩
    | cons c back =>
        have other : p c = false := by simpa using stops
        simp [other]
  rw [List.dropWhile_append_of_pos all, List.takeWhile_append_of_pos all, stop.1, stop.2,
    List.append_nil]
  exact ⟨rfl, rfl⟩

theorem assignment?_eq (line : List Char) :
    assignment? line =
      let rest := line.dropWhile isIndent
      if (rest.takeWhile isJoint).isEmpty then none
      else (strip? [':', ':', '='] ((rest.dropWhile isJoint).dropWhile isIndent)).map
        (rest.takeWhile isJoint, ·) := by
  have indent : (fun c : Char => decide (c = ' ') || decide (c = '\t')) = isIndent := rfl
  have joint : (fun c => Text.isWordChar c || decide (c = '-')) = isJoint := rfl
  rw [assignment?]
  simp only [indent, joint]
  cases strip? [':', ':', '='] (((line.dropWhile isIndent).dropWhile isJoint).dropWhile isIndent) <;> rfl

theorem assignment?_eq_some_iff :
    assignment? line = some (name, start) ↔
      ∃ indent gap, line = indent ++ (name ++ (gap ++ ([':', ':', '='] ++ start))) ∧
        (∀ c ∈ indent, isIndent c = true) ∧ name ≠ [] ∧ (∀ c ∈ name, isJoint c = true) ∧
          ∀ c ∈ gap, isIndent c = true := by
  rw [assignment?_eq]
  constructor
  · intro found
    dsimp only at found
    split at found
    · cases found
    · rename_i named
      obtain ⟨start', signed, same⟩ := Option.map_eq_some_iff.1 found
      cases same
      refine ⟨line.takeWhile isIndent,
        ((line.dropWhile isIndent).dropWhile isJoint).takeWhile isIndent, ?_, ?_, by simpa using named,
        ?_, ?_⟩
      · rw [← strip?_eq_some_iff.1 signed, List.takeWhile_append_dropWhile,
          List.takeWhile_append_dropWhile, List.takeWhile_append_dropWhile]
      all_goals exact fun c member => List.mem_takeWhile_imp member
  · rintro ⟨indent, gap, rfl, indented, named, joint, blank⟩
    obtain ⟨first, more, rfl⟩ := List.exists_cons_of_ne_nil named
    have named_first : isIndent first = false := by
      by_contra indent
      rw [Bool.not_eq_false] at indent
      cases (isJoint_of_isIndent indent).symm.trans (joint first List.mem_cons_self)
    have outer := @dropWhile_append_of_all isIndent indent
      (first :: more ++ (gap ++ ([':', ':', '='] ++ start))) indented (by simpa using named_first)
    have stops : (gap ++ ([':', ':', '='] ++ start)).head?.any isJoint = false := by
      cases gap with
      | nil => rfl
      | cons d gap => simpa using isJoint_of_isIndent (blank d List.mem_cons_self)
    have middle := @dropWhile_append_of_all isJoint (first :: more)
      (gap ++ ([':', ':', '='] ++ start)) joint stops
    have inner := @dropWhile_append_of_all isIndent gap ([':', ':', '='] ++ start) blank rfl
    dsimp only
    rw [outer.1, middle.1, middle.2, inner.1, if_neg (by simp), strip?_eq_some_iff.2 rfl, Option.map_some]

/-- What stands behind the sign of an assignment is its own. -/
theorem assignment?_append (found : assignment? line = some (name, start)) (more : List Char) :
    assignment? (line ++ more) = some (name, start ++ more) := by
  obtain ⟨indent, gap, rfl, rest⟩ := assignment?_eq_some_iff.1 found
  exact assignment?_eq_some_iff.2 ⟨indent, gap, by simp, rest⟩

theorem suffix_of_assignment? (found : assignment? line = some (name, start)) : start <:+ line := by
  obtain ⟨indent, gap, rfl, -⟩ := assignment?_eq_some_iff.1 found
  exact ⟨indent ++ (name ++ (gap ++ [':', ':', '='])), by simp⟩

def Unsigned (text : List Char) : Prop :=
  ¬[':', ':', '='] <:+: text

instance (text : List Char) : Decidable (Unsigned text) :=
  inferInstanceAs (Decidable ¬_)

theorem Unsigned.assignment?_eq_none (unsigned : Unsigned text) : assignment? text = none := by
  cases found : assignment? text with
  | none => rfl
  | some entry =>
      obtain ⟨indent, gap, rfl, -⟩ := assignment?_eq_some_iff.1 found
      refine absurd ⟨indent ++ (entry.1 ++ gap), entry.2, ?_⟩ unsigned
      simp

theorem Unsigned.of_append_left (unsigned : Unsigned (text ++ behind)) : Unsigned text :=
  fun inside => unsigned (inside.trans (List.prefix_append _ _).isInfix)

theorem Unsigned.of_append_right (unsigned : Unsigned (before ++ text)) : Unsigned text :=
  fun inside => unsigned (inside.trans (List.suffix_append _ _).isInfix)

def firstLine (text : List Char) : List Char :=
  text.takeWhile (· ≠ '\n')

/-- The text behind a line, up to the next assignment. -/
def tailText (rest : List (List Char)) : List Char :=
  if rest.isEmpty then [] else '\n' :: (assignments rest).1

theorem assignments_cons (line : List Char) (rest : List (List Char)) :
    assignments (line :: rest) =
      match assignment? line with
      | some (name, start) => ([], (name, start ++ tailText rest) :: (assignments rest).2)
      | none => (line ++ tailText rest, (assignments rest).2) :=
  rfl

theorem lines_ne_nil (line text : List Char) : lines line text ≠ [] := by
  induction text generalizing line with
  | nil => exact List.cons_ne_nil _ _
  | cons c text ih =>
      rw [lines]
      split
      · exact List.cons_ne_nil _ _
      · exact ih _

theorem lines_break (line text : List Char) : lines line ('\n' :: text) = line.reverse :: lines [] text := by
  rw [lines, if_pos rfl]

theorem lines_append (unbroken : '\n' ∉ line) (passed text : List Char) :
    lines passed (line ++ text) = lines (line.reverse ++ passed) text := by
  induction line generalizing passed with
  | nil => rfl
  | cons c line ih =>
      rw [List.mem_cons, not_or] at unbroken
      rw [List.cons_append, lines, if_neg (Ne.symm unbroken.1), ih unbroken.2]
      simp

/-- The first line of a text, and those behind it, whatever stands in front of it. -/
theorem exists_lines (text : List Char) :
    ∃ rest, (∀ line, lines line text = (line.reverse ++ firstLine text) :: rest) ∧
      (firstLine text ++ tailText rest).head? = text.head? := by
  induction text with
  | nil => exact ⟨[], fun line => by simp [lines, firstLine], rfl⟩
  | cons c text ih =>
      by_cases ends : c = '\n'
      · subst ends
        refine ⟨lines [] text, fun line => ?_, ?_⟩
        · rw [lines_break]
          simp [firstLine]
        · simp [firstLine, tailText, lines_ne_nil]
      · obtain ⟨rest, cut, -⟩ := ih
        refine ⟨rest, fun line => ?_, ?_⟩
        · rw [lines, if_neg ends, cut]
          simp [firstLine, ends]
        · simp [firstLine, ends]

/-- The first line does not reach over a newline. -/
theorem firstLine_within (ends : ∀ c ∈ rest.head?, c = '\n') : firstLine (text ++ rest) <+: text := by
  have stops : rest.takeWhile (· ≠ '\n') = [] := by
    cases rest with
    | nil => rfl
    | cons c rest => simp [ends c rfl]
  rw [firstLine, List.takeWhile_append, stops]
  split
  · rw [List.append_nil]
  · exact List.takeWhile_prefix _

theorem Unsigned.assignment?_firstLine (unsigned : Unsigned text) (ends : ∀ c ∈ rest.head?, c = '\n') :
    assignment? (firstLine (text ++ rest)) = none := by
  obtain ⟨more, whole⟩ := @firstLine_within text rest ends
  exact (whole ▸ unsigned).of_append_left.assignment?_eq_none

/-! ## Texts without comments -/

def Unmarked (text : List Char) : Prop :=
  ¬['-', '-'] <:+: text

instance (text : List Char) : Decidable (Unmarked text) :=
  inferInstanceAs (Decidable ¬_)

theorem unmarked_cons :
    Unmarked (c :: text) ↔ (c ≠ '-' ∨ text.head? ≠ some '-') ∧ Unmarked text := by
  rw [Unmarked, Unmarked, List.infix_cons_iff, not_or]
  refine and_congr_left' ?_
  cases text with
  | nil => simp
  | cons d text => simp [List.cons_prefix_cons, imp_iff_not_or, eq_comm]

/-- Texts are unmarked together if they do not meet with hyphens. -/
theorem Unmarked.append (unmarked : Unmarked before) (unmarked' : Unmarked behind)
    (apart : before.getLast? ≠ some '-' ∨ behind.head? ≠ some '-') : Unmarked (before ++ behind) := by
  induction before with
  | nil => exact unmarked'
  | cons c before ih =>
      rw [unmarked_cons] at unmarked
      rw [List.cons_append, unmarked_cons]
      cases before with
      | nil => exact ⟨by simpa using apart, unmarked'⟩
      | cons d before => exact ⟨unmarked.1, ih unmarked.2 (by simpa using apart)⟩

theorem Unmarked.of_append_left (unmarked : Unmarked (before ++ behind)) : Unmarked before :=
  fun inside => unmarked (inside.trans (List.prefix_append _ _).isInfix)

theorem Unmarked.of_append_right (unmarked : Unmarked (before ++ behind)) : Unmarked behind :=
  fun inside => unmarked (inside.trans (List.suffix_append _ _).isInfix)

theorem Unmarked.afterHyphens? (unmarked : Unmarked text) : afterHyphens? text = none := by
  fun_induction Module.afterHyphens? text with
  | case1 => rfl
  | case2 rest =>
      rw [unmarked_cons] at unmarked
      simp at unmarked
  | case3 c rest _ ih => exact ih (unmarked_cons.1 unmarked).2

theorem suffix_of_directiveWord? (found : directiveWord? text = some rest) : rest <:+ text := by
  simp only [directiveWord?] at found
  split at found
  · rename_i s n a c c' after
    split at found
    · cases found
      exact ⟨[s, n, a, c, c'], rfl⟩
    · cases found
  · cases found

/-- Without hyphens that close it there is no directive. -/
theorem Unmarked.afterDirective? (unmarked : Unmarked text) : afterDirective? text = none := by
  rw [Module.afterDirective?, Option.bind_eq_none_iff]
  intro rest found
  obtain ⟨front, same⟩ := (suffix_of_directiveWord? found).trans (List.dropWhile_suffix Text.isBlank)
  exact (same ▸ unmarked).of_append_right.afterHyphens?

theorem withoutDirectives_cons (plain : c ≠ '-' ∨ text.head? ≠ some '-') :
    withoutDirectives (c :: text) = c :: withoutDirectives text := by
  rw [withoutDirectives]
  rintro rest rfl rfl
  simp at plain

theorem Unmarked.withoutDirectives_append (unmarked : Unmarked before)
    (apart : before.getLast? ≠ some '-' ∨ behind.head? ≠ some '-') :
    withoutDirectives (before ++ behind) = before ++ withoutDirectives behind := by
  induction before with
  | nil => rfl
  | cons c before ih =>
      rw [unmarked_cons] at unmarked
      rw [List.cons_append, withoutDirectives_cons]
      · cases before with
        | nil => rfl
        | cons d before =>
            rw [ih unmarked.2 (by simpa using apart)]
            rfl
      · cases before with
        | nil => simpa using apart
        | cons d before => exact unmarked.1

theorem Unmarked.withoutDirectives (unmarked : Unmarked text) : withoutDirectives text = text := by
  have own := @Unmarked.withoutDirectives_append text [] unmarked (.inr (by simp))
  simpa [Module.withoutDirectives] using own

theorem withoutCommentsFrom_cons (plain : c ≠ '-' ∨ text.head? ≠ some '-') :
    withoutCommentsFrom false (c :: text) = c :: withoutCommentsFrom false text := by
  by_cases ends : c = '\n'
  · subst ends
    rw [withoutCommentsFrom]
  · rw [withoutCommentsFrom]
    · simp
    · exact ends
    · rintro rest rfl rfl
      simp at plain

theorem Unmarked.withoutComments_append (unmarked : Unmarked before)
    (apart : before.getLast? ≠ some '-' ∨ behind.head? ≠ some '-') :
    withoutComments (before ++ behind) = before ++ withoutComments behind := by
  induction before with
  | nil => rfl
  | cons c before ih =>
      rw [unmarked_cons] at unmarked
      rw [List.cons_append, withoutComments, withoutCommentsFrom_cons]
      · cases before with
        | nil => rfl
        | cons d before =>
            rw [← withoutComments, ih unmarked.2 (by simpa using apart)]
            rfl
      · cases before with
        | nil => simpa using apart
        | cons d before => exact unmarked.1

theorem Unmarked.withoutComments (unmarked : Unmarked text) : withoutComments text = text := by
  have own := @Unmarked.withoutComments_append text [] unmarked (.inr (by simp))
  simpa [Module.withoutComments, withoutCommentsFrom] using own

/-- A text is read by lines, once its comments are gone. -/
theorem ofText_eq (text : List Char) :
    ofText (String.ofList text) =
      readAssignments ⟨[]⟩ (assignments (lines [] (withoutComments (withoutDirectives text)))).2 := by
  rw [ofText, String.toList_ofList]

theorem Unmarked.ofText (unmarked : Unmarked text) :
    ofText (String.ofList text) = readAssignments ⟨[]⟩ (assignments (lines [] text)).2 := by
  rw [ofText_eq, unmarked.withoutDirectives, unmarked.withoutComments]

end BerRecords.Module
