import BerRecords.Module.Expansion
import BerRecords.Proofs.Module.Lines
import BerRecords.Proofs.Module.SpacedTypes
import Mathlib.Data.List.Forall2

/-!
# Comments

What becomes of a text when a comment is put between two of its lexemes. A comment that a line end
closes is passed over, and so is a directive. Any other comment takes the rest of its line with it,
whatever closes it.
-/

set_option autoImplicit false

namespace BerRecords.Module

variable {before behind text text' rest line name start comment : List Char} {b c : Char}

/-! ## Assignments of a text with a further blank -/

/-- A character of two texts together stands in the one or in the other. -/
theorem append_cons_cases {front back left right : List Char}
    (same : front ++ c :: back = left ++ right) :
    (∃ more, left = front ++ c :: more ∧ back = more ++ right) ∨
      ∃ more, front = left ++ more ∧ right = more ++ c :: back := by
  rcases List.append_eq_append_iff.1 same with ⟨more, rfl, split⟩ | ⟨more, rfl, split⟩
  · cases more with
    | nil => exact .inr ⟨[], by simp, split.symm⟩
    | cons d more =>
        cases split
        exact .inl ⟨more, rfl, rfl⟩
  · exact .inr ⟨more, rfl, split⟩

/-- A blank makes no assignment of a line. -/
theorem assignment?_blank_eq_none (whole : assignment? (before ++ behind) = none)
    (last : assignment? behind = none) : assignment? (before ++ ' ' :: behind) = none := by
  cases found : assignment? (before ++ ' ' :: behind) with
  | none => rfl
  | some entry =>
      obtain ⟨name, start⟩ := entry
      obtain ⟨indent, gap, same, indented, named, joint, blank⟩ := assignment?_eq_some_iff.1 found
      have refuted {text start indent gap : List Char} (none_found : assignment? text = none)
          (same : text = indent ++ (name ++ (gap ++ ([':', ':', '='] ++ start))))
          (indented : ∀ c ∈ indent, isIndent c = true) (blank : ∀ c ∈ gap, isIndent c = true) :
          False := by
        cases none_found.symm.trans
          (assignment?_eq_some_iff.2 ⟨indent, gap, same, indented, named, joint, blank⟩)
      exfalso
      -- The blank stands in one of the parts of the assignment, and without it they are one as well.
      rcases append_cons_cases same with ⟨more, rfl, tail⟩ | ⟨front, rfl, later⟩
      · exact refuted last tail (fun c member => indented c (by simp [member])) blank
      · rcases append_cons_cases later.symm with ⟨more, rfl, -⟩ | ⟨front, rfl, signed⟩
        · cases joint ' ' (by simp)
        · rcases append_cons_cases signed.symm with ⟨more, rfl, tail⟩ | ⟨front, rfl, started⟩
          · refine @refuted _ start indent (front ++ more) whole (by simp [tail]) indented ?_
            exact fun c member => blank c (by
              rcases List.mem_append.1 member with member | member <;> simp [member])
          · rcases append_cons_cases started.symm with ⟨more, sign, -⟩ | ⟨front, rfl, rfl⟩
            · have inside : ' ' ∈ [':', ':', '='] := by simp [sign]
              revert inside
              decide
            · exact @refuted _ (front ++ behind) indent gap whole (by simp) indented blank

def lastLine (text : List Char) : List Char :=
  text.rtakeWhile (· ≠ '\n')

/-- A blank put between two texts is a further blank of what they read. -/
theorem Spaced.insert {front : List Char} (blank : Text.isBlank b = true)
    (seam : Seam (before ++ front) behind) : Spaced before (front ++ behind) (front ++ b :: behind) := by
  induction front generalizing before with
  | nil =>
      rw [List.append_nil] at seam
      exact .blank blank seam (.refl _ _)
  | cons c front ih => exact .same (ih (by simpa using seam))

/-- The assignments have the same names, and their texts are spaced. The text in front of them is the
same, or has the further blank behind `before`. -/
structure Parted (b : Char) (before behind : List Char)
    (result result' : List Char × List (List Char × List Char)) : Prop where
  found : List.Forall₂ (fun entry entry' => entry'.1 = entry.1 ∧ Spaced [] entry.2 entry'.2)
    result.2 result'.2
  text : result'.1 = result.1 ∨ ∃ rest, rest.head? = behind.head? ∧ result.1 = before ++ rest ∧
    result'.1 = before ++ b :: rest

theorem forall₂_spaced_refl (found : List (List Char × List Char)) :
    List.Forall₂ (fun entry entry' => entry'.1 = entry.1 ∧ Spaced [] entry.2 entry'.2) found found :=
  List.forall₂_same.2 fun _ _ => ⟨rfl, .refl _ _⟩

theorem Seam.of_suffix {front : List Char} (seam : Seam before behind) (suffix : front <:+ before) :
    Seam front behind := by
  obtain ⟨more, rfl⟩ := suffix
  exact seam.of_append

/-- The last line of a text is parted by the blank. -/
theorem parted_line (blank : b = ' ' ∨ b = '\n') (seam : Seam line behind)
    (own : (assignment? line).isSome ∨ assignment? (line ++ firstLine behind) = none)
    (next : assignment? (firstLine behind) = none) :
    Parted b line behind (assignments (lines line.reverse behind))
      (assignments (lines line.reverse (b :: behind))) := by
  obtain ⟨rest, cut, head⟩ := exists_lines behind
  have isBlank : Text.isBlank b = true := by
    rcases blank with rfl | rfl <;> rfl
  have later : assignments (lines [] behind) =
      (firstLine behind ++ tailText rest, (assignments rest).2) := by
    rw [cut, List.reverse_nil, List.nil_append, assignments_cons, next]
  have spread : lines line.reverse (' ' :: behind) = (line ++ ' ' :: firstLine behind) :: rest := by
    simp [lines, cut]
  rw [cut, List.reverse_reverse, assignments_cons]
  cases found : assignment? line with
  | some entry =>
      obtain ⟨name, start⟩ := entry
      rw [assignment?_append found]
      have spaced : Spaced [] (start ++ (firstLine behind ++ tailText rest))
          (start ++ b :: (firstLine behind ++ tailText rest)) :=
        .insert isBlank ((seam.of_suffix (suffix_of_assignment? found)).cut (.inl head))
      rcases blank with rfl | rfl
      · rw [spread, assignments_cons, assignment?_append found]
        exact ⟨.cons ⟨rfl, by simpa using spaced⟩ (forall₂_spaced_refl _), .inl rfl⟩
      · rw [lines_break, List.reverse_reverse, assignments_cons, found]
        refine ⟨.cons ⟨rfl, ?_⟩ ?_, .inl rfl⟩
        · simpa [tailText, lines_ne_nil, later] using spaced
        · simpa [later] using forall₂_spaced_refl _
  | none =>
      have whole := own.resolve_left (by simp [found])
      rw [whole]
      rcases blank with rfl | rfl
      · rw [spread, assignments_cons, assignment?_blank_eq_none whole next]
        exact ⟨forall₂_spaced_refl _, .inr ⟨_, head, by simp, by simp⟩⟩
      · rw [lines_break, List.reverse_reverse, assignments_cons, found]
        refine ⟨?_, .inr ⟨_, head, by simp, ?_⟩⟩
        · simpa [later] using forall₂_spaced_refl _
        · simp [tailText, lines_ne_nil, later]

theorem lastLine_break (line text : List Char) : lastLine (line ++ '\n' :: text) = lastLine text := by
  rw [lastLine, lastLine, List.rtakeWhile, List.rtakeWhile, List.reverse_append, List.reverse_cons,
    List.append_assoc, List.takeWhile_append]
  split
  · rename_i all
    rw [(List.takeWhile_prefix _).eq_of_length all]
    simp
  · rfl

theorem lastLine_eq_self (unbroken : '\n' ∉ line) : lastLine line = line := by
  rw [lastLine, List.rtakeWhile_eq_self_iff]
  intro c member
  rw [decide_eq_true_eq]
  rintro rfl
  exact unbroken member

/-- What is parted stays so behind a line that the blank does not touch. -/
theorem Parted.behind_line (isBlank : Text.isBlank b = true) (seam : Seam (line ++ '\n' :: before) behind)
    (parted : Parted b before behind (assignments (lines [] text)) (assignments (lines [] text'))) :
    Parted b (line ++ '\n' :: before) behind (assignments (line :: lines [] text))
      (assignments (line :: lines [] text')) := by
  obtain ⟨found, same | ⟨rest, head, own, own'⟩⟩ := parted
  all_goals rw [assignments_cons, assignments_cons]
  · cases assigned : assignment? line with
    | some entry =>
        exact ⟨.cons ⟨rfl, by simp [tailText, lines_ne_nil, same, Spaced.refl]⟩ found, .inl rfl⟩
    | none => exact ⟨found, .inl (by simp [tailText, lines_ne_nil, same])⟩
  · cases assigned : assignment? line with
    | some entry =>
        obtain ⟨name, start⟩ := entry
        have suffix : start ++ '\n' :: before <:+ line ++ '\n' :: before := by
          obtain ⟨front, whole⟩ := suffix_of_assignment? assigned
          exact ⟨front, by simp [← whole]⟩
        have spaced : Spaced [] (start ++ '\n' :: before ++ rest) (start ++ '\n' :: before ++ b :: rest) :=
          .insert isBlank ((seam.of_suffix suffix).cut (.inl head))
        refine ⟨.cons ⟨rfl, ?_⟩ found, .inl rfl⟩
        simpa [tailText, lines_ne_nil, own, own'] using spaced
    | none =>
        exact ⟨found, .inr ⟨rest, head, by simp [tailText, lines_ne_nil, own],
          by simp [tailText, lines_ne_nil, own']⟩⟩

theorem parted_assignments (blank : b = ' ' ∨ b = '\n') (unbroken : '\n' ∉ line)
    (seam : Seam (line ++ before) behind)
    (own : (assignment? (lastLine (line ++ before))).isSome ∨
      assignment? (lastLine (line ++ before) ++ firstLine behind) = none)
    (next : assignment? (firstLine behind) = none) :
    Parted b (line ++ before) behind (assignments (lines line.reverse (before ++ behind)))
      (assignments (lines line.reverse (before ++ b :: behind))) := by
  induction before generalizing line with
  | nil =>
      rw [List.append_nil] at seam own ⊢
      rw [lastLine_eq_self unbroken] at own
      exact parted_line blank seam own next
  | cons c before ih =>
      rw [List.cons_append, List.cons_append]
      by_cases ends : c = '\n'
      · subst ends
        rw [lastLine_break] at own
        have isBlank : Text.isBlank b = true := by
          rcases blank with rfl | rfl <;> rfl
        have shorter : Seam ([] ++ before) behind :=
          seam.of_suffix ⟨line ++ ['\n'], by simp⟩
        rw [lines_break, lines_break, List.reverse_reverse]
        exact .behind_line isBlank seam (ih List.not_mem_nil shorter own)
      · have parted := @ih (line ++ [c]) (by simp [unbroken, Ne.symm ends]) (by simpa using seam)
          (by simpa using own)
        simpa [lines, ends] using parted

/-! ## Reading assignments -/

theorem Spaced.readAssignment {declaration : Option Declaration} (spaced : Spaced [] text text')
    (read : readAssignment name text = .ok declaration) :
    Module.readAssignment name text' = .ok declaration := by
  have begins := @Aligned.keyword? _ _ "BEGIN" (by decide) spaced.trimStart
  rw [Module.readAssignment] at read ⊢
  generalize Module.keyword? "BEGIN" (Text.trimStart text) = found at begins read
  generalize Module.keyword? "BEGIN" (Text.trimStart text') = found' at begins
  cases begins with
  | some => exact read
  | none =>
      cases tagged : Module.readTag text with
      | error fault =>
          simp only [tagged, bind, Except.bind] at read
          cases read
      | ok entry =>
          obtain ⟨tag, behind⟩ := entry
          cases typed : Module.readType behind with
          | error fault =>
              simp only [tagged, bind, Except.bind, typed] at read
              cases read
          | ok entry =>
              obtain ⟨type, rest⟩ := entry
              have closed : behind.head? ≠ some '[' := by
                intro opens
                obtain ⟨inside, rfl⟩ := List.head?_eq_some_iff.1 opens
                exact not_reads_bracket typed
              obtain ⟨behind', tagged', aligned⟩ := spaced.readTag tagged closed
              obtain ⟨rest', typed', -⟩ := aligned.spaced.readType typed
              simp only [tagged, bind, Except.bind, typed] at read
              simp only [tagged', bind, Except.bind, typed']
              exact read

theorem Spaced.readAssignments {found found' : List (List Char × List Char)} {module result : Module}
    (spaced : List.Forall₂ (fun entry entry' => entry'.1 = entry.1 ∧ Spaced [] entry.2 entry'.2)
      found found')
    (read : readAssignments module found = .ok result) :
    Module.readAssignments module found' = .ok result := by
  induction spaced generalizing module with
  | nil => exact read
  | @cons entry entry' _ _ pair _ ih =>
      obtain ⟨name, text⟩ := entry
      obtain ⟨name', text'⟩ := entry'
      obtain ⟨rfl, spaced⟩ := pair
      rw [Module.readAssignments] at read ⊢
      cases first : Module.readAssignment name' text with
      | error fault =>
          simp only [first, bind, Except.bind] at read
          cases read
      | ok declaration =>
          simp only [first, bind, Except.bind] at read
          simp only [spaced.readAssignment first, bind, Except.bind]
          cases declaration with
          | none => exact ih read
          | some declaration => exact ih read

/-! ## Passing over a comment -/

theorem withoutDirectives_of_directive (found : afterDirective? text = some rest) :
    withoutDirectives ('-' :: '-' :: text) = ' ' :: withoutDirectives rest := by
  rw [withoutDirectives]
  split
  · rename_i found'
    rw [← Option.some.inj (found.symm.trans found')]
  · rename_i found'
    cases found.symm.trans found'

theorem withoutDirectives_of_comment (found : afterDirective? text = none) :
    withoutDirectives ('-' :: '-' :: text) = '-' :: withoutDirectives ('-' :: text) := by
  rw [withoutDirectives]
  split
  · rename_i found'
    cases found.symm.trans found'
  · rfl

/-- Inside a comment all is passed over up to the end of the line. -/
theorem withoutCommentsFrom_true (text : List Char) :
    withoutCommentsFrom true text = withoutComments (text.dropWhile (· ≠ '\n')) := by
  generalize same : true = inside
  fun_induction withoutCommentsFrom inside text with
  | case1 => simp [withoutComments, withoutCommentsFrom]
  | case2 => simp [withoutComments, withoutCommentsFrom]
  | case3 _ text ih => simpa using ih rfl
  | case4 c text ends _ ih =>
      have other : c ≠ '\n' := ends
      simpa [other] using ih rfl
  | case5 _ _ _ _ _ other => exact absurd same.symm other

theorem withoutComments_of_comment (text : List Char) :
    withoutComments ('-' :: '-' :: text) = withoutComments (text.dropWhile (· ≠ '\n')) := by
  rw [withoutComments, withoutCommentsFrom, withoutCommentsFrom_true]

/-! ## Directives -/

def directs (comment : List Char) : Bool :=
  (directiveWord? (Text.trimStart comment)).isSome

theorem directiveWord?_eq_some_iff :
    directiveWord? text = some rest ↔
      ∃ s n a c c', text = s :: n :: a :: c :: c' :: rest ∧
        (isLetterS s && n.toLower = 'n' && a.toLower = 'a' && c.toLower = 'c' && c'.toLower = 'c' &&
          !rest.head?.any Text.isWordChar) = true := by
  constructor
  · intro found
    simp only [directiveWord?] at found
    split at found
    · rename_i s n a c c' after
      split at found
      · rename_i word
        cases found
        exact ⟨s, n, a, c, c', rfl, word⟩
      · cases found
    · cases found
  · rintro ⟨s, n, a, c, c', rfl, word⟩
    rw [directiveWord?, if_pos word]

/-- Hyphens behind a text do not make it begin with the word of a directive. -/
theorem directiveWord?_append (text more : List Char) :
    directiveWord? (text ++ '-' :: more) = (directiveWord? text).map (· ++ '-' :: more) := by
  have ends (rest : List Char) :
      (rest ++ '-' :: more).head?.any Text.isWordChar = rest.head?.any Text.isWordChar := by
    cases rest <;> rfl
  refine Option.ext fun found => ?_
  rw [directiveWord?_eq_some_iff, Option.map_eq_some_iff]
  constructor
  · rintro ⟨s, n, a, c, c', same, word⟩
    match text with
    | s :: n :: a :: c :: c' :: rest =>
        cases same
        exact ⟨rest, directiveWord?_eq_some_iff.2 ⟨s, n, a, c, c', rfl, ends rest ▸ word⟩, rfl⟩
    | [] | [_] | [_, _] | [_, _, _] | [_, _, _, _] =>
        cases same
        simp [isLetterS] at word
  · rintro ⟨rest, found, rfl⟩
    obtain ⟨s, n, a, c, c', rfl, word⟩ := directiveWord?_eq_some_iff.1 found
    exact ⟨s, n, a, c, c', rfl, (ends rest).symm ▸ word⟩

theorem trimStart_append (text more : List Char) :
    Text.trimStart (text ++ '-' :: more) = Text.trimStart text ++ '-' :: more := by
  rw [Text.trimStart, List.dropWhile_append]
  split
  · rename_i none_left
    rw [Text.trimStart, List.isEmpty_iff.1 none_left]
    rfl
  · rfl

theorem Unmarked.afterHyphens?_append (unmarked : Unmarked text) (ends : text.getLast? ≠ some '-')
    (more : List Char) : Module.afterHyphens? (text ++ '-' :: '-' :: more) = some more := by
  induction text with
  | nil => rfl
  | cons c text ih =>
      rw [unmarked_cons] at unmarked
      rw [List.cons_append, Module.afterHyphens?]
      · cases text with
        | nil => rfl
        | cons d text => exact ih unmarked.2 (by simpa using ends)
      · rintro rest rfl same
        cases text with
        | nil => simp at ends
        | cons d text =>
            cases same
            simp at unmarked

/-- A directive ends at the hyphens that close it. -/
theorem Unmarked.afterDirective?_append (unmarked : Unmarked comment)
    (ends : comment.getLast? ≠ some '-') (more : List Char) :
    Module.afterDirective? (comment ++ '-' :: '-' :: more) =
      if directs comment then some more else none := by
  rw [Module.afterDirective?, trimStart_append, directiveWord?_append, directs]
  cases found : directiveWord? (Text.trimStart comment) with
  | none => rfl
  | some rest =>
      obtain ⟨front, rfl⟩ := (suffix_of_directiveWord? found).trans (List.dropWhile_suffix Text.isBlank)
      have ends' : rest.getLast? ≠ some '-' := by
        intro last
        rw [List.getLast?_append, last] at ends
        exact ends rfl
      exact unmarked.of_append_right.afterHyphens?_append ends' more

/-! ## Comments between lexemes -/

/-- Between the two texts, inside the body of an assignment, a comment can stand: a lexeme ends there,
and no hyphen stands in front that would begin the comment. -/
structure Room (before behind : List Char) : Prop where
  seam : Seam before behind
  unhyphened : before.getLast? ≠ some '-'
  inside : (assignment? (lastLine before)).isSome ∨
    assignment? (lastLine before ++ firstLine behind) = none
  plain : assignment? (firstLine behind) = none

/-- A blank between two lexemes changes nothing of what is read. -/
theorem Room.readAssignments (room : Room before behind) (blank : b = ' ' ∨ b = '\n')
    {module : Module}
    (read : readAssignments ⟨[]⟩ (assignments (lines [] (before ++ behind))).2 = .ok module) :
    Module.readAssignments ⟨[]⟩ (assignments (lines [] (before ++ b :: behind))).2 = .ok module :=
  Spaced.readAssignments
    (parted_assignments blank (List.not_mem_nil) (room.seam : Seam ([] ++ before) behind) room.inside
      room.plain).found read

/-- Two hyphens in front of an unmarked text open no directive. -/
theorem Unmarked.withoutDirectives_hyphens (unmarked : Unmarked text) :
    Module.withoutDirectives ('-' :: '-' :: text) = '-' :: '-' :: text := by
  rw [withoutDirectives_of_comment unmarked.afterDirective?]
  cases text with
  | nil => rw [withoutDirectives_cons (.inr (by simp)), unmarked.withoutDirectives]
  | cons c rest =>
      by_cases hyphen : c = '-'
      · subst hyphen
        rw [withoutDirectives_of_comment (unmarked_cons.1 unmarked).2.afterDirective?,
          unmarked.withoutDirectives]
      · rw [withoutDirectives_cons (.inr (by simpa using hyphen)), unmarked.withoutDirectives]

theorem dropWhile_line (unbroken : '\n' ∉ line) (rest : List Char) :
    (line ++ rest).dropWhile (· ≠ '\n') = rest.dropWhile (· ≠ '\n') := by
  refine List.dropWhile_append_of_pos fun c member => ?_
  rw [decide_eq_true_eq]
  rintro rfl
  exact unbroken member

/-- What is left of a text with a comment that ends with its line. -/
theorem without_line_comment (plain : Unmarked (before ++ behind)) (ends : before.getLast? ≠ some '-')
    (unmarked : Unmarked comment) (unbroken : '\n' ∉ comment) :
    withoutComments (withoutDirectives (before ++ '-' :: '-' :: (comment ++ '\n' :: behind))) =
      before ++ '\n' :: behind := by
  have rest : Unmarked ('\n' :: behind) := unmarked_cons.2 ⟨.inl (by decide), plain.of_append_right⟩
  have inside : Unmarked (comment ++ '\n' :: behind) := unmarked.append rest (.inr (by simp))
  rw [plain.of_append_left.withoutDirectives_append (.inl ends), inside.withoutDirectives_hyphens,
    plain.of_append_left.withoutComments_append (.inl ends), withoutComments_of_comment,
    dropWhile_line unbroken, List.dropWhile_cons_of_neg (by simp), rest.withoutComments]

/-- What is left of a text with a directive. -/
theorem without_directive (plain : Unmarked (before ++ behind)) (ends : before.getLast? ≠ some '-')
    (unmarked : Unmarked comment) (closed : comment.getLast? ≠ some '-')
    (directive : directs comment = true) :
    withoutComments (withoutDirectives (before ++ '-' :: '-' :: (comment ++ '-' :: '-' :: behind))) =
      before ++ ' ' :: behind := by
  have found : afterDirective? (comment ++ '-' :: '-' :: behind) = some behind := by
    rw [unmarked.afterDirective?_append closed, if_pos directive]
  have rest : Unmarked (' ' :: behind) := unmarked_cons.2 ⟨.inl (by decide), plain.of_append_right⟩
  rw [plain.of_append_left.withoutDirectives_append (.inl ends), withoutDirectives_of_directive found,
    plain.of_append_right.withoutDirectives, plain.of_append_left.withoutComments_append (.inl ends),
    rest.withoutComments]

/-- What is left of a text with another comment, though hyphens close it. -/
theorem without_rest_of_line (plain : Unmarked (before ++ behind)) (ends : before.getLast? ≠ some '-')
    (unmarked : Unmarked comment) (unbroken : '\n' ∉ comment) (opened : comment.head? ≠ some '-')
    (closed : comment.getLast? ≠ some '-') (remark : directs comment = false) :
    withoutComments (withoutDirectives (before ++ '-' :: '-' :: (comment ++ '-' :: '-' :: behind))) =
      before ++ behind.dropWhile (· ≠ '\n') := by
  have found : afterDirective? (comment ++ '-' :: '-' :: behind) = none := by
    rw [unmarked.afterDirective?_append closed, remark]
    rfl
  have kept : withoutDirectives ('-' :: '-' :: (comment ++ '-' :: '-' :: behind)) =
      '-' :: '-' :: (comment ++ '-' :: '-' :: behind) := by
    have last := plain.of_append_right.withoutDirectives_hyphens
    rw [withoutDirectives_of_comment found]
    cases comment with
    | nil =>
        have hyphen : afterDirective? ('-' :: behind) = none := by
          have trimmed : Text.trimStart ('-' :: behind) = '-' :: behind := trimStart_append [] behind
          have word : directiveWord? ('-' :: behind) = none := directiveWord?_append [] behind
          rw [afterDirective?, trimmed, word]
          rfl
        rw [List.nil_append, withoutDirectives_of_comment hyphen, last]
    | cons c comment =>
        rw [withoutDirectives_cons (.inr (by simpa using opened)),
          unmarked.withoutDirectives_append (.inl closed), last]
  have rest : Unmarked (behind.dropWhile (· ≠ '\n')) := fun inside =>
    plain.of_append_right (inside.trans (List.dropWhile_suffix _).isInfix)
  rw [plain.of_append_left.withoutDirectives_append (.inl ends), kept,
    plain.of_append_left.withoutComments_append (.inl ends), withoutComments_of_comment,
    dropWhile_line unbroken, List.dropWhile_cons_of_pos (by simp), List.dropWhile_cons_of_pos (by simp),
    rest.withoutComments]

theorem schemaOfText_congr (same : ofText (String.ofList text) = ofText (String.ofList text'))
    (roots : List String) (encoding : TagEncoding) :
    schemaOfText (String.ofList text) roots encoding =
      schemaOfText (String.ofList text') roots encoding := by
  rw [schemaOfText, schemaOfText, same]

theorem ofText_of_schemaOfText {roots : List String} {encoding : TagEncoding} {schema : Schema}
    (read : schemaOfText (String.ofList text) roots encoding = .ok schema) :
    ∃ module, ofText (String.ofList text) = .ok module := by
  rw [schemaOfText] at read
  cases found : ofText (String.ofList text) with
  | ok module => exact ⟨module, rfl⟩
  | error fault =>
      rw [found] at read
      cases read

theorem eq_ok_of_toOption {schema : Schema} {built : Except SchemaError Schema}
    (found : built.toOption = some schema) : built = .ok schema := by
  cases built with
  | ok => exact congrArg _ (Option.some.inj found)
  | error => cases found

/-- A comment between two lexemes of a text that is accepted leaves the schema as it is if it ends
with its line, or if it is a directive. Any other comment takes what stands behind it on its line
away, though hyphens close it. -/
theorem schema_of_commented {roots : List String} {encoding : TagEncoding} {schema : Schema}
    (read : schemaOfText (String.ofList (before ++ behind)) roots encoding = .ok schema)
    (plain : Unmarked (before ++ behind)) (room : Room before behind)
    (unmarked : Unmarked comment) (unbroken : '\n' ∉ comment) :
    schemaOfText (String.ofList (before ++ '-' :: '-' :: (comment ++ '\n' :: behind))) roots encoding =
        .ok schema ∧
      (comment.head? ≠ some '-' → comment.getLast? ≠ some '-' →
        schemaOfText (String.ofList (before ++ '-' :: '-' :: (comment ++ '-' :: '-' :: behind)))
            roots encoding =
          if directs comment then .ok schema
          else
            schemaOfText (String.ofList (before ++ behind.dropWhile (· ≠ '\n'))) roots encoding) := by
  obtain ⟨module, accepted⟩ := ofText_of_schemaOfText read
  have blanked {b : Char} (blank : b = ' ' ∨ b = '\n') (text : List Char)
      (left : withoutComments (withoutDirectives text) = before ++ b :: behind) :
      schemaOfText (String.ofList text) roots encoding = .ok schema := by
    rw [plain.ofText] at accepted
    have same : ofText (String.ofList text) = ofText (String.ofList (before ++ behind)) := by
      rw [ofText_eq, left, room.readAssignments blank accepted, plain.ofText, accepted]
    exact (schemaOfText_congr same roots encoding).trans read
  refine ⟨blanked (.inr rfl) _ (without_line_comment plain room.unhyphened unmarked unbroken), ?_⟩
  intro opened closed
  split
  · rename_i directive
    exact blanked (.inl rfl) _ (without_directive plain room.unhyphened unmarked closed directive)
  · rename_i remark
    have rest : Unmarked (before ++ behind.dropWhile (· ≠ '\n')) := by
      refine plain.of_append_left.append ?_ (.inl room.unhyphened)
      exact fun inside => plain.of_append_right (inside.trans (List.dropWhile_suffix _).isInfix)
    refine schemaOfText_congr ?_ roots encoding
    rw [ofText_eq, rest.ofText, without_rest_of_line plain room.unhyphened unmarked unbroken opened
      closed (by simpa using remark)]

/-- Of three components, the second is lost behind a remark that hyphens close, and kept behind one that
ends with its line. -/
theorem schema_of_commented_second_component :
    let before := "A ::= SEQUENCE \x7b x [1] INTEGER,".toList
    let behind := " y [2] BOOLEAN,\n z [3] NULL \x7d".toList
    let comment := " c ".toList
    let size (schema : Schema) := schema.roots.map fun root => root.components?.map (·.length)
    ∃ schema shorter, schemaOfText (String.ofList (before ++ behind)) ["A"] .singleOctet = .ok schema ∧
      Unmarked (before ++ behind) ∧ Room before behind ∧ Unmarked comment ∧ '\n' ∉ comment ∧
      schemaOfText (String.ofList (before ++ '-' :: '-' :: (comment ++ '\n' :: behind))) ["A"]
          .singleOctet = .ok schema ∧
      schemaOfText (String.ofList (before ++ '-' :: '-' :: (comment ++ '-' :: '-' :: behind))) ["A"]
          .singleOctet = .ok shorter ∧
      size schema = [some 3] ∧ size shorter = [some 2] := by
  intro before behind comment size
  have sized : (schemaOfText (String.ofList (before ++ behind)) ["A"] .singleOctet).toOption.map size =
      some [some 3] := by
    decide +kernel
  have shortened : (schemaOfText (String.ofList (before ++ behind.dropWhile (· ≠ '\n'))) ["A"]
      .singleOctet).toOption.map size = some [some 2] := by
    decide +kernel
  obtain ⟨schema, some_read, size_eq⟩ := Option.map_eq_some_iff.1 sized
  obtain ⟨shorter, some_lost, shorter_size_eq⟩ := Option.map_eq_some_iff.1 shortened
  have read := eq_ok_of_toOption some_read
  have lost := eq_ok_of_toOption some_lost
  have plain : Unmarked (before ++ behind) := by
    rw [Unmarked]
    decide +kernel
  have remark : Unmarked comment := by
    rw [Unmarked]
    decide
  have last : before.getLast? = some ',' := by decide
  have first : behind.head? = some ' ' := by decide
  have room : Room before behind := by
    refine ⟨⟨?_, fun _ _ _ => by rw [first]; rfl⟩, by decide, .inl ?_, ?_⟩
    · intro c at_end d at_start
      cases last.symm.trans at_end
      cases first.symm.trans at_start
      rfl
    · decide +kernel
    · decide +kernel
  obtain ⟨ended, closed⟩ := schema_of_commented read plain room remark (by decide)
  exact ⟨schema, shorter, read, plain, room, remark, by decide, ended,
    (closed (by decide) (by decide)).trans lost, size_eq, shorter_size_eq⟩

end BerRecords.Module
