import BerRecords.Proofs.Module.Telling
import BerRecords.Proofs.Module.Writable
import Mathlib.Data.List.Forall2

/-!
# Reading back declarations

A text that writes declarations of different names is read as these declarations, in their order: each
assignment is found on its line, with the text up to the next one, and that text is read as what it says.
-/

set_option autoImplicit false

namespace BerRecords.Module

variable {text body rest line name start : List Char} {declarations front : List Declaration}

/-! ## Lines -/

theorem assignments_break (unsigned : Unsigned line) (later : List Char) :
    assignments (lines line.reverse ('\n' :: later)) =
      (line ++ '\n' :: (assignments (lines [] later)).1, (assignments (lines [] later)).2) := by
  rw [lines_break, List.reverse_reverse, assignments_cons, unsigned.assignment?_eq_none]
  simp [tailText, lines_ne_nil]

/-- Text without an assignment, up to the end or to a newline, belongs to what stands in front of it. -/
theorem assignments_unsigned (unsigned : Unsigned (line ++ text)) (ends : ∀ c ∈ rest.head?, c = '\n') :
    assignments (lines line.reverse (text ++ rest)) =
      (line ++ (text ++ (assignments (lines [] rest)).1), (assignments (lines [] rest)).2) := by
  induction text generalizing line with
  | nil =>
      rw [List.append_nil] at unsigned
      cases rest with
      | nil =>
          have none_found : assignment? [] = none := rfl
          simp [lines, assignments_cons, unsigned.assignment?_eq_none, none_found, assignments, tailText]
      | cons c rest =>
          obtain rfl := ends c rfl
          have alone := @assignments_break [] (by decide) rest
          rw [List.reverse_nil] at alone
          rw [List.nil_append, assignments_break unsigned, alone]
          rfl
  | cons c text ih =>
      by_cases newline : c = '\n'
      · subst newline
        have own := @ih [] (@Unsigned.of_append_right ['\n'] text unsigned.of_append_right)
        rw [List.reverse_nil] at own
        rw [List.cons_append, assignments_break unsigned.of_append_left, own]
        rfl
      · have own := @ih (line ++ [c]) (by simpa using unsigned)
        rw [List.cons_append, lines, if_neg newline]
        simpa using own

/-- An assignment takes the text behind its line up to the next one. -/
theorem assignments_assigned (found : assignment? line = some (name, start))
    (plain : assignment? (firstLine text) = none) :
    assignments (lines line.reverse text) =
      ([], (name, start ++ (assignments (lines [] text)).1) :: (assignments (lines [] text)).2) := by
  obtain ⟨rest, cut, -⟩ := exists_lines text
  rw [cut, cut, List.reverse_reverse, assignments_cons, assignment?_append found, assignments_cons]
  simp [plain]

theorem assignments_next (unsigned : Unsigned body) (unbroken : '\n' ∉ line)
    (found : assignment? line = some (name, start)) (plain : assignment? (firstLine text) = none) :
    assignments (lines [] (body ++ '\n' :: (line ++ text))) =
      (body ++ ['\n'],
        (name, start ++ (assignments (lines [] text)).1) :: (assignments (lines [] text)).2) := by
  have before := @assignments_unsigned body ('\n' :: (line ++ text)) [] unsigned (by simp)
  have broken := @assignments_break [] (by decide) (line ++ text)
  have assigned := assignments_assigned found plain
  rw [← List.append_nil line.reverse, ← lines_append unbroken] at assigned
  rw [List.reverse_nil] at before broken
  rw [before, broken, assigned]
  rfl

/-! ## Assignments -/

theorem Silent.unsigned_append {gap : List Char} (silent : Silent body) (isGap : IsGap gap) :
    Unsigned (body ++ gap) := by
  have contained : Contained 0 gap := isGap.contained
  exact (silent.append contained.silent contained.fresh).unsigned

theorem assignment?_written {indent space : List Char} (spaces : ∀ c ∈ indent, c = ' ')
    (spaces' : ∀ c ∈ space, c = ' ') (isWord : IsWord name) :
    assignment? (indent ++ (name ++ (space ++ [':', ':', '=']))) = some (name, []) :=
  assignment?_eq_some_iff.2 ⟨indent, space, by simp, fun c member => by simp [isIndent, spaces c member],
    isWord.ne_nil, isWord.solid.joint, fun c member => by simp [isIndent, spaces' c member]⟩

theorem unbroken_written {indent space : List Char} (spaces : ∀ c ∈ indent, c = ' ')
    (spaces' : ∀ c ∈ space, c = ' ') (isWord : IsWord name) :
    '\n' ∉ indent ++ (name ++ (space ++ [':', ':', '='])) := by
  have alone {spaces : List Char} (each : ∀ c ∈ spaces, c = ' ') : '\n' ∉ spaces := fun member =>
    absurd (each _ member) (by decide)
  have named : '\n' ∉ name := fun member => by
    cases isWord.solid.joint _ member
  simp [alone spaces, alone spaces', named]

/-- What is assigned to a name is read as the declaration, whatever gap follows it. -/
theorem readAssignment_written {tagText gap : List Char} {tag : Option Tag} {type : TypeExpr}
    (tagged : WrittenTag tag tagText) (tells : Tells type text) (apart : Apart tagText text)
    (isGap : IsGap gap) :
    readAssignment name (tagText ++ (text ++ gap)) = .ok (some ⟨String.ofList name, tag, type⟩) := by
  have closing : Closing gap := by
    have trimmed := isGap.trimStart []
    rw [List.append_nil] at trimmed
    exact .inl (trimmed.trans rfl)
  have within : Apart text gap := by
    intro c _ d first joint
    cases (isJoint_of_isBlank (isGap.isBlank d (List.mem_of_mem_head? first))).symm.trans joint.2
  have led := tells.led.append within
  have read := tagged.read led (apart.append_right tells.led.ne_nil gap)
  obtain ⟨after, typed, -⟩ := tells.read gap within closing
  have unopened : keyword? "BEGIN" (Text.trimStart (tagText ++ (text ++ gap))) = none := by
    cases tagged with
    | absent => exact led.keyword?_eq_none
    | bracketed outerGap =>
        rw [List.append_assoc, outerGap.trimStart]
        rfl
  rw [readAssignment, unopened]
  simp only [Option.isSome_none, Bool.false_eq_true, if_false, read, bind, Except.bind,
    readType_trimStart typed]
  rfl

/-- Behind a text without signs, the assignments are found with texts that are read as declared. -/
theorem WrittenAssignments.entries (written : WrittenAssignments declarations rest) (silent : Silent body) :
    ∃ gap found, IsGap gap ∧ assignments (lines [] (body ++ rest)) = (body ++ gap, found) ∧
      List.Forall₂ (fun declaration entry => readAssignment entry.1 entry.2 = .ok (some declaration))
        declarations found ∧ assignment? (firstLine (body ++ rest)) = none := by
  induction written generalizing body with
  | @nil gap isGap =>
      have unsigned := silent.unsigned_append isGap
      have alone := @assignments_unsigned (body ++ gap) [] [] unsigned (by simp)
      have plain := @Unsigned.assignment?_firstLine _ [] unsigned (by simp)
      have empty : assignments (lines [] []) = ([], []) := rfl
      rw [empty] at alone
      rw [List.append_nil] at alone plain
      exact ⟨gap, [], isGap, by simpa using alone, .nil, plain⟩
  | @cons gap indent name space tagText text rest tag type declarations isGap spaces ordinary spaces' tagged
      type apart _ ih =>
      have tells := type.tells
      have unsigned := silent.unsigned_append isGap
      -- What is assigned here is the text without signs that the rest stands behind.
      obtain ⟨gap', found, isGap', cut, reads, plain⟩ := ih (tagged.contained.append tells.contained).silent
      have assigned := assignments_next unsigned (unbroken_written spaces spaces' ordinary.isWord)
        (assignment?_written spaces spaces' ordinary.isWord) plain
      rw [cut] at assigned
      refine ⟨gap ++ ['\n'], (name, tagText ++ text ++ gap') :: found, isGap.append (by decide),
        by simpa using assigned, .cons ?_ reads, ?_⟩
      · simpa using readAssignment_written tagged tells apart isGap'
      · rw [← List.append_assoc]
        exact unsigned.assignment?_firstLine (by simp)

/-! ## Comments -/

/-- Without the sign of a comment, and without a half of it in front. -/
structure Steady (text : List Char) : Prop where
  unmarked : Unmarked text
  start : text.head? ≠ some '-'

theorem Steady.append (front : Steady line) (back : Steady text) : Steady (line ++ text) where
  unmarked := front.unmarked.append back.unmarked (.inr back.start)
  start := by
    cases line with
    | nil => exact back.start
    | cons c line => exact front.start

theorem Contained.steady {level : Nat} (whole : Contained level text) : Steady text where
  unmarked := whole.silent.unmarked
  start := fun starts => by
    have fresh := whole.fresh
    rw [starts] at fresh
    cases fresh

theorem WrittenAssignments.steady (written : WrittenAssignments declarations text) : Steady text := by
  have blank {spaces : List Char} (isGap : IsGap spaces) : Steady spaces :=
    (@IsGap.contained _ 0 isGap).steady
  induction written with
  | nil isGap => exact blank isGap
  | cons isGap spaces ordinary spaces' tagged type _ _ ih =>
      have sign : Steady [':', ':', '='] := ⟨by decide, by decide⟩
      have newline : Steady ['\n'] := blank (by simp [IsGap])
      have named : Steady _ := (@IsWord.contained _ 0 ordinary.isWord).steady
      have body := tagged.contained.steady.append (type.tells.contained.steady.append ih)
      exact (blank isGap).append (newline.append ((blank fun c member => .inl (spaces c member)).append
        (named.append ((blank fun c member => .inl (spaces' c member)).append (sign.append body)))))

/-! ## Modules -/

theorem insertInto_new {declaration : Declaration} (new : declaration.name ∉ front.map (·.name)) :
    insertInto declaration front = front ++ [declaration] := by
  induction front with
  | nil => rfl
  | cons first front ih =>
      rw [List.map_cons, List.mem_cons, not_or] at new
      rw [insertInto, if_neg (Ne.symm new.1), ih new.2]
      rfl

/-- Assignments to names that are all different are kept in their order. -/
theorem readAssignments_distinct {found : List (List Char × List Char)}
    (reads : List.Forall₂ (fun declaration entry => readAssignment entry.1 entry.2 = .ok (some declaration))
      declarations found)
    (distinct : ((front ++ declarations).map (·.name)).Nodup) :
    readAssignments ⟨front⟩ found = .ok ⟨front ++ declarations⟩ := by
  induction reads generalizing front with
  | nil => rw [List.append_nil, readAssignments]
  | @cons declaration entry declarations found read _ ih =>
      rw [List.append_cons] at distinct ⊢
      have new : declaration.name ∉ front.map (·.name) := by
        rw [List.map_append, List.map_append, List.append_assoc] at distinct
        intro member
        exact (List.nodup_append.1 distinct).2.2 _ member declaration.name (by simp) rfl
      rw [readAssignments, read, ← ih distinct, ← insertInto_new new]
      rfl

theorem WrittenModule.ofText (written : WrittenModule declarations text)
    (distinct : (declarations.map (·.name)).Nodup) :
    ofText (String.ofList text) = .ok ⟨declarations⟩ := by
  have unmarked : Unmarked text := (unmarked_cons.1 written.steady.unmarked).2
  obtain ⟨gap, found, -, cut, reads, -⟩ := written.entries (@Contained.nil 0).silent
  have same : (assignments (lines [] text)).2 = found := by
    have broken := @assignments_break [] (by decide) text
    rw [List.nil_append] at cut
    rw [List.reverse_nil, cut] at broken
    exact (congrArg Prod.snd broken).symm
  rw [unmarked.ofText, same]
  exact @readAssignments_distinct declarations [] found reads distinct

/-- Declarations in ordinary names that all differ can be written, and every text that writes them is
read as them, in their order. -/
theorem ofText_of_written
    (writable : ∀ declaration ∈ declarations, WritableDeclaration declaration)
    (distinct : (declarations.map (·.name)).Nodup) :
    (∃ text, WrittenModule declarations text) ∧
      ∀ text, WrittenModule declarations text → Module.ofText (String.ofList text) = .ok ⟨declarations⟩ :=
  ⟨exists_writtenModule_iff.2 writable, fun _ written => written.ofText distinct⟩

/-- A call with an optional kind and its parts, in a text with constraints, a default value and a mark. -/
theorem ofText_of_written_call :
    let text := ("Call ::= [APPLICATION 1] IMPLICIT SEQUENCE \x7b\n  kind [0] INTEGER (0..7) OPTIONAL,\n" ++
      "  parts SEQUENCE (SIZE (1..4)) OF Part DEFAULT \x7b\x7d,\n  ...\n\x7d\nPart ::= OCTET STRING").toList
    let call := TypeExpr.record .sequence
      [.component "kind" (some ⟨.context, false, 0⟩) (.builtin .integer) true,
        .component "parts" none (.collection .sequence (.reference "Part")) true]
    let declarations : List Declaration :=
      [⟨"Call", some ⟨.application, false, 1⟩, call⟩, ⟨"Part", none, .builtin .octetString⟩]
    (∀ declaration ∈ declarations, WritableDeclaration declaration) ∧
      (declarations.map (·.name)).Nodup ∧ WrittenModule declarations text ∧
        ofText (String.ofList text) = .ok ⟨declarations⟩ := by
  intro text call declarations
  have none' : IsGap [] := by decide
  have blank : IsGap [' '] := by decide
  have newline : IsGap ['\n'] := by decide
  have indent : IsGap ['\n', ' ', ' '] := by decide
  have unindented : ∀ c ∈ [], c = ' ' := fun c member => absurd member List.not_mem_nil
  have spaced : ∀ c ∈ [' '], c = ' ' := fun c => List.eq_of_mem_singleton
  have integer : WrittenType (.builtin .integer) _ :=
    .builtin blank (.single (by decide) (by decide)) .absent
      (.more blank (by decide : Passable "0..7".toList) .absent)
  have kind := WrittenItem.component indent (by decide : Ordinary "kind".toList)
    (.bracketed blank none' .bare (by decide : 0 < UInt32.size) none' .absent) (by decide +kernel) integer
    (by decide +kernel) (.optional blank none') (by decide +kernel)
  have list : WrittenType (.collection .sequence _) _ :=
    .collection blank (.more blank (by decide : Passable "SIZE (1..4)".toList) .absent) blank
      (by decide +kernel) (.reference blank (by decide : Ordinary "Part".toList) .absent)
      (by decide +kernel)
  have parts := WrittenItem.component indent (by decide : Ordinary "parts".toList) .absent
    (by decide +kernel) list (by decide +kernel)
    (.default blank (by decide +kernel) (by decide : Passable " \x7b\x7d".toList) (by decide))
    (by decide +kernel)
  have record : WrittenType (.record .sequence _) _ :=
    .record blank blank (.more kind (.more parts (.last (.mark indent newline))))
  have octets : WrittenType (.builtin .octetString) _ :=
    .builtin blank (.paired (by decide : (_, "OCTET", "STRING") ∈ _) blank (by decide)) .absent .absent
  have application : WrittenTag (some ⟨.application, false, 1⟩) _ :=
    .bracketed blank none' (.named (by decide : (_, "APPLICATION") ∈ _) blank (by decide)) (by decide)
      none' (.given blank (by decide : "IMPLICIT" ∈ _))
  have whole := WrittenAssignments.cons none' unindented (by decide : Ordinary "Call".toList) spaced
    application record (by decide +kernel) <|
      .cons none' unindented (by decide : Ordinary "Part".toList) spaced .absent octets (by decide +kernel)
        (.nil none')
  have written : WrittenModule declarations text :=
    Eq.mp (congrArg₂ WrittenAssignments (by simp [declarations, call]) (by decide +kernel)) whole
  have distinct : (declarations.map (·.name)).Nodup := by decide
  have writable : ∀ declaration ∈ declarations, WritableDeclaration declaration := written.writable
  exact ⟨writable, distinct, written, (ofText_of_written writable distinct).2 text written⟩

end BerRecords.Module
