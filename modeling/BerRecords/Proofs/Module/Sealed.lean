import BerRecords.Proofs.Module.Written
import BerRecords.Proofs.Module.Lines
import BerRecords.Proofs.Module.Readers

/-!
# Texts that stand whole in a longer text

A text that leaves braces and parentheses as they are, that no comma cuts, and that neither makes a
comment or an assignment nor helps to make one. What is written for a type or an item is of that kind,
and so the readers that look for brackets, commas and lines pass over it.
-/

set_option autoImplicit false

namespace BerRecords.Module

variable {text left right inner gap rest : List Char} {c opening closing : Char} {level : Nat}

/-! ## Brackets -/

/-- As many brackets are open behind the text as in front of it. -/
def Closed (opening closing : Char) (text : List Char) : Prop :=
  ∀ depth, openBehind? opening closing depth text = some depth

theorem openBehind?_append (opening closing : Char) (depth : Nat) (left right : List Char) :
    openBehind? opening closing depth (left ++ right) =
      (openBehind? opening closing depth left).bind fun depth =>
        openBehind? opening closing depth right := by
  induction left generalizing depth with
  | nil => rfl
  | cons c left ih =>
      rw [List.cons_append, openBehind?, openBehind?, ih, ih, ih]
      split
      · rfl
      · split
        · split <;> rfl
        · rfl

/-- More brackets that are open in front stay open. -/
theorem openBehind?_add {depth depth' : Nat} (more : Nat)
    (found : openBehind? opening closing depth text = some depth') :
    openBehind? opening closing (depth + more) text = some (depth' + more) := by
  induction text generalizing depth with
  | nil => simpa [openBehind?] using found
  | cons c text ih =>
      rw [openBehind?] at found ⊢
      split at found
      · rw [if_pos ‹_›, Nat.add_right_comm]
        exact ih found
      · rw [if_neg ‹_›]
        split at found
        · split at found
          · cases found
          · rw [if_pos ‹_›, if_neg (by omega), show depth + more - 1 = depth - 1 + more by omega]
            exact ih found
        · rw [if_neg ‹_›]
          exact ih found

theorem closed_of_balanced (balanced : openBehind? opening closing 0 text = some 0) :
    Closed opening closing text := fun depth => by
  have added := openBehind?_add depth balanced
  rwa [Nat.zero_add] at added

theorem Closed.nil : Closed opening closing [] := fun _ => rfl

theorem Closed.append (front : Closed opening closing left) (back : Closed opening closing right) :
    Closed opening closing (left ++ right) := fun depth => by
  rw [openBehind?_append, front, Option.bind_some, back]

theorem Closed.cons (other : c ≠ opening) (other' : c ≠ closing) (closed : Closed opening closing text) :
    Closed opening closing (c :: text) := fun depth => by
  rw [openBehind?, if_neg other, if_neg other', closed]

theorem Closed.group (other : closing ≠ opening) (closed : Closed opening closing inner) :
    Closed opening closing (opening :: (inner ++ [closing])) := fun depth => by
  rw [openBehind?, if_pos rfl, openBehind?_append, closed, Option.bind_some, openBehind?,
    if_neg other, if_pos rfl, if_neg (Nat.succ_ne_zero depth)]
  rfl

/-- The reader that looks for the closing bracket has one more open than the count. -/
theorem enclosed?_append {depth depth' : Nat} (passed : List Char)
    (found : openBehind? opening closing depth text = some depth') (rest : List Char) :
    enclosed? opening closing (depth + 1) passed (text ++ rest) =
      enclosed? opening closing (depth' + 1) (text.reverse ++ passed) rest := by
  induction text generalizing depth passed with
  | nil =>
      cases found
      rfl
  | cons c text ih =>
      rw [openBehind?] at found
      rw [List.cons_append, enclosed?, List.reverse_cons, List.append_assoc]
      split at found
      · rw [if_pos ‹_›]
        exact ih _ found
      · rw [if_neg ‹_›]
        split at found
        · split at found
          · cases found
          · rw [if_pos ‹_›, if_neg (by omega), show depth + 1 - 1 = depth - 1 + 1 by omega]
            exact ih _ found
        · rw [if_neg ‹_›]
          exact ih _ found

/-- Behind an opening bracket, what is closed ends at the bracket that follows it. -/
theorem Closed.enclosed?_eq (other : closing ≠ opening) (closed : Closed opening closing inner)
    (rest : List Char) :
    enclosed? opening closing 1 [] (inner ++ closing :: rest) = some (inner, rest) := by
  rw [enclosed?_append [] (closed 0), enclosed?, if_neg other, if_pos rfl, if_pos (Nat.le_refl 1),
    List.append_nil, List.reverse_reverse]

/-! ## Commas -/

/-- Where at least `level` groups are open, no comma of the text cuts. -/
def Uncut (level : Nat) (text : List Char) : Prop :=
  ∀ depth : Int, level ≤ depth → ∀ piece rest,
    splitItemsFrom depth piece (text ++ rest) = splitItemsFrom depth (text.reverse ++ piece) rest

theorem Uncut.append (front : Uncut level left) (back : Uncut level right) :
    Uncut level (left ++ right) := fun depth within piece rest => by
  rw [List.append_assoc, front depth within, back depth within, List.reverse_append, List.append_assoc]

theorem Uncut.mono {level' : Nat} (within : level ≤ level') (uncut : Uncut level text) :
    Uncut level' text := fun depth within' => uncut depth (by omega)

def isPlain (c : Char) : Bool :=
  c ≠ '\x7b' && c ≠ '(' && c ≠ '\x7d' && c ≠ ')' && c ≠ ','

theorem Uncut.cons (plain : isPlain c = true) (uncut : Uncut level text) : Uncut level (c :: text) := by
  intro depth within piece rest
  simp only [isPlain, Bool.and_eq_true, decide_eq_true_eq] at plain
  simp [splitItemsFrom, plain, uncut depth within]

theorem Uncut.group (brackets : (opening, closing) ∈ [('\x7b', '\x7d'), ('(', ')')])
    (uncut : Uncut 1 inner) : Uncut 0 (opening :: (inner ++ [closing])) := by
  intro depth within piece rest
  have inside := uncut (depth + 1) (by omega)
  simp only [List.mem_cons, Prod.mk.injEq, List.not_mem_nil, or_false] at brackets
  obtain ⟨rfl, rfl⟩ | ⟨rfl, rfl⟩ := brackets <;> simp [splitItemsFrom, inside]

/-- The groups that are open for the reader of items are those of both counts together. -/
theorem splitItemsFrom_append {base braces braces' parentheses parentheses' : Nat} {depth : Int}
    (stands : depth = base + braces + parentheses) (piece rest : List Char)
    (found : openBehind? '\x7b' '\x7d' braces text = some braces')
    (found' : openBehind? '(' ')' parentheses text = some parentheses')
    (inside : 1 ≤ base ∨ commasInside (braces + parentheses) text = true) :
    splitItemsFrom depth piece (text ++ rest) =
      splitItemsFrom (base + braces' + parentheses') (text.reverse ++ piece) rest := by
  induction text generalizing braces parentheses depth piece with
  | nil =>
      cases found
      cases found'
      rw [stands]
      rfl
  | cons c text ih =>
      rw [openBehind?] at found found'
      rw [commasInside] at inside
      rw [List.cons_append, splitItemsFrom, List.reverse_cons, List.append_assoc]
      by_cases opens : c = '\x7b'
      · subst opens
        exact ih (by omega) _ found found' (by simpa [Nat.add_right_comm] using inside)
      by_cases opens' : c = '('
      · subst opens'
        exact ih (by omega) _ found found' (by simpa [Nat.add_assoc] using inside)
      rw [if_neg opens] at found
      rw [if_neg opens'] at found'
      rw [if_neg (by simp [opens, opens'])] at inside ⊢
      by_cases closes : c = '\x7d'
      · subst closes
        rw [if_pos rfl] at found
        split at found
        · cases found
        · refine ih (by omega) _ found found' ?_
          rwa [show braces + parentheses - 1 = braces - 1 + parentheses by omega] at inside
      by_cases closes' : c = ')'
      · subst closes'
        rw [if_pos rfl] at found'
        split at found'
        · cases found'
        · refine ih (by omega) _ found found' ?_
          rwa [show braces + parentheses - 1 = braces + (parentheses - 1) by omega] at inside
      rw [if_neg closes] at found
      rw [if_neg closes'] at found'
      rw [if_neg (by simp [closes, closes'])] at inside ⊢
      -- A comma cuts where no group is open, and then it would stand outside both kinds of brackets.
      have uncut : ¬(decide (c = ',') && decide (depth = 0)) = true := by
        intro cut
        rw [Bool.and_eq_true, decide_eq_true_eq, decide_eq_true_eq] at cut
        obtain ⟨rfl, outside⟩ := cut
        rcases inside with within | inside
        · omega
        · have groups := (Bool.and_eq_true_iff.1 inside).1
          simp only [ne_eq, not_true_eq_false, decide_false, Bool.false_or, decide_eq_true_eq] at groups
          omega
      rw [if_neg uncut]
      exact ih stands _ found found' (inside.imp_right fun inside => by simp_all)

/-- A text that is balanced in both kinds of brackets is not cut if its commas stand inside them. -/
theorem uncut_of_balanced (braces : openBehind? '\x7b' '\x7d' 0 text = some 0)
    (parentheses : openBehind? '(' ')' 0 text = some 0)
    (inside : 1 ≤ level ∨ commasInside 0 text = true) : Uncut level text := by
  intro depth within piece rest
  lift depth to Nat using by omega
  have own := @splitItemsFrom_append _ depth 0 0 0 0 depth (by simp) piece rest braces parentheses
    (inside.imp_left (by omega))
  simpa using own

/-! ## Signs -/

structure Silent (text : List Char) : Prop where
  unmarked : Unmarked text
  unsigned : Unsigned text

def isFresh (c : Char) : Bool :=
  c ≠ '-' && c ≠ ':' && c ≠ '='

theorem isFresh_iff : isFresh c = true ↔ c ≠ '-' ∧ c ≠ ':' ∧ c ≠ '=' := by
  simp [isFresh, and_assoc]

theorem Silent.cons (fresh : isFresh c = true) (silent : Silent text) : Silent (c :: text) where
  unmarked := unmarked_cons.2 ⟨.inl (isFresh_iff.1 fresh).1, silent.unmarked⟩
  unsigned := by
    rw [Unsigned, List.infix_cons_iff]
    rintro (starts | inside)
    · exact (isFresh_iff.1 fresh).2.1 (List.cons_prefix_cons.1 starts).1.symm
    · exact silent.unsigned inside

theorem Silent.append (front : Silent left) (back : Silent right)
    (fresh : right.head?.all isFresh = true) : Silent (left ++ right) where
  unmarked := by
    refine front.unmarked.append back.unmarked (.inr ?_)
    intro starts
    rw [starts] at fresh
    cases fresh
  unsigned := by
    obtain ⟨-, unsigned⟩ := front
    induction left with
    | nil => exact back.unsigned
    | cons c left ih =>
        rw [Unsigned, List.infix_cons_iff, not_or] at unsigned
        rw [List.cons_append, Unsigned, List.infix_cons_iff]
        rintro (starts | inside)
        · -- A sign that runs over into the second text would begin it with a part of itself.
          have begins {d : Char} {more : List Char} (same : right = d :: more) : d ≠ ':' ∧ d ≠ '=' := by
            rw [same] at fresh
            exact (isFresh_iff.1 (by simpa using fresh)).2
          obtain _ | ⟨d, _ | ⟨e, left⟩⟩ := left
          · cases right with
            | nil => simp at starts
            | cons d right =>
                simp only [List.nil_append, List.cons_prefix_cons] at starts
                exact (begins rfl).1 starts.2.1.symm
          · cases right with
            | nil => simp at starts
            | cons e right =>
                simp only [List.cons_append, List.nil_append, List.cons_prefix_cons] at starts
                exact (begins rfl).2 starts.2.2.1.symm
          · refine unsigned.1 ?_
            simp only [List.cons_append, List.cons_prefix_cons] at starts ⊢
            exact ⟨starts.1, starts.2.1, starts.2.2.1, List.nil_prefix⟩
        · exact ih unsigned.2 inside

/-! ## Sealed and contained texts -/

/-- With `level` groups around it the text leaves all brackets, commas and signs to what is around. -/
structure Sealed (level : Nat) (text : List Char) : Prop where
  braces : Closed '\x7b' '\x7d' text
  parentheses : Closed '(' ')' text
  uncut : Uncut level text
  silent : Silent text

structure Contained (level : Nat) (text : List Char) : Prop extends Sealed level text where
  fresh : text.head?.all isFresh = true

theorem Passable.sealed (passable : Passable text) (inside : 1 ≤ level ∨ commasInside 0 text = true) :
    Sealed level text where
  braces := closed_of_balanced passable.braces
  parentheses := closed_of_balanced passable.parentheses
  uncut := uncut_of_balanced passable.braces passable.parentheses inside
  silent := ⟨passable.comments, passable.signs⟩

theorem Sealed.append (front : Sealed level left) (back : Contained level right) :
    Sealed level (left ++ right) where
  braces := front.braces.append back.braces
  parentheses := front.parentheses.append back.parentheses
  uncut := front.uncut.append back.uncut
  silent := front.silent.append back.silent back.fresh

theorem Contained.append (front : Contained level left) (back : Contained level right) :
    Contained level (left ++ right) where
  toSealed := front.toSealed.append back
  fresh := by
    cases left with
    | nil => exact back.fresh
    | cons c left => exact front.fresh

theorem Sealed.mono {level' : Nat} (within : level ≤ level') (whole : Sealed level text) :
    Sealed level' text :=
  { whole with uncut := whole.uncut.mono within }

theorem Contained.mono {level' : Nat} (within : level ≤ level') (whole : Contained level text) :
    Contained level' text :=
  ⟨whole.toSealed.mono within, whole.fresh⟩

theorem Contained.nil : Contained level [] where
  braces := .nil
  parentheses := .nil
  uncut := fun _ _ _ _ => rfl
  silent := ⟨by decide, by decide⟩
  fresh := rfl

theorem Sealed.cons (plain : isPlain c = true) (fresh : isFresh c = true) (whole : Sealed level text) :
    Contained level (c :: text) where
  braces := by
    simp only [isPlain, Bool.and_eq_true, decide_eq_true_eq] at plain
    exact whole.braces.cons (by simp [plain]) (by simp [plain])
  parentheses := by
    simp only [isPlain, Bool.and_eq_true, decide_eq_true_eq] at plain
    exact whole.parentheses.cons (by simp [plain]) (by simp [plain])
  uncut := whole.uncut.cons plain
  silent := whole.silent.cons fresh
  fresh := by simpa using fresh

/-- Behind characters that are neither in a sign nor brackets nor commas, a text need not take care of
its start. -/
theorem Sealed.behind (each : left.all (fun c => isPlain c && isFresh c) = true) (some_front : left ≠ [])
    (whole : Sealed level text) : Contained level (left ++ text) := by
  induction left with
  | nil => cases some_front rfl
  | cons c left ih =>
      rw [List.all_cons, Bool.and_eq_true, Bool.and_eq_true] at each
      cases left with
      | nil => exact whole.cons each.1.1 each.1.2
      | cons d left => exact (ih each.2 (List.cons_ne_nil d left)).toSealed.cons each.1.1 each.1.2

theorem contained_of_all (each : text.all (fun c => isPlain c && isFresh c) = true) :
    Contained level text := by
  cases text with
  | nil => exact .nil
  | cons c text =>
      have own := (@Contained.nil level).toSealed.behind each (List.cons_ne_nil c text)
      rwa [List.append_nil] at own

theorem contained_comma : Contained 1 [','] where
  braces := .cons (by decide) (by decide) .nil
  parentheses := .cons (by decide) (by decide) .nil
  uncut depth within piece rest := by
    have inside : ¬depth = 0 := by omega
    simp [splitItemsFrom, inside]
  silent := .cons rfl ⟨by decide, by decide⟩
  fresh := rfl

/-- In brackets of its own, a text need not take care of its commas and its start. -/
theorem Sealed.group (brackets : (opening, closing) ∈ [('\x7b', '\x7d'), ('(', ')')])
    (whole : Sealed 1 inner) : Contained 0 (opening :: (inner ++ [closing])) := by
  have uncut := whole.uncut.group brackets
  simp only [List.mem_cons, Prod.mk.injEq, List.not_mem_nil, or_false] at brackets
  obtain ⟨rfl, rfl⟩ | ⟨rfl, rfl⟩ := brackets
  · have closes : Closed '(' ')' ['\x7d'] := .cons (by decide) (by decide) .nil
    have sign : Silent ['\x7d'] := .cons rfl ⟨by decide, by decide⟩
    exact {
      braces := whole.braces.group (by decide)
      parentheses := (whole.parentheses.append closes).cons (by decide) (by decide)
      uncut
      silent := (whole.silent.append sign rfl).cons rfl
      fresh := rfl }
  · have closes : Closed '\x7b' '\x7d' [')'] := .cons (by decide) (by decide) .nil
    have sign : Silent [')'] := .cons rfl ⟨by decide, by decide⟩
    exact {
      braces := (whole.braces.append closes).cons (by decide) (by decide)
      parentheses := whole.parentheses.group (by decide)
      uncut
      silent := (whole.silent.append sign rfl).cons rfl
      fresh := rfl }

end BerRecords.Module
