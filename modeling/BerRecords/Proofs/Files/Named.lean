import BerRecords.Proofs.Files.Places

/-!
# Files in a named directory

A file name that is put behind the path of a directory leads into the place of this directory, which
is the same for every name.
-/

set_option autoImplicit false

namespace BerRecords

namespace Text

variable {separator : Char}

theorem pieces_append (separator : Char) (front back : List Char) :
    pieces separator (front ++ separator :: back) =
      pieces separator front ++ pieces separator back := by
  induction front with
  | nil => simp [pieces]
  | cons c front ih =>
      rw [List.cons_append, pieces, pieces, ih]
      split
      · rfl
      · cases cut : pieces separator front with
        | nil => exact absurd cut (pieces_ne_nil separator front)
        | cons piece more => rfl

theorem pieces_of_not_mem {piece : List Char} (within : separator ∉ piece) :
    pieces separator piece = [piece] := by
  induction piece with
  | nil => rfl
  | cons c piece ih =>
      rw [List.mem_cons, not_or] at within
      rw [pieces, if_neg (Ne.symm within.1), ih within.2]

end Text

namespace Path

/-- The file name of a path has no slash in it. -/
theorem not_mem_of_fileName? {path name : String} (named : fileName? path = some name) :
    '/' ∉ name.toList := by
  rw [fileName?] at named
  split at named
  · rename_i text last
    cases named
    have member := List.mem_of_getLast? last
    rw [steps, List.mem_append, List.mem_filterMap] at member
    rcases member with first | ⟨piece, found, read⟩
    · unfold start at first
      split at first <;> simp at first
    · rw [Step.ofPiece?] at read
      split at read
      · cases read
      split at read
      · cases read
      · cases read
        rw [String.toList_ofList]
        exact Text.not_mem_of_mem_pieces found
  · cases named

/-- A name that may stand between slashes and stands for itself. -/
structure Plain (name : String) : Prop where
  filled : name.toList ≠ []
  solid : '/' ∉ name.toList
  dot : name.toList ≠ ['.']
  dots : name.toList ≠ ['.', '.']

end Path

namespace Files

variable {look : Place → Option Entry} {here place : Place} {directory name : String}

def base (look : Place → Option Entry) (here : Place) (directory : String) :
    Except FileError Place :=
  let pieces := Text.pieces '/' directory.toList
  walk look (if directory.isEmpty = false ∧ pieces.head? = some [] then [] else here)
    (pieces.filter (· ≠ []))

theorem toList_inside (directory name : String) :
    directory = "" ∧ (Path.inside directory name).toList = name.toList ∨
      directory ≠ "" ∧ ∃ front, (Path.inside directory name).toList = front ++ '/' :: name.toList ∧
        (directory.toList = front ∨ directory.toList = front ++ ['/']) := by
  rw [Path.inside]
  by_cases empty : directory = ""
  · subst empty
    exact .inl ⟨rfl, by simp⟩
  refine .inr ⟨empty, ?_⟩
  by_cases slash : directory.toList.getLast? = some '/'
  · obtain ⟨front, spelled⟩ := List.getLast?_eq_some_iff.1 slash
    refine ⟨front, ?_, .inr spelled⟩
    simp [spelled]
  · refine ⟨directory.toList, ?_, .inl rfl⟩
    simp [slash, String.isEmpty_iff, empty]

/-- The pieces of a path to a name in a directory are those to the directory and the name. -/
theorem pieces_inside (directory : String) {name : String} (plain : Path.Plain name) :
    ((Text.pieces '/' (Path.inside directory name).toList).head? = some [] ↔
        directory.isEmpty = false ∧ (Text.pieces '/' directory.toList).head? = some []) ∧
      (Text.pieces '/' (Path.inside directory name).toList).filter (· ≠ []) =
        (Text.pieces '/' directory.toList).filter (· ≠ []) ++ [name.toList] := by
  have named : Text.pieces '/' name.toList = [name.toList] := Text.pieces_of_not_mem plain.solid
  have kept : [name.toList].filter (· ≠ []) = [name.toList] := by simp [plain.filled]
  rcases toList_inside directory name with ⟨rfl, spelled⟩ | ⟨filled, front, spelled, ended⟩
  · rw [spelled, named, kept]
    refine ⟨?_, rfl⟩
    simp [plain.filled]
  · obtain ⟨first, more, cut⟩ := List.exists_cons_of_ne_nil (Text.pieces_ne_nil '/' front)
    rw [spelled, Text.pieces_append, named, List.filter_append, kept]
    rcases ended with same | same
    · rw [same, cut]
      simp [filled]
    · rw [same, Text.pieces_append, List.filter_append, cut]
      simp [filled, Text.pieces]

theorem walk_append (names others : List (List Char)) (start : Place) :
    walk look start (names ++ others) =
      (walk look start names >>= fun next => walk look next others) := by
  induction names generalizing start with
  | nil => rfl
  | cons name rest ih =>
      rw [List.cons_append, walk, walk]
      split
      · rfl
      · cases stepFrom start name with
        | error error => rfl
        | ok next => exact ih next
      · rfl

theorem walk_of_plain (plain : Path.Plain name) {start : Place}
    (went : walk look start [name.toList] = .ok place) :
    Opens look start ∧ place = start ++ [name] := by
  have opens := opens_of_walk went
  refine ⟨opens, ?_⟩
  rw [walk_cons opens, stepFrom, if_neg plain.dot, if_neg plain.dots, String.ofList_toList] at went
  split at went
  · cases went
  · exact (Except.ok.inj went).symm

/-- A file name in a directory leads into the place of the directory. -/
theorem base_of_leads (plain : Path.Plain name)
    (led : leads look here (Path.inside directory name) = .ok place) :
    ∃ parent, base look here directory = .ok parent ∧ Opens look parent ∧
      place = parent ++ [name] := by
  obtain ⟨start, names⟩ := pieces_inside directory plain
  rw [leads] at led
  split at led
  · cases led
  split at led
  · cases led
  split at led
  · cases led
  simp only [start, names, walk_append] at led
  change (base look here directory >>= fun next => walk look next [name.toList]) = _ at led
  cases based : base look here directory with
  | error error =>
      rw [based] at led
      cases led
  | ok parent =>
      rw [based] at led
      exact ⟨parent, rfl, walk_of_plain plain led⟩

end Files

end BerRecords
