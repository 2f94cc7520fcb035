import BerRecords.Files.Error
import BerRecords.Octets
import BerRecords.Path

/-!
# Entries

A file, or a directory with all that is in it. A place names an entry inside another by
the names that lead to it. What is put at a place is found there, and places that part
from it are as they were.
-/

set_option autoImplicit false

namespace BerRecords

abbrev Place := List String

/-- What is at a place. The entries of a directory have different names, and a device keeps
nothing. -/
inductive Entry where
  | file (octets : Octets)
  | device
  | directory (inside : List (String × Entry))

namespace Entry

inductive Kind where
  | file
  | directory
  deriving DecidableEq, Repr

def kind? : Entry → Option Kind
  | file _ => some .file
  | device => none
  | directory _ => some .directory

def inside : Entry → List (String × Entry)
  | directory inside => inside
  | _ => []

theorem inside_directory (entries : List (String × Entry)) :
    (directory entries).inside = entries :=
  rfl

def named? (name : String) : List (String × Entry) → Option Entry
  | [] => none
  | (first, entry) :: rest => if first = name then some entry else named? name rest

def putNamed (name : String) (entry : Entry) : List (String × Entry) → List (String × Entry)
  | [] => [(name, entry)]
  | (first, old) :: rest =>
    if first = name then (name, entry) :: rest else (first, old) :: putNamed name entry rest

def get? : Entry → Place → Option Entry
  | entry, [] => some entry
  | entry, name :: place =>
    match named? name entry.inside with
    | some entry => entry.get? place
    | none => none

/-- Puts an entry at a place, over what was there, and directories on the way to it. -/
def put (new : Entry) : Place → Entry → Entry
  | [], _ => new
  | name :: place, old =>
    directory <|
      putNamed name (put new place ((named? name old.inside).getD (directory []))) old.inside

/-- A name has the entry that it was given, and the others have theirs. -/
theorem named?_putNamed (name other : String) (entry : Entry)
    (entries : List (String × Entry)) :
    named? other (putNamed name entry entries) =
      if other = name then some entry else named? other entries := by
  induction entries with
  | nil =>
    by_cases same : other = name
    · simp [putNamed, named?, same]
    · simp [putNamed, named?, same, Ne.symm same]
  | cons first rest ih =>
    obtain ⟨first, old⟩ := first
    by_cases here : first = name
    · subst here
      by_cases same : other = first
      · simp [putNamed, named?, same]
      · simp [putNamed, named?, same, Ne.symm same]
    · by_cases same : first = other
      · subst same
        simp [putNamed, named?, here]
      · simpa [putNamed, named?, here, same] using ih

theorem get?_put_self (new : Entry) (place : Place) (old : Entry) :
    (put new place old).get? place = some new := by
  induction place generalizing old with
  | nil => rfl
  | cons name place ih => simp only [put, get?, inside_directory, named?_putNamed, if_true, ih]

theorem get?_empty {place : Place} (below : place ≠ []) : (directory []).get? place = none := by
  cases place with
  | nil => exact absurd rfl below
  | cons name place => rfl

/-- Places that part from the one where an entry is put are as they were. -/
theorem get?_put_of_apart (new : Entry) {place other : Place} (old : Entry)
    (after : ¬ place <+: other) (before : ¬ other <+: place) :
    (put new place old).get? other = old.get? other := by
  induction place generalizing other old with
  | nil => exact absurd (List.nil_prefix) after
  | cons name place ih =>
    cases other with
    | nil => exact absurd (List.nil_prefix) before
    | cons first other =>
      by_cases same : first = name
      · subst same
        have after : ¬ place <+: other := fun h => after (List.cons_prefix_cons.mpr ⟨rfl, h⟩)
        have before : ¬ other <+: place := fun h => before (List.cons_prefix_cons.mpr ⟨rfl, h⟩)
        have below : other ≠ [] := fun h => before (h ▸ List.nil_prefix)
        cases found : named? first old.inside with
        | none => simp only [put, get?, inside_directory, named?_putNamed, ih _ after before,
            get?_empty below, found, if_true, Option.getD_none]
        | some entry => simp only [put, get?, inside_directory, named?_putNamed,
            ih _ after before, found, if_true, Option.getD_some]
      · simp only [put, get?, inside_directory, named?_putNamed, if_neg same]

mutual

def files : Entry → List (Place × Octets)
  | file octets => [([], octets)]
  | device => []
  | directory entries => filesAmong entries

def filesAmong : List (String × Entry) → List (Place × Octets)
  | [] => []
  | (name, entry) :: rest =>
    (entry.files.map fun (place, octets) => (name :: place, octets)) ++ filesAmong rest

end

mutual

/-- The paths of the files in an entry that `path` leads to. A directory whose path is too
long cannot be listed. -/
def paths (path : String) : Entry → Except ListingError (List String)
  | file _ => .ok [path]
  | device => .ok []
  | directory entries =>
    if Path.tooLong path then .error ⟨path, .nameTooLong⟩ else pathsAmong path entries

def pathsAmong (path : String) : List (String × Entry) → Except ListingError (List String)
  | [] => .ok []
  | (name, entry) :: rest => do
    let found ← entry.paths (Path.inside path name)
    return found ++ (← pathsAmong path rest)

end

end Entry

end BerRecords
