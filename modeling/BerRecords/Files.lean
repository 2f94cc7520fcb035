import BerRecords.Files.Entry

/-!
# Files

A tree of directories and files in memory. Paths are followed name by name: each name
but the last must lead to a directory, a dot stays where it is, and two dots lead one
directory up, from the root to the root. There are no links of either kind: every entry
stands at one place, so what is shown of a run over files is shown of file systems
without links.
-/

set_option autoImplicit false

namespace BerRecords

/-- A tree of files, with the directory from which paths start that do not start at the
root. -/
structure Files where
  root : Entry
  here : Place

namespace Files

def ofHere (here : Place) : Files :=
  ⟨.put (.directory []) here (.directory []), here⟩

def get? (place : Place) (files : Files) : Option Entry :=
  files.root.get? place

def put (place : Place) (entry : Entry) (files : Files) : Files :=
  { files with root := .put entry place files.root }

theorem get?_put_self (place : Place) (entry : Entry) (files : Files) :
    (files.put place entry).get? place = some entry :=
  Entry.get?_put_self entry place files.root

/-- Places that part from the one where an entry is put are as they were. -/
theorem get?_put_of_apart {place other : Place} (entry : Entry) (files : Files)
    (after : ¬ place <+: other) (before : ¬ other <+: place) :
    (files.put place entry).get? other = files.get? other :=
  Entry.get?_put_of_apart entry files.root after before

/-- The way from the root: the names so far with what they lead to, the last one first. -/
abbrev Way := List (String × Option Entry)

def Way.place (way : Way) : Place :=
  (way.map (·.1)).reverse

def Way.end? (files : Files) : Way → Option Entry
  | [] => some files.root
  | (_, found) :: _ => found

def Way.add (files : Files) (name : String) (way : Way) : Way :=
  (name, (way.end? files).bind fun entry => Entry.named? name entry.inside) :: way

def longestName : Nat := 255

def follow (files : Files) (way : Way) : List (List Char) → Except FileError Way
  | [] => .ok way
  | name :: rest =>
    match way.end? files with
    | none => .error .notFound
    | some (.directory _) =>
      if name = ['.'] then follow files way rest
      else if name = ['.', '.'] then follow files way.tail rest
      else if longestName < (String.ofList name).utf8ByteSize then .error .nameTooLong
      else follow files (way.add files (String.ofList name)) rest
    | some _ => .error .notDirectory

/-- The way that a path leads, whether or not anything is at its end. -/
def locate (path : String) (files : Files) : Except FileError Way :=
  let pieces := Text.pieces '/' path.toList
  if path.isEmpty then .error .notFound
  else if '\x00' ∈ path.toList then .error .nulInName
  else if Path.tooLong path then .error .nameTooLong
  else
    let start : Way :=
      if pieces.head? = some [] then []
      else files.here.foldl (fun way name => way.add files name) []
    files.follow start (pieces.filter (· ≠ []))

/-- Whether a path ends in a slash, and so can only lead to a directory. -/
def wantsDirectory (path : String) : Bool :=
  path.toList.getLast? = some '/'

def find (path : String) (files : Files) : Except FileError Entry := do
  let way ← files.locate path
  match way.end? files with
  | none => throw .notFound
  | some (.directory inside) => return .directory inside
  | some entry => if wantsDirectory path then throw .notDirectory else return entry

def kind? (path : String) (files : Files) : Option Entry.Kind :=
  match files.find path with
  | .ok entry => entry.kind?
  | .error _ => none

def read (path : String) (files : Files) : Except FileError Octets := do
  match ← files.find path with
  | .file octets => return octets
  | .device => return []
  | .directory _ => throw .isDirectory

/-- Gives content to the file that a path leads to. The file may be new; its directory
may not. -/
def write (path : String) (octets : Octets) (files : Files) : Except FileError Files := do
  let way ← files.locate path
  match way.end? files with
  | some (.directory _) => throw .isDirectory
  | found =>
    if wantsDirectory path then throw .isDirectory
    else
      match found with
      | some .device => return files
      | _ => return files.put way.place (.file octets)

def makeOne (path : String) (files : Files) : Except FileError Files := do
  let way ← files.locate path
  match way.end? files with
  | some _ => throw .found
  | none => return files.put way.place (.directory [])

/-- Makes a directory, unless it is there; `above` makes the one it is to be in. -/
def makeWith (above : Files → Except FileError Files) (path : String) (files : Files) :
    Except FileError Files :=
  let unlessThere (error : FileError) (files : Files) : Except FileError Files :=
    if files.kind? path = some .directory then .ok files else .error error
  match files.makeOne path with
  | .ok made => .ok made
  | .error .notFound => do
    let files ← above files
    match files.makeOne path with
    | .ok made => .ok made
    | .error error => unlessThere error files
  | .error error => unlessThere error files

def makeSteps : List Path.Step → Files → Except FileError Files
  | [] => .ok
  | step :: above => makeWith (makeSteps above) (Path.ofSteps (step :: above).reverse)

def makeDirectory (path : String) : Files → Except FileError Files :=
  if path.isEmpty then .ok
  else makeWith (makeSteps ((Path.steps path).reverse.drop 1)) path

def allBelow (path : String) (files : Files) : Except ListingError (List String) :=
  match files.find path with
  | .ok entry => entry.paths path
  | .error cause => .error ⟨path, cause⟩

end Files

end BerRecords
