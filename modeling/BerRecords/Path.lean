import BerRecords.Text.Pieces

/-!
# Paths

A path names a file by the steps that lead to it. Slashes that are repeated or stand
at the end do not matter to the steps, nor do dots after the first step; two paths
with the same steps count as one. What a path leads to is not asked here.
-/

set_option autoImplicit false

namespace BerRecords.Path

inductive Step where
  | root
  | here
  | parent
  | name (text : String)
  deriving DecidableEq, Repr

/-- The step of a piece between slashes; none for an empty piece or a dot. -/
def Step.ofPiece? (piece : List Char) : Option Step :=
  if piece = [] ∨ piece = ['.'] then none
  else if piece = ['.', '.'] then some .parent
  else some (.name (String.ofList piece))

def start : List (List Char) → List Step
  | [] :: _ :: _ => [.root]
  | ['.'] :: _ => [.here]
  | _ => []

def steps (path : String) : List Step :=
  let pieces := Text.pieces '/' path.toList
  start pieces ++ pieces.filterMap Step.ofPiece?

def Step.rank : Step → Nat
  | root => 0
  | here => 1
  | parent => 2
  | name _ => 3

def Step.before : Step → Step → Bool
  | name first, name second => first < second
  | first, second => first.rank < second.rank

/-- Whether steps do not come after others: the first that differ decide. -/
def notAfter : List Step → List Step → Bool
  | [], _ => true
  | _ :: _, [] => false
  | first :: firsts, second :: seconds =>
    if first = second then notAfter firsts seconds else first.before second

/-- The paths among those with their steps that differ in steps from the one before;
`before` are the steps of the last one. -/
def dropRepeats (before : List Step) : List (List Step × String) → List String
  | [] => []
  | (steps, path) :: rest =>
    if before = steps then dropRepeats before rest else path :: dropRepeats steps rest

/-- Paths in the order of their steps; of paths with the same steps only the first. -/
def ordered (paths : List String) : List String :=
  let decorated := paths.map fun path => (steps path, path)
  match decorated.mergeSort fun first second => notAfter first.1 second.1 with
  | [] => []
  | (steps, path) :: rest => path :: dropRepeats steps rest

def longest : Nat := 4095

def tooLong (path : String) : Bool :=
  longest < path.utf8ByteSize

def fileName? (path : String) : Option String :=
  match (steps path).getLast? with
  | some (.name text) => some text
  | _ => none

/-- The end of a name after its last dot; none for a name without a dot behind its first
character. -/
def nameExtension? (name : List Char) : Option String :=
  match name.reverse.dropWhile (· ≠ '.') with
  | [] | ['.'] => none
  | _ => some (String.ofList (name.reverse.takeWhile (· ≠ '.')).reverse)

def extension? (path : String) : Option String :=
  (fileName? path).bind fun name => nameExtension? name.toList

def inside (directory name : String) : String :=
  if directory.isEmpty || directory.toList.getLast? = some '/' then directory ++ name
  else directory ++ "/" ++ name

def Step.text : Step → String
  | root => ""
  | here => "."
  | parent => ".."
  | name text => text

def ofSteps : List Step → String
  | [.root] => "/"
  | steps => "/".intercalate (steps.map Step.text)

end BerRecords.Path
