import BerRecords.Module.Comment
import BerRecords.Module.TypeReader

/-!
# Assignments

A module is a series of assignments, each starting a line with a name and the
assignment sign. The text up to the next assignment holds a tag and a type, and what
follows the type is passed over. Of two assignments to one name the later one holds.
-/

set_option autoImplicit false

namespace BerRecords.Module

def assignment? (line : List Char) : Option (List Char × List Char) :=
  let isIndent := fun c : Char => c = ' ' || c = '\t'
  let isNamePart := fun c => Text.isWordChar c || c = '-'
  let rest := line.dropWhile isIndent
  let name := rest.takeWhile isNamePart
  if name.isEmpty then none
  else
    match strip? [':', ':', '='] ((rest.dropWhile isNamePart).dropWhile isIndent) with
    | some rest => some (name, rest)
    | none => none

def lines (line : List Char) : List Char → List (List Char)
  | [] => [line.reverse]
  | c :: text => if c = '\n' then line.reverse :: lines [] text else lines (c :: line) text

/-- The assignments of a text given by lines, each with its name and all the text up to
the next one, and the text before the first. -/
def assignments : List (List Char) → List Char × List (List Char × List Char)
  | [] => ([], [])
  | line :: rest =>
    let (text, found) := assignments rest
    let text := if rest.isEmpty then [] else '\n' :: text
    match assignment? line with
    | some (name, start) => ([], (name, start ++ text) :: found)
    | none => (line ++ text, found)

/-- The declaration that an assignment makes; none where it starts the body of a
module. -/
def readAssignment (name text : List Char) : Except Fault (Option Declaration) :=
  if (keyword? "BEGIN" (Text.trimStart text)).isSome then .ok none
  else
    let name := String.ofList name
    let declaration : Except TypeFault Declaration := do
      let (tag, rest) ← readTag text
      let (type, _) ← readType rest
      return ⟨name, tag, type⟩
    (declaration.map some).mapError (.assignment name)

def readAssignments (module : Module) :
    List (List Char × List Char) → Except Fault Module
  | [] => .ok module
  | (name, text) :: rest => do
    match ← readAssignment name text with
    | some declaration => readAssignments (module.insert declaration) rest
    | none => readAssignments module rest

def ofText (text : String) : Except Fault Module :=
  let text := withoutComments (withoutDirectives text.toList)
  readAssignments ⟨[]⟩ (assignments (lines [] text)).2

end BerRecords.Module
