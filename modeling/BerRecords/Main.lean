import BerRecords.Run

/-!
# Command line

Runs among the files of the system. Notices go to the error stream, and the exit code
tells whether the run was asked for rightly and whether it succeeded.
-/

set_option autoImplicit false

namespace BerRecords.Shell

def located (path : String) :=
  (IO.FS.DirEntry.mk path "").root

def fileError : IO.Error → FileError
  | .noFileOrDirectory .. => .notFound
  | .alreadyExists .. => .found
  | .inappropriateType _ 20 _ => .notDirectory
  | .inappropriateType _ 21 _ => .isDirectory
  | error => .other (toString error)

def attempt {α : Type} (action : IO α) : IO (Except FileError α) := do
  return (← action.toBaseIO).mapError fileError

def kind : IO.FS.FileType → Option Entry.Kind
  | .file => some .file
  | .dir => some .directory
  | _ => none

def kind? (path : String) : IO (Option Entry.Kind) := do
  match ← (located path).metadata.toBaseIO with
  | .ok found => return kind found.type
  | .error _ => return none

/-- The paths of all files below a directory. Links are passed over. -/
partial def allBelow (path : String) : IO (Except ListingError (List String)) := do
  match ← attempt (located path).readDir with
  | .error cause => return .error ⟨path, cause⟩
  | .ok entries =>
    let found ← entries.toList.mapM fun entry => do
      let path := Path.inside path entry.fileName
      match kind (← (located path).symlinkMetadata).type with
      | some .file => return .ok [path]
      | some .directory => allBelow path
      | none => return .ok []
    return (found.mapM id).map List.flatten

/-- Actions on the system; those of a quiet run tell nothing but errors. -/
abbrev Action := ReaderT Bool IO

instance : Run.Host Action where
  kind? path := kind? path
  read path := attempt do return (← IO.FS.readBinFile path).toList
  allBelow path := allBelow path
  makeDirectory path := attempt do
    unless path.isEmpty do IO.FS.createDirAll path
  write path octets := attempt <| IO.FS.writeBinFile path ⟨octets.toArray⟩
  tell notice := do
    unless (← read) && notice.level ≠ .error do
      IO.eprintln notice.line

def usage : String :=
  "Usage: [--schema FILE] [--root-type TYPE]... [--output-dir DIR] [--ext LIST] " ++
    "[-c FILE] [--error-mode MODE] [--format FORMAT] [--multi-octet-tags] " ++
    "[--no-mandatory-check] [--max-depth N] [-v]... [-q] INPUT..."

def run (words : List String) : IO UInt32 := do
  match CommandLine.Arguments.read words with
  | .error .displayHelp =>
    IO.println usage
    return 0
  | .error .displayVersion =>
    IO.println "0.1.0"
    return 0
  | .error error =>
    IO.eprintln s!"error: {error.text}"
    IO.eprintln usage
    return 2
  | .ok arguments =>
    let action : Action (Except Run.Failure Unit) := (Run.ofArguments arguments).run
    match ← action arguments.quiet with
    | .ok () => return 0
    | .error failure =>
      IO.eprintln s!"Error: {failure.text}"
      return 1

end BerRecords.Shell

def main (words : List String) : IO UInt32 :=
  BerRecords.Shell.run words
