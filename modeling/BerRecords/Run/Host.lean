import BerRecords.Files
import BerRecords.Run.Notice

/-!
# Hosts

A host is where a run takes place: it holds the files and hears the notices. A
workspace is a host in memory.
-/

set_option autoImplicit false

namespace BerRecords.Run

class Host (m : Type → Type) where
  kind? : String → m (Option Entry.Kind)
  read : String → m (Except FileError Octets)
  allBelow : String → m (Except ListingError (List String))
  makeDirectory : String → m (Except FileError Unit)
  write : String → Octets → m (Except FileError Unit)
  tell : Notice → m Unit

/-- A run that may fail takes place where the rest of it does. -/
instance {ε : Type} {m : Type → Type} [Monad m] [Host m] : Host (ExceptT ε m) where
  kind? path := .lift (Host.kind? path)
  read path := .lift (Host.read path)
  allBelow path := .lift (Host.allBelow path)
  makeDirectory path := .lift (Host.makeDirectory path)
  write path octets := .lift (Host.write path octets)
  tell notice := .lift (Host.tell notice)

structure Workspace where
  files : Files
  notices : Array Notice

namespace Workspace

def ofFiles (files : Files) : Workspace :=
  ⟨files, #[]⟩

def change (changed : Files → Except FileError Files) :
    StateM Workspace (Except FileError Unit) := fun workspace =>
  match changed workspace.files with
  | .ok files => (.ok (), { workspace with files := files })
  | .error error => (.error error, workspace)

instance : Host (StateM Workspace) where
  kind? path := return (← get).files.kind? path
  read path := return (← get).files.read path
  allBelow path := return (← get).files.allBelow path
  makeDirectory path := change (Files.makeDirectory path)
  write path octets := change (Files.write path octets)
  tell notice := modify fun workspace =>
    { workspace with notices := workspace.notices.push notice }

end Workspace

end BerRecords.Run
