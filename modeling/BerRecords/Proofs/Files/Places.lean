import BerRecords.Files
import Mathlib.Data.List.Induction

/-!
# Where paths lead

Where a path leads depends only on which places are directories, and what is read there only on what
is at that place. So a file tree can be taken for a map from places to what is at them, and putting
a file into a directory changes this map at one place.
-/

set_option autoImplicit false

namespace BerRecords

namespace Entry

theorem get?_append (entry : Entry) (place below : Place) :
    entry.get? (place ++ below) = (entry.get? place).bind (·.get? below) := by
  induction place generalizing entry with
  | nil => rfl
  | cons name place ih =>
      rw [List.cons_append, get?, get?]
      cases named? name entry.inside with
      | none => rfl
      | some entry => exact ih entry

/-- Only a directory holds others. -/
theorem eq_directory_of_get? {entry found : Entry} {name : String} {place : Place}
    (held : entry.get? (name :: place) = some found) : ∃ inside, entry = .directory inside := by
  cases entry with
  | directory inside => exact ⟨inside, rfl⟩
  | file | device => cases held

def shape : Entry → Entry
  | directory _ => directory []
  | entry => entry

def content? : Entry → Option Octets
  | file octets => some octets
  | device => some []
  | directory _ => none

end Entry

namespace Files

variable {files : Files} {place here : Place} {path : String} {octets : Octets}

/-! ## Ways and places -/

/-- What is at a place, without what is in it. -/
def look (files : Files) (place : Place) : Option Entry :=
  (files.get? place).map Entry.shape

def Opens (look : Place → Option Entry) (place : Place) : Prop :=
  ∃ inside, look place = some (.directory inside)

def wayTo (files : Files) (place : Place) : Way :=
  place.foldl (fun way name => way.add files name) []

theorem wayTo_append_singleton (place : Place) (name : String) :
    files.wayTo (place ++ [name]) = (files.wayTo place).add files name :=
  List.foldl_append

theorem place_wayTo (files : Files) (place : Place) : (files.wayTo place).place = place := by
  induction place using List.reverseRecOn with
  | nil => rfl
  | append_singleton place name ih =>
      rw [wayTo_append_singleton, Way.add, Way.place, List.map_cons, List.reverse_cons]
      exact congrArg (· ++ [name]) ih

theorem end?_wayTo (files : Files) (place : Place) :
    (files.wayTo place).end? files = files.get? place := by
  induction place using List.reverseRecOn with
  | nil => rfl
  | append_singleton place name ih =>
      rw [wayTo_append_singleton, Way.add, Way.end?, ih, get?, get?, Entry.get?_append]
      cases files.root.get? place with
      | none => rfl
      | some entry =>
          rw [Option.bind_some, Option.bind_some, Entry.get?]
          cases Entry.named? name entry.inside with
          | none => rfl
          | some entry => rfl

theorem tail_wayTo (files : Files) (place : Place) :
    (files.wayTo place).tail = files.wayTo place.dropLast := by
  cases place using List.reverseRecOn with
  | nil => rfl
  | append_singleton place name =>
      rw [wayTo_append_singleton, List.dropLast_concat]
      rfl

def stepFrom (place : Place) (name : List Char) : Except FileError Place :=
  if name = ['.'] then .ok place
  else if name = ['.', '.'] then .ok place.dropLast
  else if longestName < (String.ofList name).utf8ByteSize then .error .nameTooLong
  else .ok (place ++ [String.ofList name])

def walk (look : Place → Option Entry) (place : Place) : List (List Char) → Except FileError Place
  | [] => .ok place
  | name :: rest =>
    match look place with
    | none => .error .notFound
    | some (.directory _) => do walk look (← stepFrom place name) rest
    | some _ => .error .notDirectory

theorem follow_wayTo (names : List (List Char)) (place : Place) :
    files.follow (files.wayTo place) names =
      (walk files.look place names).map files.wayTo := by
  induction names generalizing place with
  | nil => rfl
  | cons name rest ih =>
      rw [follow, walk, end?_wayTo, look, stepFrom]
      rcases files.get? place with _ | content | _ | inside
      · rfl
      · rfl
      · rfl
      · simp only [Option.map_some, Entry.shape, tail_wayTo, ← wayTo_append_singleton, ih]
        split
        · rfl
        split
        · rfl
        split
        · rfl
        · rfl

/-- The place that a path leads to, whether or not anything is there. -/
def leads (look : Place → Option Entry) (here : Place) (path : String) :
    Except FileError Place :=
  let pieces := Text.pieces '/' path.toList
  if path.isEmpty then .error .notFound
  else if '\x00' ∈ path.toList then .error .nulInName
  else if Path.tooLong path then .error .nameTooLong
  else walk look (if pieces.head? = some [] then [] else here) (pieces.filter (· ≠ []))

theorem locate_eq (path : String) (files : Files) :
    files.locate path = (leads files.look files.here path).map files.wayTo := by
  rw [locate, leads]
  dsimp only
  split
  · rfl
  split
  · rfl
  split
  · rfl
  split
  · exact follow_wayTo _ []
  · exact follow_wayTo _ files.here

/-! ## Reading and writing -/

theorem read_eq_ok_iff : files.read path = .ok octets ↔
    ∃ place, leads files.look files.here path = .ok place ∧ wantsDirectory path = false ∧
      (files.look place).bind Entry.content? = some octets := by
  rw [read, find, locate_eq]
  cases leads files.look files.here path with
  | error error => simp [bind, Except.bind, Except.map]
  | ok place =>
      simp only [bind, Except.bind, Except.map, end?_wayTo, Except.ok.injEq, exists_eq_left', look]
      rcases files.get? place with _ | content | _ | inside <;> cases wantsDirectory path <;>
        simp [Entry.shape, Entry.content?, pure, Except.pure, throw, throwThe, MonadExceptOf.throw]

theorem find_of_look {entry : Entry} (led : leads files.look files.here path = .ok place)
    (wanted : wantsDirectory path = false) (here : files.look place = some entry)
    (closed : ∀ inside, entry ≠ .directory inside) : files.find path = .ok entry := by
  rw [look, Option.map_eq_some_iff] at here
  obtain ⟨found, there, rfl⟩ := here
  rw [find, locate_eq, led]
  simp only [bind, Except.bind, Except.map, end?_wayTo, wanted, there]
  cases found with
  | file | device => rfl
  | directory => exact absurd rfl (closed [])

theorem write_eq_ok_iff {after : Files} : files.write path octets = .ok after ↔
    ∃ place, leads files.look files.here path = .ok place ∧ wantsDirectory path = false ∧
      (files.look place = some .device ∧ after = files ∨
        files.look place ≠ some .device ∧ ¬ Opens files.look place ∧
          after = files.put place (.file octets)) := by
  rw [write, locate_eq]
  cases leads files.look files.here path with
  | error error => simp [bind, Except.bind, Except.map]
  | ok place =>
      simp only [bind, Except.bind, Except.map, end?_wayTo, place_wayTo, Except.ok.injEq,
        exists_eq_left', look, Opens]
      rcases files.get? place with _ | content | _ | inside <;> cases wantsDirectory path <;>
        simp [Entry.shape, pure, Except.pure, throw, throwThe, MonadExceptOf.throw, eq_comm]

/-! ## Directories -/

theorem walk_cons {look : Place → Option Entry} (opens : Opens look place) (name : List Char)
    (rest : List (List Char)) :
    walk look place (name :: rest) = (stepFrom place name >>= fun next => walk look next rest) := by
  obtain ⟨inside, here⟩ := opens
  rw [walk, here]

theorem opens_of_walk {look : Place → Option Entry} {name : List Char} {rest : List (List Char)}
    {ended : Place} (went : walk look place (name :: rest) = .ok ended) : Opens look place := by
  rw [walk] at went
  split at went
  · cases went
  · rename_i inside here
    exact ⟨inside, here⟩
  · cases went

theorem walk_of_opens {look other : Place → Option Entry}
    (same : ∀ place, Opens look place → Opens other place) {names : List (List Char)}
    {start ended : Place} (went : walk look start names = .ok ended) :
    walk other start names = .ok ended := by
  induction names generalizing start with
  | nil => exact went
  | cons name rest ih =>
      have opens := opens_of_walk went
      rw [walk_cons opens] at went
      rw [walk_cons (same start opens)]
      cases stepped : stepFrom start name with
      | error error => simp [stepped, bind, Except.bind] at went
      | ok next =>
          rw [stepped] at went
          exact ih went

/-- Where a path leads does not change while the same places are directories. -/
theorem leads_of_opens {look other : Place → Option Entry}
    (same : ∀ place, Opens look place → Opens other place)
    (led : leads look here path = .ok place) : leads other here path = .ok place := by
  rw [leads] at led ⊢
  split at led
  · cases led
  · rename_i given
    rw [if_neg given]
    split at led
    · cases led
    · rename_i spelled
      rw [if_neg spelled]
      split at led
      · cases led
      · rename_i short
        rw [if_neg short]
        exact walk_of_opens same led

theorem look_of_opens (opens : Opens files.look place) :
    files.look place = some (.directory []) := by
  obtain ⟨inside, here⟩ := opens
  rw [look, Option.map_eq_some_iff] at here
  obtain ⟨entry, there, shaped⟩ := here
  rw [look, there]
  cases entry with
  | directory => rfl
  | file | device => cases shaped

theorem opens_of_below {name : String} {below : Place} {entry : Entry}
    (here : files.look (place ++ name :: below) = some entry) : Opens files.look place := by
  rw [look, get?, Entry.get?_append, Option.map_eq_some_iff] at here
  obtain ⟨found, here, -⟩ := here
  rw [Option.bind_eq_some_iff] at here
  obtain ⟨holder, there, held⟩ := here
  obtain ⟨inside, rfl⟩ := Entry.eq_directory_of_get? held
  exact ⟨[], by rw [look, get?, there]; rfl⟩

/-- A file that is put into a directory changes what is at one place. -/
theorem look_put {name : String} (within : Opens files.look place)
    (free : ¬ Opens files.look (place ++ [name])) :
    (files.put (place ++ [name]) (.file octets)).look = fun other =>
      if other = place ++ [name] then some (.file octets) else files.look other := by
  have placed : (files.put (place ++ [name]) (.file octets)).look (place ++ [name]) =
      some (.file octets) := by
    rw [look, get?_put_self]
    rfl
  funext other
  by_cases same : other = place ++ [name]
  · rw [if_pos same, same, placed]
  rw [if_neg same]
  by_cases below : place ++ [name] <+: other
  · obtain ⟨_ | ⟨next, rest⟩, rfl⟩ := below
    · exact absurd (List.append_nil _) same
    have nothing {files : Files} (closed : ¬ Opens files.look (place ++ [name])) :
        files.look (place ++ [name] ++ next :: rest) = none :=
      Option.eq_none_iff_forall_ne_some.2 fun entry here => closed (opens_of_below here)
    rw [nothing free, nothing]
    rw [Opens, placed]
    exact nofun
  by_cases above : other <+: place ++ [name]
  · rcases List.prefix_concat_iff.1 above with here | above
    · exact absurd here same
    have opens {files : Files} (within : Opens files.look place) : Opens files.look other := by
      obtain ⟨_ | ⟨next, rest⟩, rfl⟩ := above
      · rwa [List.append_nil] at within
      · exact opens_of_below (look_of_opens within)
    rw [look_of_opens (opens within), look_of_opens (opens (opens_of_below placed))]
  · exact congrArg (Option.map Entry.shape) (get?_put_of_apart _ files below above)

end Files

end BerRecords
