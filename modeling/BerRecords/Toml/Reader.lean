import BerRecords.Toml.Lexeme
import BerRecords.Toml.Scalar

/-!
# Reading TOML documents

A document sets keys line by line, in the table that the header above names. No key is
set twice, and no table is opened twice: a table that a header opened takes no dotted
keys from elsewhere, and a table made by dotted keys takes no header.
-/

set_option autoImplicit false

namespace BerRecords.Toml

/-- How a table came to be: by a header of its own, by that of a table inside it, or by a dotted
key. -/
inductive Origin where
  | header
  | inner
  | dotted
  deriving DecidableEq

/-- The tables under a repeated header are kept with the last one first. -/
inductive Entry where
  | value (value : Toml)
  | table (origin : Origin) (entries : List (String × Entry))
  | tables (items : List (List (String × Entry)))

abbrev Entries := List (String × Entry)

mutual

def Entry.toToml : Entry → Toml
  | .value value => value
  | .table _ entries => .table (entriesToml entries)
  | .tables items => .array (itemsToml items).reverse

def entriesToml : List (String × Entry) → List (String × Toml)
  | [] => []
  | (key, entry) :: rest => (key, entry.toToml) :: entriesToml rest

def itemsToml : List (List (String × Entry)) → List Toml
  | [] => []
  | entries :: rest => .table (entriesToml entries) :: itemsToml rest

end

def put (key : String) (entry : Entry) : Entries → Entries
  | [] => [(key, entry)]
  | (first, old) :: rest =>
    if first = key then (key, entry) :: rest else (first, old) :: put key entry rest

def held? (key : String) (entries : Entries) : Option Entry :=
  (entries.find? (·.1 = key)).map (·.2)

/-- Changes the table that a path of headers leads to. Tables on the way are made where
they are missing, and of repeated tables the last is taken. -/
def changeAt (change : Entries → Option Entries) : List String → Entries → Option Entries
  | [], entries => change entries
  | key :: path, entries =>
    match held? key entries with
    | none => do
      let inside ← changeAt change path []
      return put key (.table .inner inside) entries
    | some (.table origin inside) => do
      let inside ← changeAt change path inside
      return put key (.table origin inside) entries
    | some (.tables (newest :: others)) => do
      let inside ← changeAt change path newest
      return put key (.tables (inside :: others)) entries
    | some (.tables []) | some (.value _) => none

def openTable (key : String) (entries : Entries) : Option Entries :=
  match held? key entries with
  | none => some (put key (.table .header []) entries)
  | some (.table .inner inside) => some (put key (.table .header inside) entries)
  | _ => none

def openItem (key : String) (entries : Entries) : Option Entries :=
  match held? key entries with
  | none => some (put key (.tables [[]]) entries)
  | some (.tables items) => some (put key (.tables ([] :: items)) entries)
  | _ => none

def setNew (key : String) (value : Toml) (entries : Entries) : Option Entries :=
  match held? key entries with
  | none => some (put key (.value value) entries)
  | some _ => none

/-- Sets a dotted key. `made` tells whether the table at hand was made by dotted keys. -/
def setDotted (value : Toml) (last : String) (made : Bool) :
    List String → Entries → Option Entries
  | [], entries => if made then setNew last value entries else none
  | key :: path, entries =>
    match held? key entries with
    | none => do
      let inside ← setDotted value last true path []
      return put key (.table .dotted inside) entries
    | some (.table .header _) => none
    | some (.table origin inside) => do
      let inside ← setDotted value last (origin = .dotted) path inside
      return put key (.table origin inside) entries
    | some (.tables (newest :: others)) => do
      let inside ← setDotted value last false path newest
      return put key (.tables (inside :: others)) entries
    | some (.tables []) | some (.value _) => none

def set (path : List String) (last : String) (value : Toml) (entries : Entries) :
    Option Entries :=
  if path.isEmpty then setNew last value entries else setDotted value last false path entries

abbrev ValueReader := List Char → Option (Toml × List Char)

def plainValue? (room : Nat) : ValueReader
  | '"' :: rest => (string? room ('"' :: rest)).map fun (value, rest) => (.string value, rest)
  | '\'' :: rest => (string? room ('\'' :: rest)).map fun (value, rest) => (.string value, rest)
  | text => scalar? text

/-- The rest of an array. `done` holds its items so far, reversed. -/
def items? (item? : ValueReader) (done : List Toml) : Nat → ValueReader
  | 0, _ => none
  | room + 1, text =>
    match skipLines (room + 1) text with
    | ']' :: rest => some (.array done.reverse, rest)
    | text => do
      let (value, rest) ← item? text
      match skipLines (room + 1) rest with
      | ',' :: rest => items? item? (value :: done) room rest
      | ']' :: rest => some (.array (value :: done).reverse, rest)
      | _ => none

def pairs? (item? : ValueReader) (entries : Entries) : Nat → ValueReader
  | 0, _ => none
  | room + 1, text => do
    let ((path, last), rest) ← key? (room + 1) text
    match rest with
    | '=' :: rest => do
      let (value, rest) ← item? (skipBlanks rest)
      let entries ← set path last value entries
      match skipBlanks rest with
      | ',' :: rest => pairs? item? entries room rest
      | '\x7d' :: rest => some (.table (entriesToml entries), rest)
      | _ => none
    | _ => none

/-- The value at the start of a text, and what follows it. The last argument tells how many
arrays and tables may start inside one another, and `room` is more than the text's length. -/
def value? (room : Nat) : Nat → ValueReader
  | 0, text => plainValue? room text
  | depth + 1, text =>
    match text with
    | '[' :: rest => items? (value? room depth) [] room rest
    | '\x7b' :: rest =>
      match skipBlanks rest with
      | '\x7d' :: rest => some (.table [], rest)
      | rest => pairs? (value? room depth) [] room rest
    | text => plainValue? room text

def keyLine? (room : Nat) (header : List String) (entries : Entries) (text : List Char) :
    Option (Entries × List Char) := do
  let ((path, last), rest) ← key? room text
  match rest with
  | '=' :: rest => do
    let (value, rest) ← value? room deepest (skipBlanks rest)
    let entries ← changeAt (set path last value) header entries
    return (entries, rest)
  | _ => none

/-- The header in brackets at the start of a text: whether it repeats, its path, its last
part and what follows. `room` is more than the text's length. -/
def header? (room : Nat) (text : List Char) :
    Option (Bool × (List String × String) × List Char) :=
  match text with
  | '[' :: '[' :: rest => do
    let (key, rest) ← key? room rest
    let rest ← lead? [']', ']'] rest
    return (true, key, rest)
  | '[' :: rest => do
    let (key, rest) ← key? room rest
    let rest ← lead? [']'] rest
    return (false, key, rest)
  | _ => none

/-- Reads the lines of a document. `header` leads to the table at hand, and `room` is more
than the text's length. -/
def lines? (header : List String) (entries : Entries) : Nat → List Char → Option Entries
  | 0, _ => none
  | room + 1, text =>
    match skipLines (room + 1) text with
    | [] => some entries
    | '[' :: rest => do
      let (repeats, (path, last), rest) ← header? (room + 1) ('[' :: rest)
      let rest ← lineEnd? rest
      let entries ← changeAt (if repeats then openItem last else openTable last) path entries
      lines? (path ++ [last]) entries room rest
    | text => do
      let (entries, rest) ← keyLine? (room + 1) header entries text
      lines? header entries room (← lineEnd? rest)

def skipByteOrderMark : List Char → List Char
  | '\ufeff' :: rest => rest
  | text => text

def ofText? (text : String) : Option (List (String × Toml)) :=
  (lines? [] [] (text.length + 1) (skipByteOrderMark text.toList)).map entriesToml

end BerRecords.Toml
