import BerRecords.Records
import BerRecords.Toml.Reader

/-!
# Configuration files

What a configuration file may set. Every key is optional and unknown keys are passed
over, but a known key must hold a value of its kind.
-/

set_option autoImplicit false

namespace BerRecords

inductive LineFormat where
  | fields
  | tree
  deriving DecidableEq, Repr

namespace LineFormat

def text : LineFormat → String
  | fields => "fields"
  | tree => "tree"

def ofText? (word : String) : Option LineFormat :=
  [fields, tree].find? (·.text = word)

end LineFormat

structure Config where
  schema : Option String
  rootTypes : List String
  outputDir : Option String
  extensions : Option (List String)
  format : Option LineFormat
  multiOctet : Bool
  decode : DecodeOptions
  deriving DecidableEq, Repr

namespace Config

def empty : Config :=
  ⟨none, [], none, none, none, false, .default⟩

def readText : Toml → Option String
  | .string text => some text
  | _ => none

def readTexts : Toml → Option (List String)
  | .array items => items.mapM readText
  | _ => none

def readFlag : Toml → Option Bool
  | .boolean value => some value
  | _ => none

def readCount : Toml → Option Nat
  | .integer (.ofNat value) => some value
  | _ => none

/-- A word out of a few, or a table that has nothing but an empty entry of that name. -/
def readWord {α : Type} (ofText? : String → Option α) : Toml → Option α
  | .string text => ofText? text
  | .table [(text, .table [])] | .table [(text, .array [])] => ofText? text
  | _ => none

/-- What a key holds: `absent` where it is not set, and nothing where its value is not of
its kind. -/
def entry {α : Type} (key : String) (read : Toml → Option α) (absent : α)
    (entries : List (String × Toml)) : Option α :=
  match Toml.lookup key entries with
  | none => some absent
  | some value => read value

def decodeKeys : List String :=
  ["error_mode", "enforce_mandatory", "max_depth"]

def readDecodeEntries (entries : List (String × Toml)) : Option DecodeOptions := do
  let unset := DecodeOptions.default
  let mode ← entry "error_mode" (readWord ErrorMode.ofText?) unset.errorMode entries
  let mandatory ← entry "enforce_mandatory" readFlag unset.mandatory entries
  let maxDepth ← entry "max_depth" readCount unset.maxDepth entries
  return ⟨mode, mandatory, maxDepth⟩

/-- The options of decoding, given by key or as a list. A date has no keys that set any. -/
def readDecode : Toml → Option DecodeOptions
  | .table entries => readDecodeEntries entries
  | .array items => readDecodeEntries (decodeKeys.zip items)
  | .date => readDecodeEntries []
  | _ => none

def optional {α : Type} (read : Toml → Option α) (value : Toml) : Option (Option α) :=
  (read value).map some

def ofEntries? (entries : List (String × Toml)) : Option Config := do
  let schema ← entry "schema" (optional readText) none entries
  let rootTypes ← entry "root_types" readTexts [] entries
  let outputDir ← entry "output_dir" (optional readText) none entries
  let extensions ← entry "ext" (optional readTexts) none entries
  let format ← entry "format" (optional (readWord LineFormat.ofText?)) none entries
  let multiOctet ← entry "multi_octet_tags" readFlag false entries
  let decode ← entry "decode" readDecode .default entries
  return ⟨schema, rootTypes, outputDir, extensions, format, multiOctet, decode⟩

def ofText? (text : String) : Option Config :=
  (Toml.ofText? text).bind ofEntries?

end Config

end BerRecords
