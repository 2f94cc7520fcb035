import BerRecords.Files.Error
import BerRecords.Records.Outcomes
import BerRecords.SchemaError
import BerRecords.Settings
import BerRecords.Text.Quoted

/-!
# Notices

What a run tells as it goes on, and why it fails.
-/

set_option autoImplicit false

namespace BerRecords.Run

inductive InputFailure where
  | unopened (input : String) (cause : FileError)
  | nameless (input : String)
  | uncreated (output : String) (cause : FileError)
  | undecoded (error : DecodeError)
  deriving DecidableEq, Repr

def InputFailure.text : InputFailure → String
  | unopened input cause => s!"Failed to open input file {Text.quoted input}: {cause.text}"
  | nameless input => s!"Input path has no filename: {Text.quoted input}"
  | uncreated output cause =>
    s!"Failed to create output file {Text.quoted output}: {cause.text}"
  | undecoded error => error.text

inductive Failure where
  | configUnread (path : String) (cause : FileError)
  | configMalformed (path : String)
  | lacking (lack : Settings.Lack)
  | schemaUnread (path : String) (cause : FileError)
  | schemaRefused (path : String) (error : SchemaError)
  | noDirectory (path : String) (cause : FileError)
  | noInput (path : String)
  | unlisted (error : ListingError)
  | inputsFailed (failed count : Nat)
  deriving DecidableEq, Repr

def Failure.text : Failure → String
  | configUnread path cause =>
    s!"Failed to read config file: {Text.quoted path}: {cause.text}"
  | configMalformed path => s!"Failed to parse config file: {Text.quoted path}"
  | lacking lack => lack.text
  | schemaUnread path cause => s!"Failed to read schema file {Text.quoted path}: {cause.text}"
  | schemaRefused path error => s!"Failed to load schema {Text.quoted path}: {error.text}"
  | noDirectory path cause =>
    s!"Failed to create output directory {Text.quoted path}: {cause.text}"
  | noInput path =>
    "Failed to expand input files/directories: " ++
      s!"Input path is not a file or directory: {Text.quoted path}"
  | unlisted error =>
    "Failed to expand input files/directories: " ++
      s!"IO error for operation on {error.directory}: {error.cause.text}: {error.cause.text}"
  | inputsFailed failed count => s!"{failed} of {count} input files failed"

inductive Level where
  | info
  | warning
  | error
  deriving DecidableEq, Repr

def Level.text : Level → String
  | info => "INFO"
  | warning => "WARN"
  | error => "ERROR"

inductive Notice where
  | readingSchema (path : String)
  | schemaReady (types roots : Nat) (mode : ErrorMode)
  | noInputs
  | inputsFound (count : Nat)
  | dropped (input : String) (element : DroppedRecord)
  | decoded (input : String) (summary : Summary)
  | failed (input : String) (failure : InputFailure)
  | total (summary : Summary) (inputs : Nat)

namespace Notice

def level : Notice → Level
  | noInputs | dropped .. => .warning
  | failed .. => .error
  | _ => .info

def summaryText (summary : Summary) : String :=
  s!"{summary.decoded} decoded, {summary.dropped} dropped, {summary.nulled} nulled, " ++
    s!"{summary.skipped} skipped"

def text : Notice → String
  | readingSchema path => s!"Parsing schema from {Text.quoted path}"
  | schemaReady types roots mode =>
    s!"Schema ready: {types} types, {roots} top-level tag(s), error mode {mode.text}"
  | noInputs => "No input files found."
  | inputsFound count => s!"Found {count} input files"
  | dropped input element =>
    s!"{Text.quoted input}: dropped record {element.index} at offset {element.offset}: " ++
      element.error.text
  | decoded input summary => s!"{Text.quoted input}: {summaryText summary}"
  | failed input failure => s!"Decoding failed for {Text.quoted input}: {failure.text}"
  | total summary inputs => s!"Total: {summaryText summary} across {inputs} files"

def line (notice : Notice) : String :=
  s!"[{notice.level.text}] {notice.text}"

end Notice

end BerRecords.Run
