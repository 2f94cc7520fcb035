import BerRecords.Config

/-!
# Command-line arguments

Options with a value take it attached (`--opt=v`, `-cv`, `-c=v`) or as the next
argument. Flags take none, and short flags can be joined. Two hyphens end the options;
everything else names an input. A value that was given apart is looked at only when
the next option, input or the end is reached, so an unknown option before that point
is the error that is told.
-/

set_option autoImplicit false

namespace BerRecords.CommandLine

inductive UsageError where
  | unknownArgument
  | invalidValue
  | valueValidation
  | missingRequiredArgument
  | argumentConflict
  | tooManyValues
  | displayHelp
  | displayVersion
  deriving DecidableEq, Repr

def UsageError.text : UsageError → String
  | unknownArgument => "UnknownArgument"
  | invalidValue => "InvalidValue"
  | valueValidation => "ValueValidation"
  | missingRequiredArgument => "MissingRequiredArgument"
  | argumentConflict => "ArgumentConflict"
  | tooManyValues => "TooManyValues"
  | displayHelp => "DisplayHelp"
  | displayVersion => "DisplayVersion"

structure Arguments where
  schema : Option String
  rootTypes : List String
  outputDir : Option String
  extensions : Option String
  config : Option String
  errorMode : Option ErrorMode
  format : Option LineFormat
  multiOctet : Bool
  noMandatory : Bool
  maxDepth : Option Nat
  verbose : Nat
  quiet : Bool
  inputs : List String
  deriving DecidableEq, Repr

def Arguments.empty : Arguments :=
  ⟨none, [], none, none, none, none, none, false, false, none, 0, false, []⟩

inductive Valued where
  | schema
  | rootType
  | outputDir
  | ext
  | config
  | errorMode
  | format
  | maxDepth
  deriving DecidableEq, Repr

inductive Flag where
  | multiOctetTags
  | noMandatoryCheck
  | verbose
  | quiet
  | help
  | version
  deriving DecidableEq, Repr

inductive Switch where
  | valued (option : Valued)
  | flag (flag : Flag)
  deriving DecidableEq, Repr

def longSwitches : List (String × Switch) :=
  [("schema", .valued .schema), ("root-type", .valued .rootType),
    ("output-dir", .valued .outputDir), ("ext", .valued .ext), ("config", .valued .config),
    ("error-mode", .valued .errorMode), ("format", .valued .format),
    ("max-depth", .valued .maxDepth), ("multi-octet-tags", .flag .multiOctetTags),
    ("no-mandatory-check", .flag .noMandatoryCheck), ("verbose", .flag .verbose),
    ("quiet", .flag .quiet), ("help", .flag .help), ("version", .flag .version)]

def shortSwitches : List (Char × Switch) :=
  [('c', .valued .config), ('v', .flag .verbose), ('q', .flag .quiet), ('h', .flag .help),
    ('V', .flag .version)]

def long? (name : List Char) : Option Switch :=
  longSwitches.lookup (String.ofList name)

def short? (name : Char) : Option Switch :=
  shortSwitches.lookup name

def setOnce {α : Type} (old : Option α) (value : Except UsageError α) :
    Except UsageError (Option α) :=
  match old with
  | some _ => .error .argumentConflict
  | none => value.map some

def readPath (text : String) : Except UsageError String :=
  if text.isEmpty then .error .invalidValue else .ok text

def readWord {α : Type} (error : UsageError) (found : Option α) : Except UsageError α :=
  match found with
  | some value => .ok value
  | none => .error error

def number? (digits : List Char) : Option Nat :=
  if digits.isEmpty || !digits.all Char.isDigit then none
  else some <| digits.foldl (fun number c => number * 10 + (c.toNat - '0'.toNat)) 0

/-- A nesting limit: decimal digits, after a plus sign or not, of a 64-bit number. -/
def readLimit (text : String) : Except UsageError Nat :=
  let digits := match text.toList with
    | '+' :: digits => digits
    | digits => digits
  readWord .valueValidation <|
    (number? digits).bind fun number => if number < UInt64.size then some number else none

def Arguments.store (option : Valued) (text : String) (arguments : Arguments) :
    Except UsageError Arguments := do
  match option with
  | .schema => return { arguments with schema := ← setOnce arguments.schema (readPath text) }
  | .rootType => return { arguments with rootTypes := arguments.rootTypes ++ [text] }
  | .outputDir =>
    return { arguments with outputDir := ← setOnce arguments.outputDir (readPath text) }
  | .ext => return { arguments with extensions := ← setOnce arguments.extensions (.ok text) }
  | .config => return { arguments with config := ← setOnce arguments.config (readPath text) }
  | .errorMode =>
    let mode := readWord .valueValidation (ErrorMode.ofWord text).toOption
    return { arguments with errorMode := ← setOnce arguments.errorMode mode }
  | .format =>
    let format := readWord .invalidValue (LineFormat.ofText? text)
    return { arguments with format := ← setOnce arguments.format format }
  | .maxDepth =>
    return { arguments with maxDepth := ← setOnce arguments.maxDepth (readLimit text) }

def maxCount : Nat := 255

def raise (old : Bool) : Except UsageError Bool :=
  if old then .error .argumentConflict else .ok true

def Arguments.flag (flag : Flag) (arguments : Arguments) : Except UsageError Arguments := do
  match flag with
  | .multiOctetTags => return { arguments with multiOctet := ← raise arguments.multiOctet }
  | .noMandatoryCheck => return { arguments with noMandatory := ← raise arguments.noMandatory }
  | .verbose => return { arguments with verbose := min (arguments.verbose + 1) maxCount }
  | .quiet => return { arguments with quiet := ← raise arguments.quiet }
  | .help => throw .displayHelp
  | .version => throw .displayVersion

inductive Pending where
  | nothing
  | wanting (option : Valued)
  | value (option : Valued) (text : String)
  | inputs (texts : List String)

def Pending.resolve (arguments : Arguments) : Pending → Except UsageError Arguments
  | .nothing => .ok arguments
  | .wanting _ => .error .invalidValue
  | .value option text => arguments.store option text
  | .inputs texts => do
    let inputs ← texts.reverse.mapM readPath
    return { arguments with inputs := arguments.inputs ++ inputs }

structure Progress where
  arguments : Arguments
  pending : Pending

namespace Progress

def input (text : String) (progress : Progress) : Except UsageError Progress :=
  match progress.pending with
  | .inputs texts => .ok { progress with pending := .inputs (text :: texts) }
  | pending => do return ⟨← pending.resolve progress.arguments, .inputs [text]⟩

def flag (flag : Flag) (progress : Progress) : Except UsageError Progress := do
  let arguments ← progress.pending.resolve progress.arguments
  return ⟨← arguments.flag flag, .nothing⟩

def valued (option : Valued) (attached : Option (List Char)) (progress : Progress) :
    Except UsageError Progress := do
  let arguments ← progress.pending.resolve progress.arguments
  match attached with
  | some text => return ⟨← arguments.store option (String.ofList text), .nothing⟩
  | none => return ⟨arguments, .wanting option⟩

def long (text : List Char) (progress : Progress) : Except UsageError Progress :=
  let name := text.takeWhile (· ≠ '=')
  let attached := match text.drop name.length with
    | _ :: value => some value
    | [] => none
  match long? name, attached with
  | none, _ => .error .unknownArgument
  | some (.valued option), attached => progress.valued option attached
  | some (.flag _), some _ => .error .tooManyValues
  | some (.flag flag), none => progress.flag flag

def short (progress : Progress) : List Char → Except UsageError Progress
  | [] => .ok progress
  | name :: rest =>
    match short? name with
    | none => .error .unknownArgument
    | some (.flag flag) => do short (← progress.flag flag) rest
    | some (.valued option) =>
      match rest with
      | [] => progress.valued option none
      | '=' :: value => progress.valued option (some value)
      | value => progress.valued option (some value)

def argument (text : String) (progress : Progress) : Except UsageError Progress :=
  match text.toList with
  | '-' :: '-' :: name => progress.long name
  | '-' :: name :: rest => progress.short (name :: rest)
  | _ =>
    match progress.pending with
    | .wanting option => .ok { progress with pending := .value option text }
    | _ => progress.input text

/-- Takes arguments. `ended` tells whether the options have ended. -/
def all (ended : Bool) (progress : Progress) : List String → Except UsageError Progress
  | [] => .ok progress
  | text :: rest =>
    if ended then do all true (← progress.input text) rest
    else if text = "--" then all true progress rest
    else do all false (← progress.argument text) rest

end Progress

/-- What a command line says; at least one input must be named. -/
def Arguments.read (words : List String) : Except UsageError Arguments := do
  let progress ← Progress.all false ⟨.empty, .nothing⟩ words
  let arguments ← progress.pending.resolve progress.arguments
  if arguments.inputs.isEmpty then throw .missingRequiredArgument
  return arguments

end BerRecords.CommandLine
