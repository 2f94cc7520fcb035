import BerRecords.Module.Expansion
import BerRecords.Run.Decoding
import BerRecords.Run.Host
import BerRecords.Text.Utf8

/-!
# Runs

A run reads its settings and its schema, finds the files that the inputs name, and
gives each file an output of its own. An input that fails does not keep the others
from being decoded, but the run then fails at its end.
-/

set_option autoImplicit false

namespace BerRecords.Run

variable {m : Type → Type} [Monad m] [Host m]

def orFail {ε φ α : Type} (failure : ε → φ) (result : Except ε α) : ExceptT φ m α :=
  .mk <| pure <| result.mapError failure

def readText (path : String) : m (Except FileError String) := do
  let content ← Host.read path
  return content.bind fun octets =>
    match Utf8.decode octets with
    | .ok characters => .ok (String.ofList characters)
    | .error _ => .error .notText

def readConfig : Option String → ExceptT Failure m Config
  | none => return .empty
  | some path => do
    let text ← orFail (.configUnread path) (← readText path)
    match Config.ofText? text with
    | some config => return config
    | none => throw (.configMalformed path)

def readSchema (settings : Settings) : ExceptT Failure m Schema := do
  let text ← orFail (.schemaUnread settings.schema) (← readText settings.schema)
  orFail (.schemaRefused settings.schema) <|
    Module.schemaOfText text settings.rootTypes settings.encoding

def takes (extensions : Option (List String)) (path : String) : Bool :=
  match extensions with
  | none => true
  | some extensions =>
    match Path.extension? path with
    | none => false
    | some extension => extensions.contains (String.ofList (extension.toList.map Char.toLower))

def findFiles (extensions : Option (List String)) :
    List String → ExceptT Failure m (List String)
  | [] => return []
  | input :: rest => do
    let named ← match ← Host.kind? input with
      | some .file => pure [input]
      | some .directory => orFail .unlisted (← Host.allBelow input)
      | none => throw (.noInput input)
    return named.filter (takes extensions) ++ (← findFiles extensions rest)

def outputPath? (settings : Settings) (input : String) : Option String :=
  (Path.fileName? input).map fun name => Path.inside settings.outputDir (name ++ ".jsonl")

/-- Decodes one input into its output. What was decoded before a failure is kept. -/
def decodeInput (settings : Settings) (schema : Schema) (input : String) :
    ExceptT InputFailure m Summary := do
  let octets ← orFail (.unopened input) (← Host.read input)
  let some output := outputPath? settings input | throw (.nameless input)
  let decoding := Decoding.ofOctets settings schema octets
  orFail (.uncreated output) (← Host.write output decoding.content)
  for element in decoding.dropped do
    Host.tell (.dropped input element)
  orFail .undecoded decoding.ending

structure Tally where
  summary : Summary
  failed : Nat

def decodeInputs (settings : Settings) (schema : Schema) (tally : Tally) :
    List String → m Tally
  | [] => return tally
  | input :: rest => do
    match ← (decodeInput settings schema input).run with
    | .ok summary =>
      Host.tell (.decoded input summary)
      decodeInputs settings schema { tally with summary := tally.summary.add summary } rest
    | .error failure =>
      Host.tell (.failed input failure)
      decodeInputs settings schema { tally with failed := tally.failed + 1 } rest

def decodeAll (settings : Settings) (schema : Schema) (inputs : List String) :
    ExceptT Failure m Unit := do
  orFail (.noDirectory settings.outputDir) (← Host.makeDirectory settings.outputDir)
  let found := Path.ordered (← findFiles settings.extensions inputs)
  if found.isEmpty then
    Host.tell .noInputs
  else
    Host.tell (.inputsFound found.length)
    let tally ← decodeInputs settings schema ⟨.zero, 0⟩ found
    Host.tell (.total tally.summary found.length)
    if tally.failed ≠ 0 then throw (.inputsFailed tally.failed found.length)

def ofArguments (arguments : CommandLine.Arguments) : ExceptT Failure m Unit := do
  let config ← readConfig arguments.config
  let settings ← orFail .lacking (Settings.ofArguments arguments config)
  Host.tell (.readingSchema settings.schema)
  let schema ← readSchema settings
  Host.tell (.schemaReady schema.types.length schema.roots.length settings.decode.errorMode)
  decodeAll settings schema arguments.inputs

def onFiles (arguments : CommandLine.Arguments) (files : Files) :
    Except Failure Unit × Workspace :=
  (ofArguments (m := StateM Workspace) arguments).run.run (.ofFiles files)

end BerRecords.Run
