import BerRecords.CommandLine.Arguments
import BerRecords.Text.Blank
import BerRecords.Text.Pieces

/-!
# Settings

What a run goes by: the command line first, then the configuration file, then what
holds unless something else is said.
-/

set_option autoImplicit false

namespace BerRecords

structure Settings where
  schema : String
  rootTypes : List String
  outputDir : String
  extensions : Option (List String)
  format : LineFormat
  encoding : TagEncoding
  decode : DecodeOptions
  deriving DecidableEq, Repr

namespace Settings

inductive Lack where
  | schema
  | outputDir
  deriving DecidableEq, Repr

def Lack.text : Lack → String
  | schema => "no schema given: pass --schema or set \x60schema\x60 in the config file"
  | outputDir => "no output directory given: pass --output-dir or set \x60output_dir\x60"

/-- An extension without blanks around it and dots before it, in lower case; none where
nothing is left. -/
def readExtension (text : List Char) : Option String :=
  let text := (Text.trim text).dropWhile (· = '.')
  if text.isEmpty then none else some (String.ofList (text.map Char.toLower))

def insertOrdered (text : String) : List String → List String
  | [] => [text]
  | first :: rest =>
    if text < first then text :: first :: rest
    else if text = first then first :: rest
    else first :: insertOrdered text rest

def ordered (texts : List String) : List String :=
  texts.foldr insertOrdered []

def chooseExtensions (line : Option String) (file : Option (List String)) :
    Option (List String) :=
  match line with
  | some text => some (ordered ((Text.pieces ',' text.toList).filterMap readExtension))
  | none => file.map fun texts => ordered (texts.filterMap fun text => readExtension text.toList)

def ofArguments (arguments : CommandLine.Arguments) (file : Config) : Except Lack Settings :=
  match arguments.schema.or file.schema, arguments.outputDir.or file.outputDir with
  | none, _ => .error .schema
  | some _, none => .error .outputDir
  | some schema, some outputDir =>
    .ok {
      schema := schema
      rootTypes := if arguments.rootTypes.isEmpty then file.rootTypes else arguments.rootTypes
      outputDir := outputDir
      extensions := chooseExtensions arguments.extensions file.extensions
      format := (arguments.format.or file.format).getD .fields
      encoding := if arguments.multiOctet || file.multiOctet then .multiOctet else .singleOctet
      decode := {
        errorMode := arguments.errorMode.getD file.decode.errorMode
        mandatory := !arguments.noMandatory && file.decode.mandatory
        maxDepth := arguments.maxDepth.getD file.decode.maxDepth } }

end Settings

end BerRecords
