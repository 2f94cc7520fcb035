import BerRecords.Element.Node
import BerRecords.Walk

/-!
# Records

Each top-level element of a stream becomes a record, or is dropped, or ends the
run: that is the error mode's choice. A dropped element leaves nothing behind, and
decoding resumes at its end.
-/

set_option autoImplicit false

namespace BerRecords

/-- What happens when a top-level element cannot be decoded. Where fields are skipped, leaves that
do not fit become null, and any other element is dropped. -/
inductive ErrorMode where
  | failFast
  | skipRecord
  | skipField
  deriving DecidableEq, Repr, Inhabited

namespace ErrorMode

def text : ErrorMode → String
  | failFast => "fail-fast"
  | skipRecord => "skip-record"
  | skipField => "skip-field"

def ofText? (word : String) : Option ErrorMode :=
  [failFast, skipRecord, skipField].find? (·.text = word)

/-- The mode of a name in any ASCII case, or the lower-case word that names none. -/
def ofWord (word : String) : Except String ErrorMode :=
  let word := String.ofList (word.toList.map Char.toLower)
  match ofText? word with
  | some mode => .ok mode
  | none => .error word

def unknownText (word : String) : String :=
  s!"unknown error mode '{word}' (expected fail-fast, skip-record or skip-field)"

end ErrorMode

structure DecodeOptions where
  errorMode : ErrorMode
  mandatory : Bool
  maxDepth : Nat
  deriving DecidableEq, Repr

def DecodeOptions.default : DecodeOptions :=
  ⟨.failFast, true, Reader.defaultMaxDepth⟩

/-- A sink that makes a value of the events of each top-level element: `finish` is asked when one has
ended, `discard` after a failure. -/
structure Assembler (σ β : Type) where
  sink : Sink σ
  finish : σ → Option β × σ
  discard : σ → σ

namespace Assembler

def fields : Assembler Collected (List Field) where
  sink := Collected.sink
  finish collected := (some collected.fields.toList, .empty)
  discard _ := .empty

def placeNode : FieldEvent → Attempt TreeBuilder Unit
  | .enter definition header =>
    TreeBuilder.openNode <| .ofLabel (definition.constructed? = some true && header.constructed)
      ⟨header.tag, definition.name, definition.type, header.offset, header.length⟩
  | .field field => TreeBuilder.setValue field.value
  | .leave => TreeBuilder.closeNode
  | .missing definition _ offset =>
    TreeBuilder.attach <| .leaf ⟨none, definition.name, definition.type, offset, 0⟩ none

def trees : Assembler TreeBuilder Node where
  sink := { receive := placeNode, note := fun _ builder => builder }
  finish builder := builder.takeRoot
  discard builder := builder.abandon.takeRoots.2

end Assembler

structure Recording (σ : Type) where
  inner : σ
  issues : Array Issue

def Recording.sink {σ : Type} (sink : Sink σ) : Sink (Recording σ) where
  receive event := fun recording =>
    let (result, inner) := (sink.receive event).on recording.inner
    (result, { recording with inner := inner })
  note issue recording :=
    { inner := sink.note issue recording.inner, issues := recording.issues.push issue }

inductive Outcome (β : Type) where
  | decoded (index offset : Nat) (content : β) (issues : List Issue)
  | dropped (index offset : Nat) (error : DecodeError)
  | failed (error : DecodeError)

structure Records (σ : Type) where
  reader : Reader
  walk : Walk (Recording σ)
  index : Nat
  done : Bool

namespace Records

variable {σ β : Type}

def rules (schema : Schema) (options : DecodeOptions) : Walk.Rules :=
  ⟨schema, options.errorMode = .skipField, options.mandatory⟩

def ofSource (schema : Schema) (options : DecodeOptions) (state : σ) (source : Source) :
    Records σ where
  reader := .ofSource schema.encoding options.maxDepth source
  walk := .start ⟨state, #[]⟩
  index := 0
  done := false

/-- Gives up on an element: nothing of it is kept, and unless the run ends decoding
resumes after it, if its end can be found. -/
def giveUp (assembler : Assembler σ β) (options : DecodeOptions) (index offset : Nat)
    (error : DecodeError) (records : Records σ) : Outcome β × Records σ :=
  let error := error.withPath records.walk.path
  let recording : Recording σ := ⟨assembler.discard records.walk.sink.inner, #[]⟩
  let records := { records with walk := .start recording }
  if error.isFatal || options.errorMode = .failFast then
    (.failed error, { records with done := true })
  else
    match Reader.skipCurrent.on records.reader with
    | (.ok true, reader) => (.dropped index offset error, { records with reader := reader })
    | (_, reader) => (.dropped index offset error, { records with reader := reader, done := true })

/-- The next outcome; none once the stream or the run has ended. -/
def next (schema : Schema) (assembler : Assembler σ β) (options : DecodeOptions)
    (records : Records σ) : Option (Outcome β) × Records σ :=
  if records.done then (none, records)
  else
    let index := records.index
    let offset := records.reader.offset
    let visitor := Walk.visitor (rules schema options) (Recording.sink assembler.sink)
    match (Reader.nextElement visitor).on (records.reader, records.walk) with
    | (.ok none, reader, walk) => (none, ⟨reader, walk, index, true⟩)
    | (.error error, reader, walk) =>
      let (outcome, records) :=
        giveUp assembler options index offset error ⟨reader, walk, index + 1, false⟩
      (some outcome, records)
    | (.ok (some header), reader, walk) =>
      let issues := walk.sink.issues
      match assembler.finish walk.sink.inner with
      | (some content, inner) =>
        (some (.decoded index header.offset content issues.toList),
          ⟨reader, { walk with sink := ⟨inner, #[]⟩ }, index + 1, false⟩)
      | (none, inner) =>
        let (outcome, records) :=
          giveUp assembler options index offset (.unbalanced "" .noRecord)
            ⟨reader, { walk with sink := ⟨inner, #[]⟩ }, index + 1, false⟩
        (some outcome, records)

end Records

end BerRecords
