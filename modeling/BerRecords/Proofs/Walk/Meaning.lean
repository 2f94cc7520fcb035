import BerRecords.Proofs.Wire.Grammar
import BerRecords.Walk

/-!
# What elements mean under a schema

A recursion over trees of elements and definitions, without frames: it tells a sink
what the elements hold. A name list says where an element stands; it is empty at the
top of the stream.
-/

set_option autoImplicit false

namespace BerRecords.Meaning

variable {σ : Type} {encoding : TagEncoding}

/-- Names from the root down, joined by dots. -/
def path (names : List String) : String :=
  ".".intercalate names

section

variable (rules : Walk.Rules) (sink : Sink σ)

def note (issue : Issue) : Attempt σ Unit :=
  modify (sink.note issue)

/-- An element that is primitive where its definition wants the contrary, or the reverse:
below the top it may become one null field. -/
def misformed (names : List String) (definition : Definition) (header : Header) :
    Attempt σ Unit := do
  let below := !names.isEmpty
  let path := path (names ++ [definition.name])
  let mismatch : Mismatch := ⟨header.offset, path, .wrongForm definition.type header.tag, below⟩
  if rules.recover && below then
    note sink ⟨path, header.offset, .mismatch mismatch, true⟩
    sink.receive (.enter definition header)
    sink.receive (.field ⟨path, none, definition.type, header.offset⟩)
    sink.receive .leave
  else throw (.mismatch mismatch)

/-- A child without a place is left out, if it is primitive and recovery allows. -/
def leaveOut (names : List String) (name : String) (header : Header) (cause : Disagreement) :
    Attempt σ (Option Definition.Selection) := do
  let mismatch : Mismatch := ⟨header.offset, path names, cause, !header.constructed⟩
  if rules.recover && !header.constructed then
    note sink ⟨path (names ++ [name]), header.offset, .mismatch mismatch, false⟩
    return none
  else throw (.mismatch mismatch)

def choose (names : List String) (definition : Definition) (selected : List Definition.Selection)
    (header : Header) : Attempt σ (Option Definition.Selection) :=
  match definition.select header.tag with
  | .error error => throw (.schema error)
  | .ok none =>
    leaveOut rules sink names header.tag.text header
      (.unknownComponent definition.name header.tag)
  | .ok (some selection) =>
    if definition.isChoice && !selected.isEmpty then
      leaveOut rules sink names selection.definition.name header
        (.secondAlternative definition.name header.tag)
    else return some selection

def checkChoice (names : List String) (definition : Definition)
    (selected : List Definition.Selection) (header : Header) : Attempt σ Unit :=
  if definition.isChoice && selected.isEmpty then
    let error := DecodeError.mismatch
      ⟨header.offset, path names, .emptyChoice definition.name header.tag, true⟩
    if rules.recover then note sink ⟨path names, header.offset, error, false⟩
    else throw error
  else return ()

/-- The components of a record, counted from `place`, must have been selected unless they
are optional. -/
def checkComponents (names : List String) (parent : String) (offset : Nat)
    (selected : List Definition.Selection) (place : Nat) : List Definition → Attempt σ Unit
  | [] => return ()
  | component :: rest => do
    if selected.any (·.place = some place) || component.isOptional then
      checkComponents names parent offset selected (place + 1) rest
    else
      let path := path (names ++ [component.name])
      let error := DecodeError.mismatch
        ⟨offset, path, .missingComponent parent component.name, true⟩
      if rules.recover then
        note sink ⟨path, offset, error, true⟩
        sink.receive (.missing component path offset)
        checkComponents names parent offset selected (place + 1) rest
      else throw error

def checkSelected (names : List String) (definition : Definition)
    (selected : List Definition.Selection) (header : Header) : Attempt σ Unit := do
  checkChoice rules sink names definition selected header
  if rules.mandatory then
    checkComponents rules sink names definition.name header.offset selected 0
      (definition.components?.getD [])
  else return ()

mutual

def element (names : List String) (definition : Definition) (offset : Nat) :
    Element encoding → Attempt σ Unit
  | .leaf heading value => do
    let header := heading.header offset
    if definition.constructed? = some true then misformed rules sink names definition header
    else
      sink.receive (.enter definition header)
      sink.receive
        (.field ⟨path (names ++ [definition.name]), some value, definition.type, offset⟩)
      sink.receive .leave
  | .branch heading inside => do
    let header := heading.header offset
    if definition.constructed? = some false then misformed rules sink names definition header
    else
      sink.receive (.enter definition header)
      let names := names ++ [definition.name]
      if definition.isAny then
        sink.receive
          (.field ⟨path names, some (Element.octetsAll inside), definition.type, offset⟩)
        sink.receive .leave
      else
        let selected ← children names definition (offset + heading.octets.length) [] inside
        checkSelected rules sink names definition selected header
        sink.receive .leave

/-- What the children of an element mean, and which of them were selected, together with
those selected before. -/
def children (names : List String) (definition : Definition) (offset : Nat)
    (selected : List Definition.Selection) :
    List (Element encoding) → Attempt σ (List Definition.Selection)
  | [] => return selected
  | child :: rest => do
    match ← choose rules sink names definition selected (child.heading.header offset) with
    | none => children names definition (offset + child.octets.length) selected rest
    | some selection =>
      element names selection.definition offset child
      children names definition (offset + child.octets.length) (selected ++ [selection]) rest

end

def elements (offset : Nat) : List (Element encoding) → Attempt σ Unit
  | [] => return ()
  | top :: rest => do
    let header := top.heading.header offset
    match rules.schema.root? header.tag with
    | none => throw <| .mismatch ⟨offset, path [], .unknownRoot header.tag, false⟩
    | some definition =>
      element rules sink [] definition offset top
      elements (offset + top.octets.length) rest

end

end BerRecords.Meaning
