import BerRecords.Element.Signal
import BerRecords.Field
import BerRecords.Schema

/-!
# Walking a stream with a schema

A walk follows the signals of a reader with a stack of frames, one for each open
element, and looks every tag up in the schema. Primitive values become fields. An
element of any content becomes one field that holds its content as it stood in the
stream. With recovery on, a leaf that does not fit becomes null or is left out, and
the record goes on.
-/

set_option autoImplicit false

namespace BerRecords

/-- How an open element is treated: followed by its definition, passed over with everything inside,
or captured within an element of any content. -/
inductive Walk.Mode where
  | followed
  | ignored
  | captured
  deriving DecidableEq, Repr

/-- An open element, with the components of a record that have appeared, how many elements inside
were selected, and the path around it. -/
structure Walk.Frame where
  definition : Option Definition
  header : Header
  mode : Walk.Mode
  seen : List Bool
  children : Nat
  outerPath : String

/-- The content of an element of any content as far as it has been read, newest piece first, and how
many elements were open when the element had started. -/
structure Walk.Capture where
  depth : Nat
  pieces : List Octets

structure Walk.Rules where
  schema : Schema
  recover : Bool
  mandatory : Bool

structure Walk (σ : Type) where
  frames : List Walk.Frame
  path : String
  capture : Option Walk.Capture
  sink : σ

namespace Walk

variable {σ : Type}

def Capture.octets (capture : Capture) : Octets :=
  capture.pieces.reverse.flatten

def Capture.add (octets : Octets) (capture : Capture) : Capture :=
  { capture with pieces := octets :: capture.pieces }

def start (sink : σ) : Walk σ :=
  ⟨[], "", none, sink⟩

def depth (walk : Walk σ) : Nat :=
  walk.frames.length

def isIdle (walk : Walk σ) : Bool :=
  walk.frames.isEmpty

def reset (walk : Walk σ) : Walk σ :=
  start walk.sink

def extendPath (path name : String) : String :=
  if path.isEmpty then name else path ++ "." ++ name

def innerPath (path name : String) : String :=
  path ++ "." ++ name

def tell (sink : Sink σ) (event : FieldEvent) : Attempt (Walk σ) Unit := fun walk =>
  let (result, state) := (sink.receive event).on walk.sink
  (result, { walk with sink := state })

def report (sink : Sink σ) (issue : Issue) : Attempt (Walk σ) Unit :=
  modify fun walk => { walk with sink := sink.note issue walk.sink }

/-- Opens a frame. An element with a definition that is not captured adds its name to
the path. -/
def push (definition : Option Definition) (header : Header) (mode : Mode) :
    Attempt (Walk σ) Unit :=
  modify fun walk =>
    let path := match definition with
      | some definition =>
        if mode = .captured then walk.path else extendPath walk.path definition.name
      | none => walk.path
    let seen := match definition.bind Definition.components? with
      | some components => if mode = .followed then components.map fun _ => false else []
      | none => []
    { walk with
      frames := ⟨definition, header, mode, seen, 0, walk.path⟩ :: walk.frames
      path := path }

def Frame.count (selection : Definition.Selection) (frame : Frame) : Frame :=
  { frame with
    children := frame.children + 1
    seen := match selection.place with
      | some place => frame.seen.set place true
      | none => frame.seen }

def leaveOut (rules : Rules) (sink : Sink σ) (name : String) (mismatch : Mismatch) :
    Attempt (Walk σ) (Option Definition) := do
  if rules.recover && mismatch.fieldLocal then
    report sink ⟨innerPath mismatch.path name, mismatch.offset, .mismatch mismatch, false⟩
    return none
  else throw (.mismatch mismatch)

def resolveChild (rules : Rules) (sink : Sink σ) (header : Header) (parent : Frame)
    (outer : List Frame) : Attempt (Walk σ) (Option Definition) := do
  let path := (← get).path
  let leaf := !header.constructed
  let some definition := parent.definition | throw (.unbalanced path .noDefinition)
  if definition.constructed? ≠ some true || !parent.header.constructed then
    throw <| .mismatch
      ⟨header.offset, path, .nestedInPrimitive definition.type header.tag, false⟩
  match definition.select header.tag with
  | .error error => throw (.schema error)
  | .ok none =>
    leaveOut rules sink header.tag.text
      ⟨header.offset, path, .unknownComponent definition.name header.tag, leaf⟩
  | .ok (some selection) =>
    if 0 < parent.children && definition.isChoice then
      leaveOut rules sink selection.definition.name
        ⟨header.offset, path, .secondAlternative definition.name header.tag, leaf⟩
    else
      modify fun walk => { walk with frames := parent.count selection :: outer }
      return some selection.definition

/-- The definition of an element that starts; none if it is left out. -/
def resolve (rules : Rules) (sink : Sink σ) (header : Header) :
    Attempt (Walk σ) (Option Definition) := do
  let walk ← get
  match walk.frames with
  | parent :: outer => resolveChild rules sink header parent outer
  | [] =>
    match rules.schema.root? header.tag with
    | some definition => return some definition
    | none => throw <| .mismatch ⟨header.offset, walk.path, .unknownRoot header.tag, false⟩

/-- Starts an element that is primitive where its definition wants the contrary, or the
reverse. Below the top it may become null. -/
def startMisformed (rules : Rules) (sink : Sink σ) (definition : Definition)
    (header : Header) : Attempt (Walk σ) Unit := do
  let fieldLocal := !(← get).isIdle
  push (some definition) header .ignored
  let path := (← get).path
  let mismatch : Mismatch :=
    ⟨header.offset, path, .wrongForm definition.type header.tag, fieldLocal⟩
  if rules.recover && fieldLocal then
    report sink ⟨path, header.offset, .mismatch mismatch, true⟩
    tell sink (.enter definition header)
    tell sink (.field ⟨path, none, definition.type, header.offset⟩)
  else throw (.mismatch mismatch)

def startFollowed (sink : Sink σ) (definition : Definition) (header : Header) :
    Attempt (Walk σ) Unit := do
  push (some definition) header .followed
  tell sink (.enter definition header)
  if definition.isAny && header.constructed then
    modify fun walk => { walk with capture := some ⟨walk.frames.length, []⟩ }

def startElement (rules : Rules) (sink : Sink σ) (header : Header) :
    Attempt (Walk σ) Unit := do
  let walk ← get
  match walk.capture with
  | some capture =>
    set { walk with capture := some (capture.add header.octets) }
    push none header .captured
  | none =>
    if (walk.frames.head?.map (·.mode)) = some .ignored then push none header .ignored
    else
      match ← resolve rules sink header with
      | none => push none header .ignored
      | some definition =>
        if definition.constructed? = some (!header.constructed) then
          startMisformed rules sink definition header
        else startFollowed sink definition header

def takeValue (sink : Sink σ) (octets : Octets) : Attempt (Walk σ) Unit := do
  let walk ← get
  match walk.frames with
  | [] => throw (.unbalanced "" .valueOutside)
  | top :: _ =>
    if top.header.constructed then throw (.unbalanced walk.path .valueInConstructed)
    else
      match top.mode with
      | .captured => set { walk with capture := walk.capture.map (Capture.add octets) }
      | .ignored => return ()
      | .followed =>
        match top.definition with
        | none => throw (.unbalanced walk.path .noDefinition)
        | some definition =>
          tell sink (.field ⟨walk.path, some octets, definition.type, top.header.offset⟩)

/-- Delivers the content of an element of any content, if `frame` is one that ends. -/
def closeCapture (sink : Sink σ) (frame : Frame) : Attempt (Walk σ) Unit := do
  let walk ← get
  match walk.capture with
  | none => return ()
  | some capture =>
    if capture.depth = walk.frames.length + 1 then
      set { walk with capture := none }
      tell sink (.field ⟨walk.path, some capture.octets, .any, frame.header.offset⟩)

def closeChoice (rules : Rules) (sink : Sink σ) (frame : Frame) : Attempt (Walk σ) Unit := do
  match frame.definition with
  | none => return ()
  | some definition =>
    if 0 < frame.children || !definition.isChoice then return ()
    else
      let path := (← get).path
      let error := DecodeError.mismatch
        ⟨frame.header.offset, path, .emptyChoice definition.name frame.header.tag, true⟩
      if rules.recover then report sink ⟨path, frame.header.offset, error, false⟩
      else throw error

def closeComponents (rules : Rules) (sink : Sink σ) (parent : String) (offset : Nat) :
    List (Definition × Bool) → Attempt (Walk σ) Unit
  | [] => return ()
  | (component, seen) :: rest => do
    if seen || component.isOptional then closeComponents rules sink parent offset rest
    else
      let path := innerPath (← get).path component.name
      let error := DecodeError.mismatch
        ⟨offset, path, .missingComponent parent component.name, true⟩
      if rules.recover then
        report sink ⟨path, offset, error, true⟩
        tell sink (.missing component path offset)
        closeComponents rules sink parent offset rest
      else throw error

def closeRecord (rules : Rules) (sink : Sink σ) (frame : Frame) : Attempt (Walk σ) Unit := do
  match frame.definition with
  | some definition@(.record _ _ components) =>
    closeComponents rules sink definition.name frame.header.offset (components.zip frame.seen)
  | _ => return ()

def stopFollowed (rules : Rules) (sink : Sink σ) (frame : Frame) : Attempt (Walk σ) Unit := do
  closeCapture sink frame
  closeChoice rules sink frame
  if rules.mandatory then closeRecord rules sink frame
  tell sink .leave

def stopElement (rules : Rules) (sink : Sink σ) (tag : Tag) : Attempt (Walk σ) Unit := do
  let walk ← get
  match walk.frames with
  | [] => throw (.unbalanced "" (.closeOutside tag))
  | frame :: outer =>
    if frame.header.tag ≠ tag then throw (.unbalanced walk.path (.wrongClose tag))
    else
      set { walk with frames := outer }
      match frame.mode with
      | .captured => pure ()
      | .ignored => if frame.definition.isSome then tell sink .leave
      | .followed => stopFollowed rules sink frame
      modify fun walk => { walk with path := frame.outerPath }

def visitor (rules : Rules) (sink : Sink σ) : Visitor (Walk σ)
  | .start header => startElement rules sink header
  | .value octets => takeValue sink octets
  | .stop tag => stopElement rules sink tag

end Walk

end BerRecords
