import BerRecords.Records.Outcomes

/-!
# Displacement

The same things further on in a stream: every offset is greater by some distance, and
nothing else differs.
-/

set_option autoImplicit false

namespace BerRecords

def Header.displace (distance : Nat) (header : Header) : Header :=
  { header with offset := header.offset + distance }

namespace Header

variable (distance : Nat) (header : Header)

@[simp] theorem displace_tag : (header.displace distance).tag = header.tag := rfl

@[simp] theorem displace_length : (header.displace distance).length = header.length := rfl

@[simp] theorem displace_offset : (header.displace distance).offset = header.offset + distance := rfl

@[simp] theorem displace_octets : (header.displace distance).octets = header.octets := rfl

@[simp] theorem displace_constructed :
    (header.displace distance).constructed = header.constructed := rfl

@[simp] theorem displace_contentStart :
    (header.displace distance).contentStart = header.contentStart + distance := by
  simp [contentStart, size, Nat.add_right_comm]

@[simp] theorem displace_stop : (header.displace distance).stop = header.stop + distance := by
  simp [stop, Nat.add_right_comm]

end Header

def Mismatch.displace (distance : Nat) (mismatch : Mismatch) : Mismatch :=
  { mismatch with offset := mismatch.offset + distance }

namespace DecodeError

def displace (distance : Nat) : DecodeError → DecodeError
  | corrupt offset element path cause =>
    corrupt (offset + distance) (element.map (· + distance)) path cause
  | mismatch m => mismatch (m.displace distance)
  | error => error

variable (distance : Nat) (error : DecodeError)

@[simp] theorem displace_isFatal : (error.displace distance).isFatal = error.isFatal := by
  cases error <;> rfl

@[simp] theorem isFatal_withPath (path : String) :
    (error.withPath path).isFatal = error.isFatal := by
  cases error <;> rfl

theorem displace_withPath (path : String) :
    (error.displace distance).withPath path = (error.withPath path).displace distance := by
  cases error <;> rfl

end DecodeError

/-- What an attempt gave, further on; `move` does the same to its state. -/
def Attempt.displace {σ α : Type} (distance : Nat) (move : σ → σ) :
    Except DecodeError α × σ → Except DecodeError α × σ
  | (.ok value, state) => (.ok value, move state)
  | (.error error, state) => (.error (error.displace distance), move state)

namespace Attempt

variable {σ α β : Type} {distance : Nat} {move : σ → σ} {state : σ}

theorem displace_bind {first first' : Attempt σ α} {rest rest' : α → Attempt σ β}
    (front : first'.on (move state) = displace distance move (first.on state))
    (back : ∀ value after, first.on state = (.ok value, after) →
      (rest' value).on (move after) = displace distance move ((rest value).on after)) :
    (first' >>= rest').on (move state) = displace distance move ((first >>= rest).on state) := by
  rw [on_bind, on_bind, front]
  rcases ran : first.on state with ⟨error | value, after⟩
  · rfl
  · exact back value after ran

theorem displace_get {rest rest' : σ → Attempt σ α}
    (back : (rest' (move state)).on (move state) = displace distance move ((rest state).on state)) :
    (get >>= rest').on (move state) = displace distance move ((get >>= rest).on state) := by
  rw [on_bind, on_bind]
  exact back

end Attempt

def Signal.displace (distance : Nat) : Signal → Signal
  | start header => start (header.displace distance)
  | signal => signal

def Visitor.Moves {σ : Type} (distance : Nat) (move : σ → σ) (visitor : Visitor σ) : Prop :=
  ∀ signal state, (visitor (signal.displace distance)).on (move state) =
    Attempt.displace distance move ((visitor signal).on state)

def Reader.Open.displace (distance : Nat) (element : Reader.Open) : Reader.Open :=
  { element with header := element.header.displace distance }

def Field.displace (distance : Nat) (field : Field) : Field :=
  { field with offset := field.offset + distance }

def Issue.displace (distance : Nat) (issue : Issue) : Issue :=
  { issue with offset := issue.offset + distance, cause := issue.cause.displace distance }

def FieldEvent.displace (distance : Nat) : FieldEvent → FieldEvent
  | enter definition header => enter definition (header.displace distance)
  | field it => field (it.displace distance)
  | leave => leave
  | missing definition path offset => missing definition path (offset + distance)

def Collected.displace (distance : Nat) (collected : Collected) : Collected :=
  ⟨collected.fields.map (·.displace distance), collected.issues.map (·.displace distance)⟩

structure Sink.Moves {σ : Type} (distance : Nat) (move : σ → σ) (sink : Sink σ) : Prop where
  receive : ∀ event state, (sink.receive (event.displace distance)).on (move state) =
    Attempt.displace distance move ((sink.receive event).on state)
  note : ∀ issue state, sink.note (issue.displace distance) (move state) =
    move (sink.note issue state)

def Label.displace (distance : Nat) (label : Label) : Label :=
  { label with offset := label.offset + distance }

mutual

def Node.displace (distance : Nat) : Node → Node
  | .leaf label value => .leaf (label.displace distance) value
  | .branch label children => .branch (label.displace distance) (Node.displaceAll distance children)

def Node.displaceAll (distance : Nat) : List Node → List Node
  | [] => []
  | node :: rest => Node.displace distance node :: Node.displaceAll distance rest

end

theorem Node.displaceAll_eq_map (distance : Nat) (nodes : List Node) :
    Node.displaceAll distance nodes = nodes.map (Node.displace distance) := by
  induction nodes with
  | nil => rfl
  | cons node rest ih => rw [Node.displaceAll, ih, List.map_cons]

def OpenNode.displace (distance : Nat) : OpenNode → OpenNode
  | leaf label value => leaf (label.displace distance) value
  | branch label children =>
    branch (label.displace distance) (children.map (Node.displace distance))

def TreeBuilder.displace (distance : Nat) (builder : TreeBuilder) : TreeBuilder :=
  ⟨builder.stack.map (OpenNode.displace distance), builder.roots.map (Node.displace distance)⟩

def Walk.Frame.displace (distance : Nat) (frame : Walk.Frame) : Walk.Frame :=
  { frame with header := frame.header.displace distance }

def Walk.displace {σ : Type} (distance : Nat) (move : σ → σ) (walk : Walk σ) : Walk σ where
  frames := walk.frames.map (Walk.Frame.displace distance)
  path := walk.path
  capture := walk.capture
  sink := move walk.sink

def Recording.displace {σ : Type} (distance : Nat) (move : σ → σ) (recording : Recording σ) :
    Recording σ :=
  ⟨move recording.inner, recording.issues.map (·.displace distance)⟩

/-- The assembler makes the same of what is further on; `shift` says what that is. -/
structure Assembler.Moves {σ β : Type} (distance : Nat) (move : σ → σ) (shift : β → β)
    (assembler : Assembler σ β) : Prop where
  sink : assembler.sink.Moves distance move
  finish : ∀ state, assembler.finish (move state) =
    ((assembler.finish state).1.map shift, move (assembler.finish state).2)
  discard : ∀ state, assembler.discard (move state) = move (assembler.discard state)

/-- An outcome further on, after `count` others; `move` does the same to its content. -/
def Outcome.displace {β : Type} (distance count : Nat) (move : β → β) : Outcome β → Outcome β
  | decoded index offset content issues =>
    decoded (index + count) (offset + distance) (move content) (issues.map (·.displace distance))
  | dropped index offset error =>
    dropped (index + count) (offset + distance) (error.displace distance)
  | failed error => failed (error.displace distance)

def Records.Step.displace {β : Type} (distance count : Nat) (move : β → β)
    (step : Records.Step β) : Records.Step β :=
  ⟨step.outcome.displace distance count move, step.consumed + distance⟩

end BerRecords
