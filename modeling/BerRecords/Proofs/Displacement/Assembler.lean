import BerRecords.Proofs.Displacement

/-! Assemblers make the same of elements wherever these stand in a stream. -/

set_option autoImplicit false

namespace BerRecords

variable {σ : Type} {distance : Nat} {move : σ → σ}

theorem Recording.moves_sink {sink : Sink σ} (moves : sink.Moves distance move) :
    (Recording.sink sink).Moves distance (Recording.displace distance move) where
  receive event recording := by
    have received := moves.receive event recording.inner
    simp only [Attempt.on, ExceptT.run, StateT.run] at received
    simp only [Recording.sink, Attempt.on, ExceptT.run, StateT.run, Recording.displace, received]
    rcases sink.receive event recording.inner with ⟨error | value, state⟩
    · rfl
    · rfl
  note issue recording := by
    simp [Recording.sink, Recording.displace, moves.note]

theorem Collected.moves_sink : Collected.sink.Moves distance (Collected.displace distance) where
  receive event collected := by
    cases event with
    | enter => rfl
    | leave => rfl
    | field field =>
        simp [Collected.sink, Sink.ofFields, addField, FieldEvent.displace, Attempt.displace,
          Collected.displace]
    | missing definition path offset =>
        simp [Collected.sink, Sink.ofFields, addField, FieldEvent.displace, Attempt.displace,
          Collected.displace, Field.ofMissing, Field.displace]
  note issue collected := by
    simp [Collected.sink, Collected.displace]

namespace TreeBuilder

variable (builder : TreeBuilder)

theorem displace_ofLabel (constructed : Bool) (label : Label) :
    OpenNode.ofLabel constructed (label.displace distance) =
      (OpenNode.ofLabel constructed label).displace distance := by
  cases constructed <;> simp [OpenNode.ofLabel, OpenNode.displace]

theorem displace_close (node : OpenNode) :
    (node.displace distance).close = node.close.displace distance := by
  cases node with
  | leaf => simp [OpenNode.displace, OpenNode.close, Node.displace]
  | branch =>
      simp [OpenNode.displace, OpenNode.close, Node.displace, Node.displaceAll_eq_map]

theorem displace_openNode (node : OpenNode) :
    (openNode (node.displace distance)).on (builder.displace distance) =
      Attempt.displace distance (TreeBuilder.displace distance) ((openNode node).on builder) :=
  rfl

theorem displace_attach (node : Node) :
    (attach (node.displace distance)).on (builder.displace distance) =
      Attempt.displace distance (TreeBuilder.displace distance) ((attach node).on builder) := by
  rcases builder with ⟨stack, roots⟩
  rw [attach, attach]
  refine Attempt.displace_get ?_
  rcases stack with _ | ⟨⟨label, value⟩ | ⟨label, children⟩, outer⟩
  · simp [TreeBuilder.displace, Attempt.displace]
  · rfl
  · simp [TreeBuilder.displace, OpenNode.displace, Attempt.displace]

theorem displace_closeNode :
    closeNode.on (builder.displace distance) =
      Attempt.displace distance (TreeBuilder.displace distance) (closeNode.on builder) := by
  rcases builder with ⟨stack, roots⟩
  rw [closeNode]
  refine Attempt.displace_get ?_
  cases stack with
  | nil => rfl
  | cons top outer =>
      refine Attempt.displace_bind rfl fun _ after _ => ?_
      have closed := @displace_attach distance after top.close
      rwa [← displace_close] at closed

theorem displace_setValue (value : Option Octets) :
    (setValue value).on (builder.displace distance) =
      Attempt.displace distance (TreeBuilder.displace distance) ((setValue value).on builder) := by
  rcases builder with ⟨stack, roots⟩
  rw [setValue]
  refine Attempt.displace_get ?_
  rcases stack with _ | ⟨⟨label, value⟩ | ⟨label, children⟩, outer⟩
  · rfl
  · rfl
  · rfl

end TreeBuilder

namespace Assembler

theorem moves_fields :
    fields.Moves distance (Collected.displace distance) (List.map (Field.displace distance)) where
  sink := Collected.moves_sink
  finish collected := by
    simp [fields, Collected.displace, Collected.empty]
  discard collected := by
    simp [fields, Collected.displace, Collected.empty]

theorem moves_trees :
    trees.Moves distance (TreeBuilder.displace distance) (Node.displace distance) where
  sink :=
    { receive := fun event builder => by
        cases event with
        | enter definition header =>
            have opened := @TreeBuilder.displace_openNode distance builder
              (.ofLabel (definition.constructed? = some true && header.constructed)
                ⟨header.tag, definition.name, definition.type, header.offset, header.length⟩)
            rw [← TreeBuilder.displace_ofLabel] at opened
            exact opened
        | field field => exact builder.displace_setValue field.value
        | leave => exact builder.displace_closeNode
        | missing definition path offset =>
            have attached := @TreeBuilder.displace_attach distance builder
              (.leaf ⟨none, definition.name, definition.type, offset, 0⟩ none)
            rw [Node.displace] at attached
            exact attached
      note := fun _ _ => rfl }
  finish builder := by
    simp [trees, TreeBuilder.takeRoot, TreeBuilder.displace]
  discard builder := by
    simp [trees, TreeBuilder.abandon, TreeBuilder.takeRoots, TreeBuilder.displace]

end Assembler

end BerRecords
