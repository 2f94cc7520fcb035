import BerRecords.Proofs.Records.Accounts

/-!
# Places in records

Whatever is told to an assembler, the record that it makes speaks of no place that was not
told, be it a field or a node of a tree.
-/

set_option autoImplicit false

namespace BerRecords

open Attempt (Yields)

/-- The places of a record that is assembled were told before. -/
def Assembler.Places {σ β : Type} (assembler : Assembler σ β) (fresh : σ) (places : β → List Nat) :
    Prop :=
  ∀ {told : Nat → Prop} {script : List Telling} {state after : σ} {content : β},
    (∀ telling ∈ script, ∀ offset ∈ telling.place?, told offset) →
    (assembler.sink.hear script).on fresh = (.ok (), state) →
    assembler.finish state = (some content, after) → ∀ offset ∈ places content, told offset

theorem Account.told_of_fields {told : Nat → Prop} {script : List Telling}
    (placed : ∀ telling ∈ script, ∀ offset ∈ telling.place?, told offset) :
    ∀ field ∈ fields script, told field.offset := by
  intro field member
  obtain ⟨telling, member, picked⟩ := List.mem_filterMap.1 member
  exact placed telling member _ (Telling.place?_of_field? picked)

theorem Account.told_of_issues {told : Nat → Prop} {script : List Telling}
    (placed : ∀ telling ∈ script, ∀ offset ∈ telling.place?, told offset) :
    ∀ issue ∈ issues script, told issue.offset := by
  intro issue member
  obtain ⟨telling, member, picked⟩ := List.mem_filterMap.1 member
  exact placed telling member _ (Telling.place?_of_issue? picked)

theorem Assembler.places_fields : fields.Places .empty (List.map Field.offset) := by
  intro told script state after content placed heard finished offset member
  cases (Collected.hear_sink _ _).symm.trans heard
  have content : Account.fields script = content := by
    simpa [fields, Collected.empty] using congrArg Prod.fst finished
  rw [← content] at member
  obtain ⟨field, among, rfl⟩ := List.mem_map.1 member
  exact Account.told_of_fields placed field among

namespace Node

mutual

def offsets : Node → List Nat
  | leaf label _ => [label.offset]
  | branch label children => label.offset :: offsetsAll children

def offsetsAll : List Node → List Nat
  | [] => []
  | node :: rest => offsets node ++ offsetsAll rest

end

theorem offsetsAll_append (front back : List Node) :
    offsetsAll (front ++ back) = offsetsAll front ++ offsetsAll back := by
  induction front with
  | nil => rfl
  | cons node front ih => rw [List.cons_append, offsetsAll, ih, offsetsAll, List.append_assoc]

end Node

namespace TreeBuilder

variable {told : Nat → Prop} {builder : TreeBuilder} {node : Node}

structure Within (told : Nat → Prop) (builder : TreeBuilder) : Prop where
  stack : ∀ node ∈ builder.stack, ∀ offset ∈ node.close.offsets, told offset
  roots : ∀ node ∈ builder.roots, ∀ offset ∈ node.offsets, told offset

theorem within_attach (within : Within told builder) (known : ∀ offset ∈ node.offsets, told offset) :
    Yields (fun _ after => Within told after) ((attach node).on builder) := by
  rcases builder with ⟨_ | ⟨⟨label, value⟩ | ⟨label, children⟩, outer⟩, roots⟩
  · refine .ok ⟨within.stack, fun root member => ?_⟩
    rcases Array.mem_push.1 member with member | rfl
    · exact within.roots root member
    · exact known
  · exact .error
  · refine .ok ⟨fun open? member => ?_, within.roots⟩
    rcases List.mem_cons.1 member with rfl | member
    · have before := within.stack _ (.head _)
      intro offset member
      simp only [OpenNode.close, Node.offsets, Array.toList_push, Node.offsetsAll_append,
        Node.offsetsAll, List.append_nil, List.mem_cons, List.mem_append] at before member
      rcases member with rfl | member | member
      · exact before _ (.inl rfl)
      · exact before _ (.inr member)
      · exact known offset member
    · exact within.stack open? (.tail _ member)

theorem within_receive (within : Within told builder) {event : FieldEvent}
    (placed : ∀ offset ∈ (Telling.event event).place?, told offset) :
    Yields (fun _ after => Within told after)
      ((Assembler.trees.sink.receive event).on builder) := by
  cases event with
  | enter definition header =>
      refine .ok ⟨fun open? member => ?_, within.roots⟩
      rcases List.mem_cons.1 member with rfl | member
      · intro offset member
        have own : offset = header.offset := by
          cases holds : definition.constructed? = some true && header.constructed <;>
            simpa [OpenNode.ofLabel, OpenNode.close, Node.offsets, Node.offsetsAll, holds] using member
        exact own ▸ placed header.offset rfl
      · exact within.stack open? member
  | field field =>
      rcases builder with ⟨_ | ⟨⟨label, value⟩ | ⟨label, children⟩, outer⟩, roots⟩
      · exact .error
      · refine .ok ⟨fun open? member => ?_, within.roots⟩
        rcases List.mem_cons.1 member with rfl | member
        · exact within.stack (.leaf label value) (.head _)
        · exact within.stack open? (.tail _ member)
      · exact .error
  | leave =>
      rcases builder with ⟨_ | ⟨top, outer⟩, roots⟩
      · exact .error
      · have rest : Within told ⟨outer, roots⟩ :=
          ⟨fun open? member => within.stack open? (.tail _ member), within.roots⟩
        exact within_attach rest (within.stack top (.head _))
  | missing definition path offset =>
      refine within_attach within ?_
      simpa [Node.offsets] using placed offset rfl

theorem within_hear {script : List Telling} (within : Within told builder)
    (placed : ∀ telling ∈ script, ∀ offset ∈ telling.place?, told offset) :
    Yields (fun _ after => Within told after) ((Assembler.trees.sink.hear script).on builder) := by
  induction script generalizing builder with
  | nil => exact .ok within
  | cons telling script ih =>
      have later {builder : TreeBuilder} (within : Within told builder) :=
        ih within fun telling member => placed telling (.tail _ member)
      cases telling with
      | issue => exact later within
      | event event =>
          refine (within_receive within (placed _ (.head _))).bind ?_
          intro _ after within
          exact later within

end TreeBuilder

theorem Assembler.places_trees : trees.Places .empty Node.offsets := by
  intro told script state after content placed heard finished
  have within : TreeBuilder.Within told .empty :=
    ⟨by simp [TreeBuilder.empty], by simp [TreeBuilder.empty]⟩
  have built := TreeBuilder.within_hear within placed _ _ heard
  have found : state.roots.back? = some content := congrArg Prod.fst finished
  exact built.roots content (Array.mem_of_back? found)

end BerRecords
