import BerRecords.Proofs.Safe
import BerRecords.Records

/-!
# What sinks ask of those who tell them

A sink may rely on how elements lie one inside the other. As long as it is told of
such a nesting it refuses nothing with a fatal error.
-/

set_option autoImplicit false

namespace BerRecords

/-- Whether an element can hold others, for its definition and for its form. -/
def Definition.holds (definition : Definition) (header : Header) : Bool :=
  definition.constructed? = some true && header.constructed

def Roomy (open? : List Bool) : Prop :=
  ∀ holds ∈ open?.head?, holds = true

/-- How many elements were completed when all but those open have ended. -/
def completed (roots : Nat) (open? : List Bool) : Nat :=
  if open? = [] then roots + 1 else roots

/-- The sink keeps track of the open elements, which of them can hold others, and of how
many were completed. It refuses nothing that fits. -/
structure Sink.Nests {σ : Type} (sink : Sink σ) (nested : List Bool → Nat → σ → Prop) : Prop where
  enter : ∀ {open? roots state}, nested open? roots state → Roomy open? →
    ∀ definition header, Attempt.Safe
      (fun _ => nested (definition.holds header :: open?) roots)
      ((sink.receive (.enter definition header)).on state)
  field : ∀ {open? roots state}, nested (false :: open?) roots state → ∀ field,
    Attempt.Safe (fun _ => nested (false :: open?) roots) ((sink.receive (.field field)).on state)
  missing : ∀ {open? roots state}, nested (true :: open?) roots state →
    ∀ definition path offset, Attempt.Safe (fun _ => nested (true :: open?) roots)
      ((sink.receive (.missing definition path offset)).on state)
  leave : ∀ {holds open? roots state}, nested (holds :: open?) roots state → Roomy open? →
    Attempt.Safe (fun _ => nested open? (completed roots open?)) ((sink.receive .leave).on state)
  note : ∀ {open? roots state}, nested open? roots state → ∀ issue,
    nested open? roots (sink.note issue state)

theorem Recording.nests {σ : Type} {sink : Sink σ} {nested : List Bool → Nat → σ → Prop}
    (nests : sink.Nests nested) :
    (Recording.sink sink).Nests fun open? roots recording => nested open? roots recording.inner := by
  have receive {event : FieldEvent} {recording : Recording σ} {post : σ → Prop}
      (safe : Attempt.Safe (fun _ => post) ((sink.receive event).on recording.inner)) :
      Attempt.Safe (fun _ (recording : Recording σ) => post recording.inner)
        (((Recording.sink sink).receive event).on recording) := by
    have ran : ((Recording.sink sink).receive event).on recording =
        (((sink.receive event).on recording.inner).1,
          { recording with inner := ((sink.receive event).on recording.inner).2 }) := rfl
    rw [ran]
    generalize (sink.receive event).on recording.inner = ran at safe ⊢
    cases safe with
    | error mild => exact .error mild
    | ok done => exact .ok done
  exact
    { enter := fun nested roomy definition header => receive (nests.enter nested roomy _ _)
      field := fun nested field => receive (nests.field nested field)
      missing := fun nested definition path offset => receive (nests.missing nested _ _ _)
      leave := fun nested roomy => receive (nests.leave nested roomy)
      note := fun nested issue => nests.note nested issue }

/-- An assembler whose sink keeps track of a nesting has a record for every element that
was completed alone, and is as fresh as before then and after every failure. -/
structure Assembler.Nests {σ β : Type} (assembler : Assembler σ β) (fresh : σ)
    (nested : List Bool → Nat → σ → Prop) : Prop where
  sink : assembler.sink.Nests nested
  start : nested [] 0 fresh
  finish : ∀ {state}, nested [] 1 state → ∃ content, assembler.finish state = (some content, fresh)
  discard : ∀ state, assembler.discard state = fresh

theorem Collected.nests : Collected.sink.Nests fun _ _ _ => True where
  enter _ _ _ _ := .ok trivial
  field _ _ := .ok trivial
  missing _ _ _ _ := .ok trivial
  leave _ _ := .ok trivial
  note _ _ := trivial

def OpenNode.isBranch : OpenNode → Bool
  | leaf .. => false
  | branch .. => true

def TreeBuilder.Nested (open? : List Bool) (roots : Nat) (builder : TreeBuilder) : Prop :=
  builder.stack.map OpenNode.isBranch = open? ∧ builder.roots.size = roots

namespace TreeBuilder

theorem isBranch_ofLabel (constructed : Bool) (label : Label) :
    (OpenNode.ofLabel constructed label).isBranch = constructed := by
  cases constructed <;> rfl

variable {open? : List Bool} {roots : Nat} {builder : TreeBuilder}

theorem nested_openNode (nested : Nested open? roots builder) (node : OpenNode) :
    Attempt.Safe (fun _ => Nested (node.isBranch :: open?) roots) ((openNode node).on builder) := by
  obtain ⟨rfl, rfl⟩ := nested
  exact .ok ⟨rfl, rfl⟩

theorem nested_setValue (nested : Nested (false :: open?) roots builder) (value : Option Octets) :
    Attempt.Safe (fun _ => Nested (false :: open?) roots) ((setValue value).on builder) := by
  obtain ⟨stacked, rfl⟩ := nested
  rcases builder with ⟨stack, trees⟩
  rcases stack with _ | ⟨⟨label, _⟩ | ⟨label, children⟩, outer⟩
  · cases stacked
  · exact .ok ⟨stacked, rfl⟩
  · cases stacked

theorem nested_attach (nested : Nested open? roots builder) (roomy : Roomy open?) (node : Node) :
    Attempt.Safe (fun _ => Nested open? (completed roots open?)) ((attach node).on builder) := by
  obtain ⟨rfl, rfl⟩ := nested
  rcases builder with ⟨stack, trees⟩
  rcases stack with _ | ⟨⟨label, _⟩ | ⟨label, children⟩, outer⟩
  · exact .ok ⟨rfl, by simp [completed]⟩
  · have full := roomy false rfl
    cases full
  · exact .ok ⟨rfl, rfl⟩

theorem nested_closeNode {holds : Bool} (nested : Nested (holds :: open?) roots builder)
    (roomy : Roomy open?) :
    Attempt.Safe (fun _ => Nested open? (completed roots open?)) (closeNode.on builder) := by
  obtain ⟨stacked, rfl⟩ := nested
  rcases builder with ⟨stack, trees⟩
  cases stack with
  | nil => cases stacked
  | cons top outer =>
      have rest : Nested open? trees.size ⟨outer, trees⟩ := ⟨(List.cons.inj stacked).2, rfl⟩
      exact nested_attach rest roomy top.close

end TreeBuilder

namespace Assembler

theorem fields_nests : fields.Nests Collected.empty fun _ _ _ => True where
  sink := Collected.nests
  start := trivial
  finish _ := ⟨_, rfl⟩
  discard _ := rfl

theorem trees_nests : trees.Nests TreeBuilder.empty TreeBuilder.Nested where
  sink :=
    { enter := fun {open? roots state} nested _ definition header => by
        have opened := TreeBuilder.nested_openNode nested (.ofLabel (definition.holds header)
          ⟨header.tag, definition.name, definition.type, header.offset, header.length⟩)
        rw [TreeBuilder.isBranch_ofLabel] at opened
        exact opened
      field := fun nested field => TreeBuilder.nested_setValue nested field.value
      missing := fun nested definition _ offset =>
        TreeBuilder.nested_attach nested (by simp [Roomy]) _
      leave := fun nested roomy => TreeBuilder.nested_closeNode nested roomy
      note := fun nested _ => nested }
  start := ⟨rfl, rfl⟩
  finish {builder} nested := by
    obtain ⟨stacked, counted⟩ := nested
    rcases builder with ⟨stack, roots⟩
    obtain ⟨root, rfl⟩ := Array.size_eq_one_iff.1 counted
    rw [List.map_eq_nil_iff] at stacked
    subst stacked
    exact ⟨root, rfl⟩
  discard _ := rfl

end Assembler

end BerRecords
