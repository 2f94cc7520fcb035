import BerRecords.Element.Node
import BerRecords.Proofs.Reader.Lockstep

/-!
# Trees and their traversals

The trees of a source are what its events linearise. A tree is put together from the inside out,
each node joining its parent when it closes, while events are written down as they come, so the
two are compared on the way: what has been told is the traversal of the complete trees, and after
it what each open node has come to.
-/

set_option autoImplicit false

namespace BerRecords

namespace Event

def isStart : Event → Bool
  | start .. => true
  | _ => false

/-- The starts of elements that lie in no other one, if `depth` elements are open. -/
def outermost : Nat → List Event → List Event
  | _, [] => []
  | depth, .start tag length constructed offset :: rest =>
    if depth = 0 then .start tag length constructed offset :: outermost 1 rest
    else outermost (depth + 1) rest
  | depth, .value _ :: rest => outermost depth rest
  | depth, .stop _ :: rest => outermost (depth - 1) rest

end Event

namespace Node

def start? (node : Node) : Option Event :=
  node.label.tag.map fun tag => .start tag node.label.length node.isBranch node.label.offset

mutual

/-- What a traversal of a tree tells: the start of a node, its value or its children from left
to right, and its end. There is none if a node lacks its tag or a leaf its value. -/
def events? : Node → Option (List Event)
  | leaf label value => do
    let tag ← label.tag
    let octets ← value
    return [.start tag label.length false label.offset, .value octets, .stop tag]
  | branch label children => do
    let tag ← label.tag
    let inside ← eventsAll? children
    return .start tag label.length true label.offset :: (inside ++ [.stop tag])

def eventsAll? : List Node → Option (List Event)
  | [] => some []
  | node :: rest => do
    let first ← events? node
    let later ← eventsAll? rest
    return first ++ later

end

variable {node : Node} {nodes : List Node} {label : Label} {events later : List Event}

theorem events?_leaf_eq_some {value : Option Octets} :
    (leaf label value).events? = some events ↔
      ∃ tag octets, label.tag = some tag ∧ value = some octets ∧
        events = [.start tag label.length false label.offset, .value octets, .stop tag] := by
  rw [events?]
  constructor
  · intro told
    obtain ⟨tag, tagged, told⟩ := Option.bind_eq_some_iff.1 told
    obtain ⟨octets, valued, told⟩ := Option.bind_eq_some_iff.1 told
    exact ⟨tag, octets, tagged, valued, (Option.some.inj told).symm⟩
  · rintro ⟨tag, octets, tagged, rfl, rfl⟩
    rw [tagged]
    rfl

theorem events?_branch_eq_some :
    (branch label nodes).events? = some events ↔
      ∃ tag inside, label.tag = some tag ∧ eventsAll? nodes = some inside ∧
        events = .start tag label.length true label.offset :: (inside ++ [.stop tag]) := by
  rw [events?]
  constructor
  · intro told
    obtain ⟨tag, tagged, told⟩ := Option.bind_eq_some_iff.1 told
    obtain ⟨inside, told', told⟩ := Option.bind_eq_some_iff.1 told
    exact ⟨tag, inside, tagged, told', (Option.some.inj told).symm⟩
  · rintro ⟨tag, inside, tagged, told, rfl⟩
    rw [tagged, told]
    rfl

theorem eventsAll?_cons_eq_some :
    eventsAll? (node :: nodes) = some events ↔
      ∃ first later, node.events? = some first ∧ eventsAll? nodes = some later ∧
        events = first ++ later := by
  rw [eventsAll?]
  constructor
  · intro told
    obtain ⟨first, told', told⟩ := Option.bind_eq_some_iff.1 told
    obtain ⟨later, told'', told⟩ := Option.bind_eq_some_iff.1 told
    exact ⟨first, later, told', told'', (Option.some.inj told).symm⟩
  · rintro ⟨first, later, told, told', rfl⟩
    rw [told, told']
    rfl

theorem eventsAll?_snoc (told : eventsAll? nodes = some events) (last : node.events? = some later) :
    eventsAll? (nodes ++ [node]) = some (events ++ later) := by
  induction nodes generalizing events with
  | nil =>
      cases told
      exact eventsAll?_cons_eq_some.2 ⟨later, [], last, rfl, (List.append_nil _).symm⟩
  | cons first rest ih =>
      obtain ⟨front, back, begun, others, rfl⟩ := eventsAll?_cons_eq_some.1 told
      rw [List.cons_append, List.append_assoc]
      exact eventsAll?_cons_eq_some.2 ⟨front, _, begun, ih others, rfl⟩

mutual

/-- The traversal of a tree starts as many elements as the tree has nodes. -/
theorem countP_events (node : Node) (events : List Event) (told : node.events? = some events) :
    events.countP Event.isStart = node.count := by
  match node with
  | .leaf label value =>
      obtain ⟨tag, octets, -, -, rfl⟩ := events?_leaf_eq_some.1 told
      rfl
  | .branch label children =>
      obtain ⟨tag, inside, -, filled, rfl⟩ := events?_branch_eq_some.1 told
      rw [count, ← countP_eventsAll children inside filled]
      simp [List.countP_append, List.countP_cons, Event.isStart]

theorem countP_eventsAll (nodes : List Node) (events : List Event)
    (told : eventsAll? nodes = some events) : events.countP Event.isStart = countAll nodes := by
  match nodes with
  | [] =>
      cases told
      rfl
  | node :: rest =>
      obtain ⟨first, later, begun, others, rfl⟩ := eventsAll?_cons_eq_some.1 told
      rw [List.countP_append, countAll, countP_events node first begun,
        countP_eventsAll rest later others]

end

mutual

/-- A tree has one outermost start, its own, and none if it lies in another. -/
theorem outermost_events (node : Node) (events : List Event) (told : node.events? = some events)
    (depth : Nat) (rest : List Event) :
    Event.outermost depth (events ++ rest) =
      (if depth = 0 then node.start?.toList else []) ++ Event.outermost depth rest := by
  match node with
  | .leaf label value =>
      obtain ⟨tag, octets, tagged, -, rfl⟩ := events?_leaf_eq_some.1 told
      cases depth with
      | zero => simp [Event.outermost, start?, Node.label, tagged, isBranch]
      | succ depth => simp [Event.outermost]
  | .branch label children =>
      obtain ⟨tag, inside, tagged, filled, rfl⟩ := events?_branch_eq_some.1 told
      have silent := outermost_eventsAll children inside filled
      cases depth with
      | zero => simp [Event.outermost, start?, Node.label, tagged, isBranch, silent]
      | succ depth => simp [Event.outermost, silent]

theorem outermost_eventsAll (nodes : List Node) (events : List Event)
    (told : eventsAll? nodes = some events) (depth : Nat) (rest : List Event) :
    Event.outermost (depth + 1) (events ++ rest) = Event.outermost (depth + 1) rest := by
  match nodes with
  | [] =>
      cases told
      rfl
  | node :: nodes =>
      obtain ⟨first, later, begun, others, rfl⟩ := eventsAll?_cons_eq_some.1 told
      rw [List.append_assoc, outermost_events node first begun,
        outermost_eventsAll nodes later others]
      rfl

end

private theorem exists_start? (told : node.events? = some events) :
    ∃ event, node.start? = some event := by
  cases node with
  | leaf label value =>
      obtain ⟨tag, -, tagged, -⟩ := events?_leaf_eq_some.1 told
      exact ⟨_, congrArg (Option.map _) tagged⟩
  | branch label children =>
      obtain ⟨tag, -, tagged, -⟩ := events?_branch_eq_some.1 told
      exact ⟨_, congrArg (Option.map _) tagged⟩

/-- The outermost starts of a traversal are those of the trees, one after another. -/
theorem map_start? (told : eventsAll? nodes = some events) :
    nodes.map start? = (Event.outermost 0 events).map some := by
  induction nodes generalizing events with
  | nil =>
      cases told
      rfl
  | cons node rest ih =>
      obtain ⟨first, later, begun, others, rfl⟩ := eventsAll?_cons_eq_some.1 told
      obtain ⟨event, starts⟩ := exists_start? begun
      rw [outermost_events node first begun, List.map_cons, ih others, starts]
      rfl

end Node

def Label.bare (header : Header) : Label :=
  ⟨header.tag, none, none, header.offset, header.length⟩

namespace TreeBuilder

open Reader (Open Gives Lockstep)

inductive StandsFor : Open → OpenNode → List Event → Prop where
  | unread {header : Header} : header.constructed = false →
      StandsFor ⟨header, false⟩ (.leaf (.bare header) none) [(Signal.start header).event]
  | read {header : Header} (octets : Octets) : header.constructed = false →
      StandsFor ⟨header, true⟩ (.leaf (.bare header) (some octets))
        [(Signal.start header).event, .value octets]
  | branch {header : Header} {children : Array Node} {inside : List Event} :
      header.constructed = true → Node.eventsAll? children.toList = some inside →
      StandsFor ⟨header, false⟩ (.branch (.bare header) children)
        ((Signal.start header).event :: inside)

/-- Open nodes stand for the open elements, innermost first, and all but the innermost can hold
others. What has been told began with `told`. -/
inductive Stacked (told : List Event) : List Open → List OpenNode → List Event → Prop where
  | nil : Stacked told [] [] told
  | cons {element : Open} {outer : List Open} {node : OpenNode} {nodes : List OpenNode}
      {events block : List Event} :
      Stacked told outer nodes events → (∀ around ∈ outer.head?, around.header.constructed = true) →
      StandsFor element node block →
      Stacked told (element :: outer) (node :: nodes) (events ++ block)

/-- The builder has come to what these events tell while these elements are open. -/
def Mirrors (stack : List Open) (events : List Event) (builder : TreeBuilder) : Prop :=
  ∃ told, Node.eventsAll? builder.roots.toList = some told ∧
    Stacked told stack builder.stack events

variable {outer : List Open} {told block : List Event}

private theorem standsFor_ofLabel (header : Header) :
    StandsFor ⟨header, false⟩ (.ofLabel header.constructed (.bare header))
      [(Signal.start header).event] := by
  cases constructed : header.constructed with
  | true => exact .branch constructed rfl
  | false => exact .unread constructed

/-- A node whose element has come to its end tells of all of it. -/
private theorem events?_close {element : Open} {node : OpenNode} (stands : StandsFor element node block)
    (ended : element.header.constructed = true ∨ element.valueRead = true) :
    node.close.events? = some (block ++ [.stop element.header.tag]) := by
  cases stands with
  | unread primitive => simp [primitive] at ended
  | read octets primitive =>
      simp [OpenNode.close, Node.events?, Label.bare, Signal.event, primitive]
  | branch constructed inside =>
      simp [OpenNode.close, Node.events?, Label.bare, Signal.event, constructed, inside]

/-- A closed node finds its place: in the element around, or among the complete trees. -/
private theorem mirrors_attach {node : Node} {roots : Array Node} {nodes : List OpenNode}
    {before : List Event}
    (complete : Node.eventsAll? roots.toList = some told) (stacked : Stacked told outer nodes before)
    (roomy : ∀ around ∈ outer.head?, around.header.constructed = true)
    (closed : node.events? = some block) :
    ∃ after, (attach node).on ⟨nodes, roots⟩ = (.ok (), after) ∧
      Mirrors outer (before ++ block) after := by
  cases stacked with
  | nil =>
      refine ⟨⟨[], roots.push node⟩, rfl, told ++ block, ?_, .nil⟩
      rw [Array.toList_push]
      exact Node.eventsAll?_snoc complete closed
  | @cons element outer _ nodes before _ stacked around stands =>
      have constructed := roomy element rfl
      cases stands with
      | unread primitive => simp [primitive] at constructed
      | read octets primitive => simp [primitive] at constructed
      | @branch header children inside _ filled =>
          have more : Node.eventsAll? (children.push node).toList = some (inside ++ block) := by
            rw [Array.toList_push]
            exact Node.eventsAll?_snoc filled closed
          refine ⟨⟨.branch (.bare header) (children.push node) :: nodes, roots⟩, rfl, told, complete, ?_⟩
          rw [List.append_assoc]
          exact .cons stacked around (.branch constructed more)

/-- A builder takes whatever a reader may say and keeps up with the events. -/
theorem lockstep :
    Lockstep Event.recorder visitor fun stack events => Mirrors stack events.toList := by
  intro stack signal rest events builder gives mirrors
  obtain ⟨told, complete, stacked⟩ := mirrors
  obtain ⟨nodes, roots⟩ := builder
  refine ⟨events.push signal.event, ?_⟩
  cases gives with
  | start header roomy =>
      refine ⟨⟨.ofLabel header.constructed (.bare header) :: nodes, roots⟩, rfl, rfl, told, complete, ?_⟩
      rw [Array.toList_push]
      exact .cons stacked roomy (standsFor_ofLabel header)
  | @value header outer octets primitive =>
      generalize listed : events.toList = before at stacked
      cases stacked with
      | cons stacked around stands =>
          cases stands with
          | branch constructed => simp [primitive] at constructed
          | unread =>
              refine ⟨⟨.leaf (.bare header) (some octets) :: _, roots⟩, rfl, rfl, told, complete, ?_⟩
              rw [Array.toList_push, listed, List.append_assoc]
              exact .cons stacked around (.read octets primitive)
  | @stop top outer ended =>
      generalize listed : events.toList = before at stacked
      cases stacked with
      | @cons _ _ node nodes before block stacked around stands =>
          obtain ⟨after, attached, mirrors⟩ :=
            mirrors_attach complete stacked around (events?_close stands ended)
          refine ⟨after, rfl, attached, ?_⟩
          show Mirrors rest (events.push _).toList after
          rw [Array.toList_push, listed, List.append_assoc]
          exact mirrors

end TreeBuilder

/-- Building trees fails exactly where recording events does, and with the same error. Otherwise
the traversal of the trees is the events; so the trees have as many nodes as elements started,
and there is one tree for each element that lies in no other, in the order of the source. -/
theorem Node.ofSource_agrees (encoding : TagEncoding) (source : Source) :
    (∀ error, Node.ofSource encoding source = .error error ↔
      Event.ofSource encoding source = .error error) ∧
      ∀ nodes, Node.ofSource encoding source = .ok nodes →
        ∃ events, Event.ofSource encoding source = .ok events ∧
          Node.eventsAll? nodes = some events ∧
            Node.countAll nodes = events.countP Event.isStart ∧
              nodes.map Node.start? = (Event.outermost 0 events).map some := by
  have idle : TreeBuilder.Mirrors [] (#[] : Array Event).toList .empty := ⟨[], rfl, .nil⟩
  have alike := Reader.alike_process TreeBuilder.lockstep
    (.ofSource encoding Reader.defaultMaxDepth source) idle
  rw [Node.ofSource, Event.ofSource]
  generalize Reader.process Event.recorder _ _ = ran at alike ⊢
  generalize Reader.process TreeBuilder.visitor _ _ = ran' at alike ⊢
  cases alike with
  | error => exact ⟨fun _ => by simp, by simp⟩
  | @ok _ reader events builder mirrors =>
      obtain ⟨nodes, roots⟩ := builder
      obtain ⟨told, complete, stacked⟩ := mirrors
      refine ⟨by simp, ?_⟩
      rintro _ ⟨⟩
      refine ⟨events.toList, rfl, ?_⟩
      generalize events.toList = whole at stacked ⊢
      cases stacked
      exact ⟨complete, (Node.countP_eventsAll _ _ complete).symm, Node.map_start? complete⟩

/-- A sequence of one integer and a null, cut inside the first heading and before the last octets. -/
theorem Node.ofSource_agrees_on_two :
    let source : Source :=
      ⟨[.piece 0x30 [0x03, 0x02], .interrupted, .piece 0x01 [0x05, 0x05, 0x00]], .exhausted⟩
    let events : List Event :=
      [.start .sequence 3 true 0, .start .integer 1 false 2, .value [5], .stop .integer,
        .stop .sequence, .start .null 0 false 5, .value [], .stop .null]
    ∃ nodes, Node.ofSource .singleOctet source = .ok nodes ∧
      Event.ofSource .singleOctet source = .ok events ∧ Node.eventsAll? nodes = some events ∧
        Node.countAll nodes = 3 ∧
          nodes.map Node.start? = [some (.start .sequence 3 true 0), some (.start .null 0 false 5)] := by
  intro source events
  have built : ((Node.ofSource .singleOctet source).toOption.map Node.eventsAll?) =
      some (some events) := by decide +kernel
  cases ran : Node.ofSource .singleOctet source with
  | error error =>
      rw [ran] at built
      cases built
  | ok nodes =>
      obtain ⟨told, recorded, traversed, counted, outermost⟩ :=
        (Node.ofSource_agrees .singleOctet source).2 nodes ran
      rw [ran] at built
      cases traversed.symm.trans (Option.some.inj built)
      exact ⟨nodes, rfl, recorded, traversed, counted, outermost⟩

end BerRecords
