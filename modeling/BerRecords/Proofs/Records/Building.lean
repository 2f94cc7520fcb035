import BerRecords.Proofs.Definition.Shown
import BerRecords.Proofs.Records.Accounts

/-!
# The tree of an element

The tree that decoding makes of an element, as a recursion over the element and its definition.
Told the account of the element, a builder adds this tree, whatever the names of the schema are.
-/

set_option autoImplicit false

namespace BerRecords

namespace Account

def lacked (path parent : String) (offset : Nat) (component : Definition) : List Telling :=
  let path' := Walk.innerPath path component.name
  [.issue ⟨path', offset,
      .mismatch ⟨offset, path', .missingComponent parent component.name, true⟩, true⟩,
    .event (.missing component path' offset)]

theorem missing_eq_flatMap (path parent : String) (offset : Nat) (seen : Nat → Bool)
    (components : List (Definition × Nat)) :
    missing path parent offset
        (components.map fun (component, place) => (component, seen place)) =
      (components.filterMap fun (component, place) =>
        if seen place || component.isOptional then none
        else some (⟨some place, component⟩ : Definition.Selection)).flatMap
          fun selection => lacked path parent offset selection.definition := by
  induction components with
  | nil => rfl
  | cons first rest ih =>
      obtain ⟨component, place⟩ := first
      rw [List.map_cons, missing, ih, List.filterMap_cons]
      by_cases skipped : (seen place || component.isOptional) = true
      · simp only [skipped, ↓reduceIte]
      · simp only [skipped, Bool.false_eq_true, ↓reduceIte]
        rfl

theorem zip_mapIdx (components : List Definition) (seen : Nat → Bool) :
    components.zip (components.mapIdx fun place _ => seen place) =
      components.zipIdx.map fun (component, place) => (component, seen place) := by
  apply List.ext_getElem
  · simp
  · intro place below below'
    simp

/-- The components that are told to be missing are those that the definition lacks. -/
theorem missing_eq_lacked (path parent : String) (offset : Nat) (definition : Definition)
    (selected : List Definition.Selection) :
    missing path parent offset ((definition.components?.getD []).zip
        ((definition.components?.getD []).mapIdx fun place _ =>
          selected.any (·.place = some place))) =
      (definition.lacking selected).flatMap
        fun selection => lacked path parent offset selection.definition := by
  rw [zip_mapIdx _ fun place => selected.any (·.place = some place)]
  exact missing_eq_flatMap path parent offset (fun place => selected.any (·.place = some place))
    (definition.components?.getD []).zipIdx

end Account

def Label.ofHeader (definition : Definition) (header : Header) : Label :=
  ⟨header.tag, definition.name, definition.type, header.offset, header.length⟩

namespace Node

variable {encoding : TagEncoding} {mandatory : Bool} {definition : Definition}

def ofMissing (offset : Nat) (selection : Definition.Selection) : Node :=
  .leaf ⟨none, selection.definition.name, selection.definition.type, offset, 0⟩ none

mutual

/-- The tree of an element that starts at `offset`. -/
def ofElement (mandatory : Bool) (definition : Definition) (offset : Nat) : Element encoding → Node
  | .leaf heading value =>
    .leaf (.ofHeader definition (heading.header offset))
      (if definition.constructed? = some true then none else some value)
  | .branch heading inside =>
    let label := Label.ofHeader definition (heading.header offset)
    if definition.constructed? = some false then .leaf label none
    else if definition.isAny then .leaf label (some (Element.octetsAll inside))
    else
      let selected := definition.acceptAll [] (inside.map (·.heading.tag))
      .branch label <|
        ofChildren mandatory definition (offset + heading.octets.length) [] inside ++
          if mandatory then (definition.lacking selected).map (ofMissing offset) else []

def ofChildren (mandatory : Bool) (definition : Definition) (offset : Nat)
    (selected : List Definition.Selection) : List (Element encoding) → List Node
  | [] => []
  | child :: rest =>
    let chosen := definition.accept selected child.heading.tag
    (match chosen with
      | none => []
      | some selection => [ofElement mandatory selection.definition offset child]) ++
      ofChildren mandatory definition (offset + child.octets.length) (selected ++ chosen.toList) rest

end

/-- The tree of an element whose children the schema is asked for. -/
theorem ofElement_followed (branches : definition.constructed? = some true)
    (heading : Heading encoding) (inside : List (Element encoding)) (offset : Nat) :
    ofElement mandatory definition offset (.branch heading inside) =
      .branch (.ofHeader definition (heading.header offset))
        (ofChildren mandatory definition (offset + heading.octets.length) [] inside ++
          if mandatory then
            (definition.lacking (definition.acceptAll [] (inside.map (·.heading.tag)))).map
              (ofMissing offset)
          else []) := by
  have unlike : definition.isAny = false := by
    rw [Bool.eq_false_iff, ne_eq, ← Definition.constructed?_eq_none_iff, branches]
    exact Option.some_ne_none true
  rw [ofElement]
  simp [branches, unlike]

theorem label_ofElement (element : Element encoding) (offset : Nat) :
    (ofElement mandatory definition offset element).label =
      .ofHeader definition (element.heading.header offset) := by
  cases element with
  | leaf heading value => rw [ofElement, label, Element.heading]
  | branch heading inside =>
      rw [ofElement]
      split
      · rfl
      · split <;> rfl

theorem ofChildren_append (front back : List (Element encoding)) (offset : Nat)
    (selected : List Definition.Selection) :
    ofChildren mandatory definition offset selected (front ++ back) =
      ofChildren mandatory definition offset selected front ++
        ofChildren mandatory definition (offset + (Element.octetsAll front).length)
          (definition.acceptAll selected (front.map (·.heading.tag))) back := by
  induction front generalizing offset selected with
  | nil => simp [ofChildren, Element.octetsAll, Definition.acceptAll]
  | cons child front ih =>
      rw [List.cons_append, ofChildren, ih, ofChildren, Element.octetsAll, List.length_append,
        List.append_assoc, Nat.add_assoc]
      rfl

end Node

namespace TreeBuilder

open Assembler (trees)

variable {script front back : List Telling} {nodes nodes' : List Node} {node : Node}
  {definition : Definition} {header : Header}

/-- The script adds one node wherever a node can be added. -/
def Builds (script : List Telling) (node : Node) : Prop :=
  ∀ builder, (trees.sink.hear script).on builder = (attach node).on builder

/-- The script adds these nodes to a branch. -/
def Fills (script : List Telling) (nodes : List Node) : Prop :=
  ∀ label children outer roots,
    (trees.sink.hear script).on ⟨.branch label children :: outer, roots⟩ =
      (.ok (), ⟨.branch label (children ++ nodes.toArray) :: outer, roots⟩)

theorem on_attach_branch (label : Label) (children : Array Node) (outer : List OpenNode)
    (roots : Array Node) :
    (attach node).on ⟨.branch label children :: outer, roots⟩ =
      (.ok (), ⟨.branch label (children.push node) :: outer, roots⟩) := rfl

theorem Builds.fills (builds : Builds script node) : Fills script [node] := by
  intro label children outer roots
  rw [builds, on_attach_branch]
  simp

theorem fills_nil : Fills [] [] := by
  intro label children outer roots
  simp [Sink.hear]

theorem Fills.append (fills : Fills front nodes) (fills' : Fills back nodes') :
    Fills (front ++ back) (nodes ++ nodes') := by
  intro label children outer roots
  rw [Sink.heard_append (fills _ _ _ _) (fills' _ _ _ _)]
  simp

theorem fills_issue (issue : Issue) : Fills [.issue issue] [] := by
  intro label children outer roots
  simp [Sink.hear, trees]

theorem fills_missing_component (component : Definition) (path : String) (offset : Nat) :
    Fills [.event (.missing component path offset)]
      [.leaf ⟨none, component.name, component.type, offset, 0⟩ none] := by
  intro label children outer roots
  simp [Sink.hear, trees, Assembler.placeNode, on_attach_branch]

/-- What is told of an element that holds no others becomes a leaf. -/
theorem builds_leaf (path : String) (value : Option Octets)
    (single : definition.holds header = false) :
    Builds
      [.event (.enter definition header),
        .event (.field ⟨path, value, definition.type, header.offset⟩), .event .leave]
      (.leaf (.ofHeader definition header) value) := by
  intro builder
  rw [Definition.holds] at single
  simp [Sink.hear, Attempt.on_bind, trees, Assembler.placeNode, openNode, OpenNode.ofLabel, single,
    setValue, closeNode, OpenNode.close, Label.ofHeader]

theorem Builds.after_issue (builds : Builds script node) (issue : Issue) :
    Builds (.issue issue :: script) node :=
  builds

/-- What is told of an element that holds others becomes a branch. -/
theorem Fills.builds (fills : Fills script nodes) (holds : definition.holds header = true) :
    Builds (.event (.enter definition header) :: (script ++ [.event .leave]))
      (.branch (.ofHeader definition header) nodes) := by
  intro builder
  rw [Definition.holds] at holds
  have opened : (trees.sink.receive (.enter definition header)).on builder =
      (.ok (), ⟨.branch (.ofHeader definition header) #[] :: builder.stack, builder.roots⟩) := by
    simp [trees, Assembler.placeNode, openNode, OpenNode.ofLabel, holds, Label.ofHeader]
  rw [Sink.hear, Attempt.on_bind, opened]
  dsimp only
  rw [Sink.hear_append, Attempt.on_bind, fills]
  simp [Sink.hear, trees, Assembler.placeNode, closeNode, Attempt.on_bind, OpenNode.close]

theorem fills_leftOut (path : String) (definition : Definition) (header : Header) :
    Fills (Account.leftOut path definition header) [] := by
  obtain ⟨issue, -, -, told⟩ := Account.leftOut_eq path definition header
  exact told ▸ fills_issue issue

theorem fills_missing (path parent : String) (offset : Nat) (lacking : List Definition.Selection) :
    Fills (lacking.flatMap fun selection => Account.lacked path parent offset selection.definition)
      (lacking.map (Node.ofMissing offset)) := by
  induction lacking with
  | nil => exact fills_nil
  | cons selection rest ih =>
      rw [List.flatMap_cons, List.map_cons]
      exact ((fills_issue _).append (fills_missing_component _ _ _)).append ih

theorem fills_closing (mandatory : Bool) (path : String) (definition : Definition)
    (header : Header) (selected : List Definition.Selection) :
    Fills (Account.closing mandatory path definition header selected)
      (if mandatory then (definition.lacking selected).map (Node.ofMissing header.offset) else []) := by
  have chosen : Fills (Account.unchosen path definition header selected) [] := by
    rw [Account.unchosen]
    split
    · exact fills_issue _
    · exact fills_nil
  rw [Account.closing]
  split
  · dsimp only
    rw [Account.missing_eq_lacked]
    exact chosen.append (fills_missing _ _ _ _)
  · exact chosen.append fills_nil

variable {encoding : TagEncoding}

mutual

/-- Told the account of an element, a builder adds the tree of it. -/
theorem builds_ofElement (mandatory : Bool) (element : Element encoding) (formed : element.Formed)
    (path : String) (definition : Definition) (offset : Nat) :
    Builds (Account.ofElement mandatory path definition offset element)
      (.ofElement mandatory definition offset element) := by
  match element with
  | .leaf heading value =>
      rw [Element.Formed] at formed
      have single : definition.holds (heading.header offset) = false := by
        simp [Definition.holds, Header.constructed, Heading.header, formed]
      rw [Account.ofElement, Node.ofElement]
      split
      · exact (builds_leaf _ none single).after_issue _
      · exact builds_leaf _ (some value) single
  | .branch heading inside =>
      rw [Element.Formed] at formed
      rw [Account.ofElement, Node.ofElement]
      split
      · rename_i misformed
        have single : definition.holds (heading.header offset) = false := by
          simp [Definition.holds, misformed]
        exact (builds_leaf _ none single).after_issue _
      · rename_i unlike
        split
        · rename_i any
          have single : definition.holds (heading.header offset) = false := by
            simp [Definition.holds, Definition.constructed?_eq_none_iff.2 any]
          exact builds_leaf _ _ single
        · rename_i other
          have holds : definition.holds (heading.header offset) = true := by
            have branches := Definition.constructed?_of_isAny_eq_false unlike
              (Bool.eq_false_iff.2 other)
            simp [Definition.holds, branches, Header.constructed, Heading.header, formed.1]
          exact ((fills_ofChildren mandatory inside formed.2 _ definition _ []).append
            (fills_closing mandatory _ definition (heading.header offset) _)).builds holds

theorem fills_ofChildren (mandatory : Bool) (children : List (Element encoding))
    (formed : Element.FormedAll children) (path : String) (definition : Definition) (offset : Nat)
    (selected : List Definition.Selection) :
    Fills (Account.ofChildren mandatory path definition offset selected children)
      (Node.ofChildren mandatory definition offset selected children) := by
  match children with
  | [] =>
      rw [Account.ofChildren, Node.ofChildren]
      exact fills_nil
  | child :: rest =>
      rw [Element.FormedAll] at formed
      rw [Account.ofChildren, Node.ofChildren]
      refine Fills.append ?_ (fills_ofChildren mandatory rest formed.2 path definition _ _)
      cases definition.accept selected child.heading.tag with
      | none => exact fills_leftOut _ _ _
      | some selection =>
          exact (builds_ofElement mandatory child formed.1 path selection.definition offset).fills

end

end TreeBuilder

end BerRecords
