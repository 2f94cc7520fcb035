import BerRecords.DeclaredType
import BerRecords.Element.Drive

/-!
# Element trees

A node is a closed element: a leaf with its value, or a branch with its children.
Nodes are built from signals, or from what a schema says about them. A node joins
its parent only when it closes, so an unfinished element leaves nothing behind.
-/

set_option autoImplicit false

namespace BerRecords

/-- What is known of a node. A component that never appeared has no tag. -/
structure Label where
  tag : Option Tag
  name : Option String
  type : Option DeclaredType
  offset : Nat
  length : Nat
  deriving DecidableEq, Repr

inductive Node where
  | leaf (label : Label) (value : Option Octets)
  | branch (label : Label) (children : List Node)

namespace Node

def label : Node → Label
  | leaf label _ | branch label _ => label

def isBranch : Node → Bool
  | leaf .. => false
  | branch .. => true

def children : Node → List Node
  | leaf .. => []
  | branch _ children => children

def value? : Node → Option Octets
  | leaf _ value => value
  | branch .. => none

def child? (node : Node) (name : String) : Option Node :=
  node.children.find? (·.label.name = some name)

mutual

def count : Node → Nat
  | leaf .. => 1
  | branch _ children => countAll children + 1

def countAll : List Node → Nat
  | [] => 0
  | node :: rest => node.count + countAll rest

end

end Node

inductive OpenNode where
  | leaf (label : Label) (value : Option Octets)
  | branch (label : Label) (children : Array Node)

def OpenNode.close : OpenNode → Node
  | leaf label value => .leaf label value
  | branch label children => .branch label children.toList

def OpenNode.ofLabel (constructed : Bool) (label : Label) : OpenNode :=
  if constructed then branch label #[] else leaf label none

/-- Open nodes, innermost first, and the trees that are complete. -/
structure TreeBuilder where
  stack : List OpenNode
  roots : Array Node

namespace TreeBuilder

def empty : TreeBuilder :=
  ⟨[], #[]⟩

def isIdle (builder : TreeBuilder) : Bool :=
  builder.stack.isEmpty

def abandon (builder : TreeBuilder) : TreeBuilder :=
  { builder with stack := [] }

def takeRoots (builder : TreeBuilder) : List Node × TreeBuilder :=
  (builder.roots.toList, { builder with roots := #[] })

def takeRoot (builder : TreeBuilder) : Option Node × TreeBuilder :=
  (builder.roots.back?, { builder with roots := builder.roots.pop })

def openNode (node : OpenNode) : Attempt TreeBuilder Unit :=
  modify fun builder => { builder with stack := node :: builder.stack }

/-- Puts a closed node into the innermost open one, or among the complete trees. -/
def attach (node : Node) : Attempt TreeBuilder Unit := do
  let builder ← get
  match builder.stack with
  | [] => set { builder with roots := builder.roots.push node }
  | .branch label children :: outer =>
    set { builder with stack := .branch label (children.push node) :: outer }
  | .leaf .. :: _ => throw <| .unbalanced "" .nodeInPrimitive

def closeNode : Attempt TreeBuilder Unit := do
  let builder ← get
  match builder.stack with
  | [] => throw <| .unbalanced "" .nodeCloseOutside
  | top :: outer =>
    set { builder with stack := outer }
    attach top.close

def setValue (value : Option Octets) : Attempt TreeBuilder Unit := do
  let builder ← get
  match builder.stack with
  | [] => throw <| .unbalanced "" .valueOutside
  | .branch .. :: _ => throw <| .unbalanced "" .valueInConstructedNode
  | .leaf label _ :: outer => set { builder with stack := .leaf label value :: outer }

def visitor : Visitor TreeBuilder
  | .start header =>
    openNode <| .ofLabel header.constructed ⟨header.tag, none, none, header.offset, header.length⟩
  | .value octets => setValue octets
  | .stop _ => closeNode

end TreeBuilder

def Node.ofSource (encoding : TagEncoding) (source : Source) : Except DecodeError (List Node) :=
  let reader := Reader.ofSource encoding Reader.defaultMaxDepth source
  match reader.process TreeBuilder.visitor .empty with
  | (.ok (), _, builder) => .ok builder.takeRoots.1
  | (.error error, _, _) => .error error

end BerRecords
