import FlowGraph.Dependency
import FlowGraph.Registry
import FlowGraph.Store

/-! # Networks

    The nodes of one graph with their ports and links.  Nodes are kept in an arena;
    `order` lists them as they were added.  A node's guid is its name outside, its
    handle its name inside.

    A network does not change while it runs: values are in the store. -/

namespace FlowGraph

/-- A node placed in a network. -/
structure GraphNode where
  guid : String
  position : Position
  /-- The type text it is saved with. -/
  type : String
  identity : TypeIdentity
  genericArguments : List PortType
  descriptor : NodeDescriptor
  behavior : Behavior
  /-- What a placeholder keeps. -/
  invalid : Option InvalidNode
  ports : List Port
  records : List PortData
  /-- Its own variables, by field. -/
  vars : List (String × VarId)
  /-- The other nodes with a data link into it, in the order of the links. -/
  dependencies : List NodeHandle

namespace GraphNode

/-- Whether the node stands for one of an unknown type. -/
def isPlaceholder (n : GraphNode) : Bool := n.invalid.isSome

/-- The position of a slot among the ports. -/
def portIndex (n : GraphNode) (name : String) (index : Nat) : Option Nat :=
  n.ports.findIdx? (·.isSlot name index)

/-- A slot. -/
def port? (n : GraphNode) (name : String) (index : Nat) : Option Port :=
  (n.portIndex name index).bind (n.ports[·]?)

/-- The number of slots of a port. -/
def portCount (n : GraphNode) (name : String) : Nat := n.ports.countP (·.name = name)

/-- The variable of a field. -/
def ownVariable (n : GraphNode) (field : String) : Option VarId :=
  (n.vars.find? (·.1 = field)).map Prod.snd

/-- Change the port at a position. -/
def modifyPort (n : GraphNode) (i : Nat) (f : Port → Port) : GraphNode :=
  { n with ports := n.ports.modify i f }

/-- The node with the slots that its records ask for, all unlinked. -/
def laidOut (n : GraphNode) : GraphNode :=
  { n with ports := Layout.portsOf n.records n.descriptor.ports }

/-- What the slots hold after the node was laid out. -/
def initialValues (n : GraphNode) : List Value :=
  Layout.initialValues n.records n.descriptor.ports

/-- The node without links and dependencies. -/
def unlinked (n : GraphNode) : GraphNode :=
  { n with ports := n.ports.map Port.unlinked, dependencies := [] }

end GraphNode

/-- The nodes of a graph. -/
structure Network where
  /-- Where the store keeps what changes while the graph runs. -/
  id : GraphId
  name : String
  nodes : Arena GraphNode := {}
  order : List NodeHandle := []
  blackboard : Blackboard := []
  /-- The dependency path of each node, by positions in `order`. -/
  paths : Option (List (List Nat)) := none

namespace Network

/-! ## Look-up -/

/-- The node of a handle. -/
def node? (n : Network) (h : NodeHandle) : Option GraphNode := n.nodes.get? h

/-- The handle of a guid. -/
def handleOf (n : Network) (guid : String) : Option NodeHandle :=
  (n.nodes.toList.find? fun e => e.2.guid = guid).map Prod.fst

/-- The node of a guid. -/
def nodeOf (n : Network) (guid : String) : Option GraphNode := (n.handleOf guid).bind n.node?

/-- The nodes as they were added. -/
def placed (n : Network) : List (NodeHandle × GraphNode) :=
  n.order.filterMap fun h => (n.node? h).map fun x => (h, x)

/-- The position of a node in the order. -/
def indexOf (n : Network) (h : NodeHandle) : Option Nat := n.order.findIdx? (· = h)

/-- The node at a position in the order. -/
def handleAt (n : Network) (i : Nat) : Option NodeHandle := n.order[i]?

/-- The number of nodes. -/
def size (n : Network) : Nat := n.nodes.size

/-- The slot at an address. -/
def port? (n : Network) (a : PortAddress) : Option Port := (n.node? a.node).bind (·.ports[a.port]?)

/-- The address of a port by its position. -/
def addressAt? (n : Network) (guid : String) (i : Nat) : Option PortAddress :=
  ((n.handleOf guid).map fun node => ⟨node, i⟩).filter fun a => (n.port? a).isSome

/-- The address of a slot. -/
def address? (n : Network) (guid port : String) (index : Nat) : Option PortAddress :=
  ((n.nodeOf guid).bind fun x => x.portIndex port index).bind (n.addressAt? guid)

/-- The first entry that answers to a name. -/
def findEntry (n : Network) (name : String) : Option NodeHandle :=
  (n.placed.find? fun e => e.2.behavior.entryName = some name).map Prod.fst

/-- The nodes to run before a node. -/
def dependencyPath (n : Network) (h : NodeHandle) : Except GraphError (List NodeHandle) :=
  match n.paths with
  | none => .error (.notCompiled n.name)
  | some paths =>
    match n.indexOf h with
    | none => .error (.unknownNode h.text)
    | some i => .ok (((paths[i]?).getD []).filterMap n.handleAt)

/-! ## Values -/

/-- The value of a port: of its source, through the link, if it is linked, else what
    its slot holds.  If the source is gone it is the default of the port's type. -/
def readPort (n : Network) (s : Store) (a : PortAddress) : Value :=
  match n.port? a with
  | none => .null
  | some port =>
    match port.link with
    | none => s.cell n.id a
    | some link =>
      match n.port? link.source with
      | some _ => link.compatibility.convert s.objects (s.cell n.id link.source)
      | none => Value.defaultFor port.type

/-- Write the slot of a port. -/
def writePort (n : Network) (s : Store) (a : PortAddress) (v : Value) : Store :=
  match n.port? a with
  | some _ => s.writeCell n.id a v
  | none => s

/-! ## Dependencies -/

/-- Which nodes need which, by positions in the order. -/
def dependencies (n : Network) : Dependencies where
  edges := (n.placed.map fun e => e.2.dependencies.filterMap n.indexOf).toArray
  forward := (n.placed.map fun e => decide (e.2.descriptor.path = .forward)).toArray
  names := (n.placed.map fun e => e.2.guid).toArray

end Network
end FlowGraph
