import FlowGraph.Data.Graph
import FlowGraph.GraphError
import FlowGraph.LogLine

/-! # Building saved graphs

    Saved graphs put together step by step.  Steps that describe a node apply to
    the node added last; without one they do nothing. -/

namespace FlowGraph

/-- The name of the control input that every forward node has. -/
def flowInput : String := "input"

/-- One end of a connection. -/
structure SlotRef where
  guid : String
  port : String
  index : Nat := 0
  deriving DecidableEq, Inhabited, Repr

namespace GraphData

/-- Add a node without fields. -/
def addNode (g : GraphData) (guid type : String) : GraphData :=
  { g with nodes := g.nodes ++ [{ guid, type }] }

/-- The guid of the node added last. -/
def lastGuid (g : GraphData) : Option String := g.nodes.getLast?.map (·.guid)

/-- Change the last node of a list. -/
def modifyLastOf (f : NodeData → NodeData) : List NodeData → List NodeData
  | [] => []
  | [n] => [f n]
  | n :: m :: rest => n :: modifyLastOf f (m :: rest)

/-- Change the node added last. -/
def modifyLast (g : GraphData) (f : NodeData → NodeData) : GraphData :=
  { g with nodes := modifyLastOf f g.nodes }

/-- Set the simple fields. -/
def withFields (g : GraphData) (fields : Json) : GraphData :=
  g.modifyLast fun n => { n with serializedData := fields.compact }

/-- Set the generic arguments. -/
def withGenericArguments (g : GraphData) (arguments : List String) : GraphData :=
  g.modifyLast fun n => { n with genericArguments := arguments }

/-- Set the position. -/
def withPosition (g : GraphData) (p : Position) : GraphData :=
  g.modifyLast fun n => { n with position := p }

/-- Set the constant of an input slot. -/
def withConstant (g : GraphData) (port : String) (index : Nat) (value : Json) : GraphData :=
  g.modifyLast fun n => n.modifyPort port index fun p => { p with value := some value }

/-- Record a connection at its source.  A source that does not exist is left out,
    with a warning. -/
def connect (g : GraphData) (source target : SlotRef) : GraphData × List LogLine :=
  match g.node? source.guid with
  | some _ =>
    (g.modifyNode source.guid fun n => n.modifyPort source.port source.index fun p =>
      { p with connections := p.connections ++ [⟨target.guid, target.port, target.index⟩] }, [])
  | none =>
    (g, [⟨.warn, "GraphBuilder: connect from unknown node '" ++ source.guid ++ "' ignored"⟩])

/-- Record a connection to the control input of a node. -/
def connectControl (g : GraphData) (source : SlotRef) (target : String) :
    GraphData × List LogLine :=
  g.connect source ⟨target, flowInput, 0⟩

/-- Add a variable. -/
def addVariable (g : GraphData) (v : VariableData) : GraphData :=
  { g with vars := g.vars ++ [v] }

/-- Add a group. -/
def addGroup (g : GraphData) (group : NodeGroup) : GraphData :=
  { g with nodeGroups := g.nodeGroups ++ [group] }

/-- Add a local function. -/
def addFunction (g : GraphData) (name : String) (graph : GraphData) : GraphData :=
  { g with functions := g.functions ++ [(name, graph)] }

end GraphData

/-! ## Drafts -/

/-- A saved graph under construction. -/
structure GraphDraft where
  graph : GraphData
  /-- The warnings so far. -/
  log : List LogLine := []
  /-- How many guids were made up. -/
  made : Nat := 0

namespace GraphDraft

/-- Change the graph. -/
def update (d : GraphDraft) (f : GraphData → GraphData) : GraphDraft := { d with graph := f d.graph }

/-- Change the graph in a way that may need a warning. -/
def updateLogged (d : GraphDraft) (f : GraphData → GraphData × List LogLine) : GraphDraft :=
  let (graph, lines) := f d.graph
  { d with graph, log := d.log ++ lines }

/-- Add a node with a guid that is made up. -/
def addFresh (d : GraphDraft) (type : String) : GraphDraft :=
  let made := d.made + 1
  { d with graph := d.graph.addNode ("fresh-" ++ GraphError.number made) type, made }

end GraphDraft
end FlowGraph
