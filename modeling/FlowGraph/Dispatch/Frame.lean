import FlowGraph.Config
import FlowGraph.Dispatch.Process
import FlowGraph.Extensions
import FlowGraph.Graph.Basic

/-! # Frames

    What a step of a dispatch sees and cannot change: the engine, the graph that runs,
    the object that triggered the dispatch, what the entry was called with, and how
    deep the chain is nested.  A site is an executing node in a frame; through it a node
    reaches its own ports and variables. -/

namespace FlowGraph

/-! ## Calls -/

/-- The name and the arguments with which an entry is called. -/
structure EventCall where
  name : String
  arguments : List Value := []
  deriving DecidableEq, Inhabited

/-- The argument at a position, `null` if there is none. -/
def EventCall.argument (c : EventCall) (i : Nat) : Value := (c.arguments[i]?).getD .null

/-- A call with its return box. -/
structure Payload extends EventCall where
  returned : Option Value := none
  deriving DecidableEq, Inhabited

namespace Payload

/-- Fill the return box; a later value replaces an earlier one. -/
def answer (p : Payload) (v : Value) : Payload := { p with returned := some v }

/-- Empty the return box. -/
def take (p : Payload) : Option Value × Payload := (p.returned, { p with returned := none })

end Payload

/-! ## Frames -/

/-- What all dispatches of a host share. -/
structure Engine where
  config : EngineConfig := {}
  /-- The functions that every graph may call, by name. -/
  library : List (String × Graph) := []
  extensions : Extensions := .standard
  deriving Inhabited

/-- Whether nodes find a scheduler. -/
def Engine.hasScheduler (e : Engine) : Bool := e.extensions.hasScheduler

/-- The library function of a name. -/
def Engine.function? (e : Engine) (name : String) : Option Graph :=
  (e.library.find? (·.1 = name)).map Prod.snd

/-- Where a chain runs. -/
structure Frame where
  engine : Engine
  dispatchId : String
  graph : Graph
  trigger : Option ObjectRef
  call : EventCall
  /-- How many sub-executions and calls are under way. -/
  depth : Nat
  deriving Inhabited

/-- An executing node. -/
structure Site where
  frame : Frame
  node : NodeHandle
  deriving Inhabited

namespace Site

/-- The executing node. -/
def node? (site : Site) : Option GraphNode := site.frame.graph.node? site.node

/-- The guid of the executing node. -/
def guid (site : Site) : String := (site.node?.map (·.guid)).getD ""

/-- The limit on nesting. -/
def maxDepth (site : Site) : Nat := site.frame.engine.config.maxForwardDepth

/-! ## Ports -/

/-- The address of a slot. -/
def address? (site : Site) (name : String) (index : Nat) : Option PortAddress :=
  (site.node?.bind (·.portIndex name index)).map fun port => ⟨site.node, port⟩

/-- The number of slots of a port. -/
def portCount (site : Site) (name : String) : Nat := (site.node?.map (·.portCount name)).getD 0

/-- The value of a slot, `null` if there is no such slot. -/
def input (site : Site) (name : String) (index : Nat) (s : Store) : Value :=
  match site.address? name index with
  | some a => site.frame.graph.readPort s a
  | none => .null

/-- The values of all slots of a port. -/
def inputs (site : Site) (name : String) (s : Store) : List Value :=
  (List.range (site.portCount name)).map fun index => site.input name index s

/-- Write a slot, if there is one. -/
def output (site : Site) (name : String) (index : Nat) (v : Value) (s : Store) : Store :=
  match site.address? name index with
  | some a => site.frame.graph.writePort s a v
  | none => s

/-- The successor at a control output. -/
def successor (site : Site) (name : String) (index : Nat) : Option NodeHandle :=
  ((site.address? name index).bind site.frame.graph.port?).bind (·.target)

/-! ## Variables and objects -/

/-- The node's own variable of a field. -/
def ownVariable (site : Site) (field : String) : Option VarId :=
  site.node?.bind (·.ownVariable field)

/-- Whether a port takes objects of a kind in place of an unset input. -/
def admits (type : PortType) (kind : String) : Bool :=
  match type with
  | .any => true
  | .object wanted => wanted = "" || wanted = kind
  | _ => false

/-- The type of a port, `any` if there is no such port. -/
def portType (site : Site) (name : String) : PortType :=
  ((site.node?.bind (·.port? name 0)).map (·.type)).getD .any

/-- The object that triggered the dispatch, if it lives and a port takes its kind. -/
def triggerFor (site : Site) (name : String) (s : Store) : Option ObjectRef :=
  site.frame.trigger.filter fun ref =>
    !s.objects.isDestroyed ref && admits (site.portType name) ref.kind

/-- The object that the node acts on: the living one at an input, or else the trigger. -/
def target (site : Site) (name : String) (s : Store) : Option ObjectRef :=
  match site.input name 0 s with
  | .object ref => if s.objects.isDestroyed ref then site.triggerFor name s else some ref
  | _ => site.triggerFor name s

/-! ## Steps -/

/-- Read an input. -/
def read (site : Site) (name : String) : Exec Value := Exec.view (site.input name 0)

/-- Write an output. -/
def write (site : Site) (name : String) (v : Value) : Exec Unit :=
  Exec.update (site.output name 0 v)

/-- Continue with a node, or end the chain. -/
def select (_ : Site) (next : Option NodeHandle) : Exec Unit :=
  Exec.modify fun s => { s with next }

/-- Continue with the successor at a control output. -/
def continueWith (site : Site) (name : String) : Exec Unit := site.select (site.successor name 0)

/-- Fill the return box. -/
def answer (_ : Site) (v : Value) : Exec Unit :=
  Exec.modify fun s => { s with returned := some v }

/-- Report a message. -/
def message (site : Site) (text : String) : Exec Unit :=
  Exec.update (·.emit (.nodeMessage site.frame.dispatchId site.guid text))

end Site
end FlowGraph
