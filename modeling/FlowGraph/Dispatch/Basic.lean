import FlowGraph.Dispatch.Execution
import FlowGraph.Powers

/-! # Dispatching

    A dispatch starts at an entry and walks its chain to the end: before each node its
    dependency path is run, and then comes the node that it selected.

    The walk may go on for ever, so it is given fuel: how many nodes one below or
    behind the other a chain may reach.  With a limit on steps, `Dispatch.fuelFor` is
    enough for every graph; a dispatch that runs out of fuel is cut off and has no
    result.

    A node that fails ends the dispatch with its error; what was done stays done. -/

namespace FlowGraph

namespace Frame

/-! ## Nodes -/

/-- Report that a node starts or ends, if the host asked for it. -/
def announce (frame : Frame) (event : GraphEvent) : Exec Unit :=
  if frame.engine.config.emitNodeEvents then Exec.update (·.emit event) else pure ()

/-- Count a node; past the limit that is an error. -/
def count (frame : Frame) : Exec Unit := do
  Exec.modify fun s => { s with steps := s.steps + 1 }
  match frame.engine.config.maxChainSteps with
  | none => pure ()
  | some limit =>
    if limit < (← Exec.read (·.steps)) then Exec.fail (.stepLimitExceeded limit) else pure ()

/-- Report how a node ended, and end in the same way. -/
def conclude (frame : Frame) (guid : String) : Except GraphError Unit → Exec Unit
  | .ok () => frame.announce (.nodeCompleted frame.dispatchId guid)
  | .error e => do
    Exec.update (·.report .error ("Node '" ++ guid ++ "' failed: " ++ e.message))
    Exec.update (·.emit (.nodeFailed frame.dispatchId guid e.message))
    Exec.fail e

/-- Run a node. -/
def invoke (chain : Chain) (frame : Frame) (h : NodeHandle) : Exec Unit := do
  match frame.graph.node? h with
  | none => Exec.fail (.unknownNode h.text)
  | some n =>
    frame.count
    Exec.modify fun s => { s with trace := s.trace.push n.guid }
    frame.announce (.nodeStarted frame.dispatchId n.guid n.type)
    let result ← ((Site.mk frame h).execute chain n.behavior).attempt
    frame.conclude n.guid result

/-! ## Chains -/

/-- No successor is selected yet. -/
def clearNext : Exec Unit := Exec.modify fun s => { s with next := none }

/-- Run the dependency path of a node and then the node; the successor it selected. -/
def runNode (chain : Chain) (frame : Frame) (h : NodeHandle) : Exec (Option NodeHandle) := do
  clearNext
  let path ← Exec.ofResult (frame.graph.dependencyPath h)
  Exec.forEach path (frame.invoke chain)
  clearNext
  frame.invoke chain h
  let next ← Exec.read (·.next)
  clearNext
  return next

/-- Run the chain that starts at a node. -/
def runChain : (fuel : Nat) → Chain
  | 0, _, _ => fun s => .exhausted s
  | fuel + 1, frame, h => do
    match ← frame.runNode (runChain fuel) h with
    | some next => runChain fuel frame next
    | none => pure ()

end Frame

/-! ## Requests -/

/-- Where a dispatch starts. -/
inductive Entry where
  /-- The first entry that answers to an event. -/
  | event (name : String)
  /-- A node. -/
  | node (guid : String)
  deriving DecidableEq, Inhabited, Repr

namespace Entry

/-- The name of the event, or the guid of the node. -/
def name : Entry → String
  | .event name => name
  | .node guid => guid

/-- The entry in messages. -/
def text : Entry → String
  | .event name => "event '" ++ name ++ "'"
  | .node guid => "node '" ++ guid ++ "'"

/-- The node to start at. -/
def find? (n : Network) : Entry → Option NodeHandle
  | .event name => n.findEntry name
  | .node guid => n.handleOf guid

end Entry

/-- A request for a dispatch. -/
structure DispatchRequest where
  entry : Entry
  /-- The object that nodes without a target of their own act on. -/
  trigger : Option ObjectRef := none
  payload : Option Payload := none
  deriving Inhabited

namespace DispatchRequest

/-- The payload; by default it is named by the entry and has no arguments. -/
def effectivePayload (r : DispatchRequest) : Payload :=
  r.payload.getD { name := r.entry.name }

/-- The request with some arguments. -/
def withArguments (r : DispatchRequest) (arguments : List Value) : DispatchRequest :=
  { r with payload := some { name := r.entry.name, arguments } }

end DispatchRequest

/-- What a completed dispatch did. -/
structure DispatchOutcome where
  dispatchId : String
  /-- The guid of the entry. -/
  entry : String
  /-- How many nodes were executed, the repetitions of dependencies included. -/
  nodesExecuted : Nat
  /-- The guids of the executed nodes, in order. -/
  trace : List String
  /-- What the return box held. -/
  returned : Option Value
  deriving DecidableEq, Inhabited

/-- How often a node was executed. -/
def DispatchOutcome.runsOf (o : DispatchOutcome) (guid : String) : Nat := o.trace.count guid

namespace Dispatch

/-! ## Dispatches -/

/-- Report how a dispatch ended. -/
def conclude (graph dispatchId entry : String) : Except GraphError Unit → Exec DispatchOutcome
  | .ok () => do
    let steps ← Exec.read (·.steps)
    Exec.update (·.emit (.dispatchCompleted graph dispatchId steps))
    Exec.read fun s => ⟨dispatchId, entry, steps, s.trace.toList, s.returned⟩
  | .error e => do
    Exec.update (·.report .warn
      ("Dispatch " ++ dispatchId ++ " on graph '" ++ graph ++ "' failed: " ++ e.message))
    Exec.update (·.emit (.dispatchFailed graph dispatchId e.message))
    Exec.fail e

/-- Run a graph from an entry node. -/
def run (fuel : Nat) (frame : Frame) (entry : NodeHandle) : Exec DispatchOutcome := do
  let guid := ((frame.graph.node? entry).map (·.guid)).getD ""
  Exec.update (·.emit (.dispatchStarted frame.graph.name frame.dispatchId guid))
  let result ← (Frame.runChain fuel frame entry).attempt
  conclude frame.graph.name frame.dispatchId guid result

/-- Enough fuel for a configuration with a limit on steps: each node on the way down
    or on takes one step.  Without a limit, what few graphs that end will reach. -/
def fuelFor (config : EngineConfig) : Nat :=
  match config.maxChainSteps with
  | some limit => limit + 2
  | none => tenTo 15

/-- Dispatch a request.  Only a runnable graph that has the entry starts. -/
def start (fuel : Nat) (engine : Engine) (g : Graph) (r : DispatchRequest) (s : Store) :
    Process DispatchOutcome :=
  if !g.isRunnable s then .done (.error (.notCompiled g.name)) { store := s }
  else
    match r.entry.find? g.toNetwork with
    | none => .done (.error (.unknownEntry r.entry.text)) { store := s }
    | some entry =>
      let payload := r.effectivePayload
      let (dispatchId, s) := s.freshDispatch
      run fuel ⟨engine, dispatchId, g, r.trigger, payload.toEventCall, 0⟩ entry
        { store := s, returned := payload.returned }

end Dispatch
end FlowGraph
