import FlowGraph.Graph.Network

/-! # Linking

    Linking turns connection records into links.  Every recorded connection, in the
    order of nodes, records and connections, is either valid or has a problem; of a
    control output only the first connection counts.  Then the valid ones are linked
    in the same order, so that of several links into one input the last one stays.

    Links to a data input make its node depend on the node at the other end. -/

namespace FlowGraph

/-- A valid connection. -/
inductive NewLink where
  | data (target : PortAddress) (link : PortLink)
  | control (source : PortAddress) (target : NodeHandle)

/-- Why recorded connections are not linked. -/
inductive LinkProblem where
  /-- The record names no slot of its node. -/
  | noSlot (guid name : String) (index : Nat)
  /-- The record belongs to an input. -/
  | onInput (guid label : String)
  /-- There is no node at the other end. -/
  | noNode (guid label target : String)
  /-- There is no slot at the other end. -/
  | noTarget (guid label target name : String) (index : Nat)
  /-- The two slots do not go together. -/
  | rejected (guid label target targetLabel : String) (reason : GraphError)
  deriving DecidableEq

/-- The warning about a problem in a graph. -/
def LinkProblem.message (graph : String) : LinkProblem → String
  | .noSlot guid name index =>
    "Graph '" ++ graph ++ "': node '" ++ guid ++ "' has no port '" ++ Port.slotText name index
      ++ "', connections skipped"
  | .onInput guid label =>
    "Graph '" ++ graph ++ "': connections recorded on input '" ++ label ++ "' of node '" ++ guid
      ++ "' skipped"
  | .noNode guid label target =>
    "Graph '" ++ graph ++ "': link " ++ guid ++ "." ++ label ++ " -> missing node '" ++ target
      ++ "' skipped"
  | .noTarget guid label target name index =>
    "Graph '" ++ graph ++ "': link " ++ guid ++ "." ++ label ++ " -> " ++ target ++ "."
      ++ Port.slotText name index ++ " targets a missing port, skipped"
  | .rejected guid label target targetLabel reason =>
    "Graph '" ++ graph ++ "': link " ++ guid ++ "." ++ label ++ " -> " ++ target ++ "."
      ++ targetLabel ++ " rejected: " ++ reason.message

namespace Network

/-! ## Checking records -/

/-- Check one connection of an output slot. -/
def checkConnection (n : Network) (conversions : Conversions) (source : GraphNode)
    (address : PortAddress) (output : Port) (c : PortConnection) :
    Option (Except LinkProblem NewLink) :=
  match n.handleOf c.nodeGuid with
  | none => some (.error (.noNode source.guid output.label c.nodeGuid))
  | some handle =>
    (n.node? handle).map fun target =>
      match target.portIndex c.portName c.portIndex with
      | none => .error (.noTarget source.guid output.label target.guid c.portName c.portIndex)
      | some i =>
        match target.ports[i]? with
        | none => .error (.noTarget source.guid output.label target.guid c.portName c.portIndex)
        | some input =>
          match Port.checkLink output input conversions with
          | .error e => .error (.rejected source.guid output.label target.guid input.label e)
          | .ok compatibility =>
            if output.isControl then .ok (.control address handle)
            else .ok (.data ⟨handle, i⟩ ⟨address, compatibility⟩)

/-- The connections of a record that count. -/
def countedConnections (output : Port) (r : PortData) : List PortConnection :=
  if output.isControl then r.connections.take 1 else r.connections

/-- Check the connections of a record. -/
def checkRecord (n : Network) (conversions : Conversions) (handle : NodeHandle)
    (source : GraphNode) (r : PortData) : List (Except LinkProblem NewLink) :=
  -- a record without connections may be of a slot that is not there
  if r.connections.isEmpty then []
  else
    match source.portIndex r.name r.index with
    | none => [.error (.noSlot source.guid r.name r.index)]
    | some i =>
      match source.ports[i]? with
      | none => [.error (.noSlot source.guid r.name r.index)]
      | some output =>
        if output.direction ≠ .output then [.error (.onInput source.guid output.label)]
        else
          (countedConnections output r).filterMap
            (n.checkConnection conversions source ⟨handle, i⟩ output)

/-- Check all recorded connections. -/
def checkAll (n : Network) (conversions : Conversions) : List (Except LinkProblem NewLink) :=
  n.placed.flatMap fun e => e.2.records.flatMap (n.checkRecord conversions e.1 e.2)

/-- The valid connections of some checked ones. -/
def validLinks (checked : List (Except LinkProblem NewLink)) : List NewLink :=
  checked.filterMap fun r =>
    match r with
    | .ok link => some link
    | .error _ => none

/-- The problems of some checked connections. -/
def problems (checked : List (Except LinkProblem NewLink)) : List LinkProblem :=
  checked.filterMap fun r =>
    match r with
    | .ok _ => none
    | .error problem => some problem

/-! ## Making links -/

/-- Link the input at a position of a node. -/
def linkInput (target : PortAddress) (link : PortLink) (x : GraphNode) : GraphNode :=
  let x := x.modifyPort target.port fun p => { p with link := some link }
  -- a node is no dependency of its own, and no other one is listed twice
  if link.source.node = target.node || x.dependencies.contains link.source.node then x
  else { x with dependencies := x.dependencies ++ [link.source.node] }

/-- Make a link. -/
def makeLink (n : Network) (link : NewLink) : Network :=
  match link with
  | .control source target =>
    { n with
      nodes := n.nodes.modify source.node fun x =>
        x.modifyPort source.port fun p => { p with target := some target } }
  | .data target link => { n with nodes := n.nodes.modify target.node (linkInput target link) }

/-- The warning about a link that replaces another one at a single input. -/
def replaceNotice (n : Network) (link : NewLink) : List LogLine :=
  match link with
  | .control _ _ => []
  | .data target _ =>
    match n.node? target.node, n.port? target with
    | some x, some p =>
      if p.link.isSome && p.capacity = .single then
        [⟨.warn, "Node '" ++ x.guid ++ "' input '" ++ p.label
          ++ "' linked more than once; the last link wins"⟩]
      else []
    | _, _ => []

/-- Make links in order, with the warnings. -/
def makeLinks (n : Network) : List NewLink → Network × List LogLine
  | [] => (n, [])
  | link :: rest =>
    let notice := n.replaceNotice link
    let (m, notices) := (n.makeLink link).makeLinks rest
    (m, notice ++ notices)

/-- The network without links. -/
def unlinked (n : Network) : Network := { n with nodes := n.nodes.map GraphNode.unlinked }

/-- Link all recorded connections anew; the number of links, and the warnings. -/
def link (n : Network) (conversions : Conversions) : Network × Nat × List LogLine :=
  let n := n.unlinked
  let checked := n.checkAll conversions
  let links := validLinks checked
  let (m, notices) := n.makeLinks links
  (m, links.length,
    (problems checked).map (fun p => ⟨.warn, p.message n.name⟩) ++ notices)

end Network
end FlowGraph
