import FlowGraph.Graph.Save

/-! # Hydrating and editing

    A graph is hydrated from its saved form node by node, and edited while it is
    live.  Edits change records; links follow at the next compilation.  Laying a
    node out anew drops its links and gives its slots their first values. -/

namespace FlowGraph

namespace Graph

/-! ## Nodes -/

/-- The variable that a node declares: named by the field, described by it, or of
    the field's own name if there is none. -/
def declaredVariable (guid : String) (fields : Json) (d : VariableDescriptor) :
    VariableData × List LogLine :=
  let named (name : String) : VariableData := { name, valueType := d.type, isShared := true }
  match fields.get? d.field with
  | none => ({ named d.field with isShared := false }, [])
  | some (.str name) => (named name, [])
  | some j =>
    match Json.decodeWith VariableData.decode j with
    | .ok data => (data, [])
    | .error _ =>
      (named d.field,
        [⟨.warn, "Node '" ++ guid ++ "': malformed variable '" ++ d.field ++ "': *"⟩])

/-- Make the variables that a node declares. -/
def makeVariables (guid : String) (fields : Json) :
    List VariableDescriptor → Work (List (String × VarId))
  | [] => return []
  | d :: rest => do
    let (data, notices) := declaredVariable guid fields d
    modify (·.reportAll notices)
    let s ← get
    let (v, vars) := s.vars.add (Variable.ofData data)
    set { s with vars }
    let others ← makeVariables guid fields rest
    return (d.field, v) :: others

/-- Make a node that is not placed yet. -/
def makeNode (data : NodeData) (resolved : ResolvedNode) : Work GraphNode := do
  modify (·.reportAll (Layout.notices data.guid data.ports resolved.descriptor.ports))
  let vars ← makeVariables data.guid data.fields resolved.descriptor.vars
  return {
    guid := data.guid
    position := data.position
    type := if resolved.redirectedFrom.isSome then resolved.identity.text else data.type
    identity := resolved.identity
    genericArguments := resolved.genericArguments
    descriptor := resolved.descriptor
    behavior := resolved.behavior
    invalid := resolved.invalid
    ports := Layout.portsOf data.ports resolved.descriptor.ports
    records := data.ports
    vars
    dependencies := [] }

/-- Give a node a fresh guid if its own is empty or taken. -/
def ensureGuid (g : Graph) (n : GraphNode) : Work GraphNode := do
  if n.guid = "" || (g.handleOf n.guid).isSome then
    let s ← get
    let (fresh, s) := s.freshGuid
    set (s.report .warn ("Graph '" ++ g.name ++ "': duplicate or empty node guid '" ++ n.guid
      ++ "', reassigned to '" ++ fresh ++ "'"))
    return { n with guid := fresh }
  else return n

/-- Place a node. -/
def insert (g : Graph) (n : GraphNode) : Work (NodeHandle × Graph) := do
  let n ← g.ensureGuid n
  match n.invalid with
  | some invalid =>
    modify (·.report .warn ("Graph '" ++ g.name ++ "': node '" ++ n.guid ++ "' of missing type '"
      ++ invalid.type ++ "' loaded as placeholder"))
  | none => pure ()
  let (h, nodes) := g.nodes.insert n
  modify (·.fill g.id h n.initialValues)
  return (h, { g with nodes, order := g.order ++ [h] }.invalidate)

/-- Add a saved node. -/
def addNode (g : Graph) (registry : Registry) (data : NodeData) : Work (NodeHandle × Graph) := do
  modify (·.reportAll (registry.resolveNotices data))
  let n ← makeNode data (registry.resolve data)
  g.insert n

/-- Add a live node that no registry knows. -/
def addLive (g : Graph) (guid : String) (descriptor : NodeDescriptor) (behavior : Behavior) :
    Work (NodeHandle × Graph) := do
  let data : NodeData := { guid, type := descriptor.identity.text }
  let n ← makeNode data ⟨descriptor.identity, [], descriptor, behavior, none, none⟩
  g.insert n

/-- Lay a node out anew. -/
def layOut (g : Graph) (h : NodeHandle) : Work Graph := do
  match g.node? h with
  | none => return g
  | some n =>
    modify (·.reportAll (Layout.notices n.guid n.records n.descriptor.ports))
    modify (·.fill g.id h n.initialValues)
    return { g with nodes := g.nodes.modify h GraphNode.laidOut }

/-- Change the records of a node. -/
def modifyRecords (g : Graph) (h : NodeHandle) (f : List PortData → List PortData) : Graph :=
  { g with nodes := g.nodes.modify h fun n => { n with records := f n.records } }

/-! ## Hydrating -/

/-- A connected slot of an array port that its node has no record of. -/
structure MissingSlot where
  handle : NodeHandle
  port : String
  index : Nat
  deriving DecidableEq, Inhabited

/-- The missing slot at the end of a connection, or the warning about it. -/
def missingSlot (g : Graph) (source : GraphNode) (c : PortConnection) :
    List (MissingSlot ⊕ LogLine) :=
  match g.handleOf c.nodeGuid with
  | none => []
  | some handle =>
    match g.node? handle with
    | none => []
    | some target =>
      if !target.descriptor.isArray c.portName || (target.port? c.portName c.portIndex).isSome then
        []
      else if maxArraySlots ≤ c.portIndex then
        [.inr ⟨.warn, "Graph '" ++ g.name ++ "': link " ++ source.guid ++ " -> " ++ c.nodeGuid
          ++ "." ++ Port.slotText c.portName c.portIndex ++ " is past the array limit, skipped"⟩]
      else [.inl ⟨handle, c.portName, c.portIndex⟩]

/-- All missing slots and warnings, in slot order of the sources. -/
def missingSlots (g : Graph) : List (MissingSlot ⊕ LogLine) :=
  g.nodes.toList.flatMap fun e =>
    (e.2.records.flatMap (·.connections)).flatMap (g.missingSlot e.2)

/-- Record a slot, unless it is recorded. -/
def recordSlot (name : String) (index : Nat) (records : List PortData) : List PortData :=
  if records.any (·.isFor name index) then records else records ++ [{ name := name, index := index }]

/-- Without repetitions, each element where it stands first. -/
def distinct (hs : List NodeHandle) : List NodeHandle :=
  hs.foldl (fun seen h => if seen.contains h then seen else seen ++ [h]) []

/-- Lay several nodes out anew. -/
def layOutAll (g : Graph) : List NodeHandle → Work Graph
  | [] => return g
  | h :: rest => do
    let g ← g.layOut h
    g.layOutAll rest

/-- Give array ports a slot for every connection into them.  Connections stand on
    the output side, so the node at the other end may not know of the slot. -/
def addIncomingSlots (g : Graph) : Work Graph := do
  let found := g.missingSlots
  modify (·.reportAll (found.filterMap fun r => r.getRight?))
  let missing := found.filterMap fun r => r.getLeft?
  let g := missing.foldl (fun g m => g.modifyRecords m.handle (recordSlot m.port m.index)) g
  g.layOutAll (distinct (missing.map (·.handle)))

/-- Add several saved nodes. -/
def addNodes (g : Graph) (registry : Registry) : List NodeData → Work Graph
  | [] => return g
  | data :: rest => do
    let (_, g) ← g.addNode registry data
    g.addNodes registry rest

/-- Add saved variables to the blackboard. -/
def addVariables (g : Graph) : List VariableData → Work Graph
  | [] => return g
  | data :: rest => do
    let s ← get
    let (v, vars) := s.vars.add (Variable.ofData data)
    set { s with vars }
    addVariables { g with blackboard := g.blackboard ++ [v] } rest

mutual

/-- Hydrate a saved graph.  Types that cannot be resolved make placeholders. -/
def ofData (registry : Registry) : GraphData → Work Graph
  | ⟨name, nodes, vars, groups, functions⟩ => do
    let g ← create name
    let g ← g.addNodes registry nodes
    let g ← g.addVariables vars
    let g ← g.addIncomingSlots
    let functions ← functionsOfData registry functions
    return { g with groups, functions }

/-- Hydrate each function. -/
def functionsOfData (registry : Registry) :
    List (String × GraphData) → Work (List (String × Graph))
  | [] => return []
  | (name, data) :: rest => do
    let g ← ofData registry data
    let others ← functionsOfData registry rest
    return (name, g) :: others

end

/-! ## Editing -/

/-- Remove a node, the connections to it and its places in groups; its saved form. -/
def removeNode (g : Graph) (vs : Variables) (h : NodeHandle) : Option NodeData × Graph :=
  match g.nodes.remove h with
  | none => (none, g)
  | some (removed, nodes) =>
    let keep (r : PortData) : PortData :=
      { r with connections := r.connections.filter (·.nodeGuid ≠ removed.guid) }
    let nodes := nodes.map fun n => { n with records := n.records.map keep }
    -- the saved form keeps the removed node's own connections
    let groups := g.groups.map fun group =>
      { group with nodes := group.nodes.filter (· ≠ removed.guid) }
    (some (removed.toData vs),
      { g with nodes, groups, order := g.order.filter (· ≠ h) }.invalidate)

/-- Add a connection to a record, unless it is there. -/
def addConnection (c : PortConnection) (r : PortData) : PortData :=
  if r.connections.contains c then r else { r with connections := r.connections ++ [c] }

/-- Give the target of a connection its slot, if it is one of an array port. -/
def openSlot (g : Graph) (target : SlotRef) : Work Graph := do
  match g.handleOf target.guid with
  | none => return g
  | some h =>
    match g.node? h with
    | none => return g
    | some n =>
      if n.descriptor.isArray target.port && (n.port? target.port target.index).isNone then
        (g.modifyRecords h (· ++ [{ name := target.port, index := target.index }])).layOut h
      else return g

/-- Record a connection from an output slot to an input slot. -/
def connect (g : Graph) (source target : SlotRef) : Work (Except GraphError Graph) := do
  if (g.handleOf target.guid).isNone then return .error (.unknownNode target.guid)
  match g.handleOf source.guid with
  | none => return .error (.unknownNode source.guid)
  | some h =>
    match g.node? h with
    | none => return .error (.unknownNode source.guid)
    | some n =>
      match n.descriptor.port? source.port with
      | none => return .error (.unknownPort source.guid source.port)
      | some declared =>
        if declared.direction ≠ .output then
          return .error (.invalidDirection source.port target.port)
        else
          let c : PortConnection := ⟨target.guid, target.port, target.index⟩
          let g := g.modifyRecords h
            (NodeData.modifyRecord source.port source.index (addConnection c))
          -- the record may be of a slot that the output lacked
          let g ← if declared.array then g.layOut h else pure g
          let g ← g.openSlot target
          return .ok g.invalidate

/-- Set the constant of an input slot.  The record is written first; if it then
    turns out that there is no such slot, that is an error, and the record stays. -/
def setConstant (g : Graph) (slot : SlotRef) (value : Value) :
    Work (Graph × Except GraphError Unit) := do
  match g.handleOf slot.guid with
  | none => return (g, .error (.unknownNode slot.guid))
  | some h =>
    match g.node? h with
    | none => return (g, .error (.unknownNode slot.guid))
    | some n =>
      match n.descriptor.port? slot.port with
      | none => return (g, .error (.unknownPort slot.guid slot.port))
      | some declared =>
        let g := g.modifyRecords h
          (NodeData.modifyRecord slot.port slot.index fun r => { r with value := some value.toJson })
        match n.portIndex slot.port slot.index with
        | some i =>
          modify (·.writeCell g.id ⟨h, i⟩ value)
          return (g, .ok ())
        | none =>
          if declared.array then
            let g ← g.layOut h
            return (g, .ok ())
          else return (g, .error (.unknownPort slot.guid (Port.slotText slot.port slot.index)))

/-- Add a local function, in place of one of the same name. -/
def addFunction (g : Graph) (name : String) (f : Graph) : Graph :=
  { g with functions := g.functions.filter (·.1 ≠ name) ++ [(name, f)], compiled := false }

/-- Add a group. -/
def addGroup (g : Graph) (group : NodeGroup) : Graph := { g with groups := g.groups ++ [group] }

/-- Forget the dependency paths. -/
def clearPaths (g : Graph) : Graph := { g with paths := none, compiled := false }

end Graph
end FlowGraph
