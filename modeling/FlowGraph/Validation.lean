import FlowGraph.Data.Graph
import FlowGraph.Dependency
import FlowGraph.Registry

/-! # Validation

    All structural problems of a saved graph at once, for authoring tools.  Compiling
    tolerates most of them, by placeholders and skipped links, and reports them one
    by one; validation never makes a live graph.

    The problems are listed in this order: repeated guids, unknown types, bad
    connections, at most one cycle, and then those of each local function. -/

namespace FlowGraph

/-- Why two declared ports cannot be linked. -/
inductive LinkFault where
  | notAnInput
  | kinds (source target : PortKind)
  | noConversion (source target : PortType)
  deriving DecidableEq, Repr

/-- The wording of a fault. -/
def LinkFault.message : LinkFault → String
  | .notAnInput => "target is not an input"
  | .kinds source target => source.title ++ " port linked to " ++ target.title ++ " port"
  | .noConversion source target => "no conversion " ++ source.text ++ " -> " ++ target.text

/-- A structural problem of a saved graph. -/
inductive ValidationError where
  | duplicateGuid (guid : String)
  /-- The type is not known, or not with these generic arguments. -/
  | unknownNodeType (guid type : String)
  | unknownNode (source guid : String)
  | unknownPort (guid port : String) (index : Nat)
  | connectionOnInput (guid port : String)
  /-- The ends are named by guid and port. -/
  | incompatiblePorts (source target : String) (fault : LinkFault)
  | circularDependency (chain : List String)
  deriving DecidableEq, Repr

/-- The name of a problem's kind. -/
def ValidationError.name : ValidationError → String
  | .duplicateGuid _ => "DuplicateGuid"
  | .unknownNodeType _ _ => "UnknownNodeType"
  | .unknownNode _ _ => "UnknownNode"
  | .unknownPort _ _ _ => "UnknownPort"
  | .connectionOnInput _ _ => "ConnectionOnInput"
  | .incompatiblePorts _ _ _ => "IncompatiblePorts"
  | .circularDependency _ => "CircularDependency"

/-- The wording of a problem. -/
def ValidationError.message : ValidationError → String
  | .duplicateGuid guid => "Duplicate node guid '" ++ guid ++ "'"
  | .unknownNodeType guid type => "Unknown node type '" ++ type ++ "' for node '" ++ guid ++ "'"
  | .unknownNode source guid =>
    "Connection from '" ++ source ++ "' references unknown node '" ++ guid ++ "'"
  | .unknownPort guid port index =>
    "Node '" ++ guid ++ "' has no port '" ++ port ++ "[" ++ GraphError.number index ++ "]'"
  | .connectionOnInput guid port =>
    "Connections recorded on input '" ++ port ++ "' of node '" ++ guid ++ "'"
  | .incompatiblePorts source target fault =>
    "Link " ++ source ++ " -> " ++ target ++ " is incompatible: " ++ fault.message
  | .circularDependency chain => "Circular dependency: " ++ String.intercalate " -> " chain

namespace Validation

/-! ## Nodes -/

/-- An error for each node whose guid was seen before. -/
def repeatedGuids (seen : List String) : List NodeData → List ValidationError
  | [] => []
  | n :: rest =>
    (if seen.contains n.guid then [.duplicateGuid n.guid] else [])
      ++ repeatedGuids (n.guid :: seen) rest

/-- The port type of a text, if it is one. -/
def argument? (text : String) : Option PortType := (PortType.parse text).toOption

/-- The descriptor of a saved node, with its generic arguments filled in. -/
def declare (registry : Registry) (n : NodeData) : Except ValidationError NodeDescriptor :=
  match (registry.resolveIdentity (TypeIdentity.parse n.type)).bind registry.find? with
  | none => .error (.unknownNodeType n.guid n.type)
  | some t =>
    match (n.genericArguments.mapM argument?).bind t.descriptor.instantiate with
    | some d => .ok d
    | none => .error (.unknownNodeType n.guid (Registry.appliedText n))

/-- The known descriptors by guid. -/
abbrev Declared := List (String × NodeDescriptor)

/-- The descriptors of all nodes that have one. -/
def declared (registry : Registry) (nodes : List NodeData) : Declared :=
  nodes.filterMap fun n => (declare registry n).toOption.map fun d => (n.guid, d)

/-- The nodes without a descriptor. -/
def undeclared (registry : Registry) (nodes : List NodeData) : List ValidationError :=
  nodes.filterMap fun n =>
    match declare registry n with
    | .ok _ => none
    | .error e => some e

/-- The descriptor of the first declared node of a guid. -/
def Declared.find? (ds : Declared) (guid : String) : Option NodeDescriptor :=
  (List.find? (fun e => e.1 = guid) ds).map Prod.snd

/-! ## Connections -/

/-- The declared port of a slot; only array ports have slots beyond the first. -/
def slot? (d : NodeDescriptor) (name : String) (index : Nat) : Option PortDescriptor :=
  (d.port? name).filter fun p => p.array || index = 0

/-- Why an output cannot be linked to a port. -/
def fault? (conversions : Conversions) (output port : PortDescriptor) : Option LinkFault :=
  if port.direction ≠ .input then some .notAnInput
  else if output.kind ≠ port.kind then some (.kinds output.kind port.kind)
  else if !output.isControl && (conversions.compatibility output.type port.type).isNone then
    some (.noConversion output.type port.type)
  else none

/-- The guids at the ends of a data link. -/
structure DataLink where
  source : String
  target : String
  deriving DecidableEq, Repr

/-- Check a connection.  If the type of its source is not known, only its target is
    looked at. -/
def checkConnection (g : GraphData) (ds : Declared) (conversions : Conversions)
    (guid : String) (output : Option PortDescriptor) (c : PortConnection) :
    Except ValidationError (Option DataLink) :=
  if !(g.nodes.any (·.guid = c.nodeGuid)) then .error (.unknownNode guid c.nodeGuid)
  else
    match ds.find? c.nodeGuid with
    | none => .ok none
    | some target =>
      match slot? target c.portName c.portIndex with
      | none => .error (.unknownPort c.nodeGuid c.portName c.portIndex)
      | some port =>
        match output with
        | none => .ok none
        | some output =>
          match fault? conversions output port with
          | some fault =>
            .error (.incompatiblePorts (guid ++ "." ++ output.name)
              (c.nodeGuid ++ "." ++ port.name) fault)
          | none => .ok (if output.isControl then none else some ⟨guid, c.nodeGuid⟩)

/-- Check the connections of a record. -/
def checkRecord (g : GraphData) (ds : Declared) (conversions : Conversions) (guid : String)
    (r : PortData) : List (Except ValidationError (Option DataLink)) :=
  if r.connections.isEmpty then []
  else
    match ds.find? guid with
    | none => r.connections.map (checkConnection g ds conversions guid none)
    | some d =>
      match slot? d r.name r.index with
      | none => [.error (.unknownPort guid r.name r.index)]
      | some output =>
        if output.direction ≠ .output then [.error (.connectionOnInput guid r.name)]
        else r.connections.map (checkConnection g ds conversions guid (some output))

/-- Check all recorded connections. -/
def checkAll (g : GraphData) (ds : Declared) (conversions : Conversions) :
    List (Except ValidationError (Option DataLink)) :=
  g.nodes.flatMap fun n => n.ports.flatMap (checkRecord g ds conversions n.guid)

/-- The problems among checked connections. -/
def badConnections (checked : List (Except ValidationError (Option DataLink))) :
    List ValidationError :=
  checked.filterMap fun r =>
    match r with
    | .ok _ => none
    | .error e => some e

/-- The data links among checked connections. -/
def dataLinks (checked : List (Except ValidationError (Option DataLink))) : List DataLink :=
  checked.filterMap fun r =>
    match r with
    | .ok link => link
    | .error _ => none

/-! ## Cycles -/

/-- The last position of a guid. -/
def positionOf (nodes : List NodeData) (guid : String) : Option Nat :=
  (nodes.zipIdx.reverse.find? fun e => e.1.guid = guid).map Prod.snd

/-- The positions at the source and at the target of a data link. -/
def endsOf (nodes : List NodeData) (link : DataLink) : Option (Nat × Nat) :=
  match positionOf nodes link.source, positionOf nodes link.target with
  | some s, some t => some (s, t)
  | _, _ => none

/-- The distinct other positions with a data link into a position. -/
def sourcesOf (ends : List (Nat × Nat)) (target : Nat) : List Nat :=
  ends.foldl
    (fun found (s, t) =>
      if t = target && s ≠ target && !found.contains s then found ++ [s] else found)
    []

/-- Whether a node is a forward node; one of an unknown type counts as one. -/
def isForward (ds : Declared) (n : NodeData) : Bool :=
  match ds.find? n.guid with
  | some d => d.path = .forward
  | none => true

/-- Which nodes need which. -/
def dependencies (nodes : List NodeData) (ds : Declared) (links : List DataLink) :
    Dependencies where
  edges := ((List.range nodes.length).map (sourcesOf (links.filterMap (endsOf nodes)))).toArray
  forward := (nodes.map (isForward ds)).toArray
  names := (nodes.map (·.guid)).toArray

/-- The first cycle among dependency nodes. -/
def cycles (d : Dependencies) : List ValidationError :=
  match d.paths with
  | .error (.circularDependency chain) => [.circularDependency chain]
  | _ => []

/-! ## Graphs -/

/-- The problems of a graph without its functions. -/
def ofNetwork (registry : Registry) (conversions : Conversions) (g : GraphData) :
    List ValidationError :=
  let ds := declared registry g.nodes
  let checked := checkAll g ds conversions
  repeatedGuids [] g.nodes ++ undeclared registry g.nodes ++ badConnections checked
    ++ cycles (dependencies g.nodes ds (dataLinks checked))

end Validation

namespace GraphData

mutual

/-- All problems of a graph and of its functions. -/
def validate (registry : Registry) (conversions : Conversions) : GraphData → List ValidationError
  | ⟨name, nodes, vars, groups, functions⟩ =>
    Validation.ofNetwork registry conversions ⟨name, nodes, vars, groups, functions⟩
      ++ validateFunctions registry conversions functions

/-- All problems of each function. -/
def validateFunctions (registry : Registry) (conversions : Conversions) :
    List (String × GraphData) → List ValidationError
  | [] => []
  | (_, g) :: rest =>
    validate registry conversions g ++ validateFunctions registry conversions rest

end

end GraphData
end FlowGraph
