import FlowGraph.Data.Node
import FlowGraph.Variable.Data

/-! # Saved graphs

    A graph is saved with its nodes, its variables, its groups and its local
    functions, which are graphs themselves. -/

namespace FlowGraph

/-- A saved graph.  Its functions are listed by name. -/
structure GraphData where
  name : String := ""
  nodes : List NodeData := []
  vars : List VariableData := []
  nodeGroups : List NodeGroup := []
  functions : List (String × GraphData) := []
  deriving Inhabited

namespace GraphData

/-! ## JSON form -/

mutual

/-- The JSON form; empty lists of groups and functions are not written. -/
def toJson : GraphData → Json
  | ⟨name, nodes, vars, groups, functions⟩ =>
    .obj ([("name", .str name), ("nodes", .arr (nodes.map NodeData.toJson)),
        ("variables", .arr (vars.map VariableData.toJson))]
      ++ (if groups.isEmpty then [] else [("nodeGroups", .arr (groups.map NodeGroup.toJson))])
      ++ (if functions.isEmpty then [] else [("functions", .arr (functionsToJson functions))]))

/-- The JSON form of each function. -/
def functionsToJson : List (String × GraphData) → List Json
  | [] => []
  | (name, graph) :: rest =>
    .obj [("name", .str name), ("graph", toJson graph)] :: functionsToJson rest

end

/-- The field names, in declaration order. -/
def fieldNames : List String := ["name", "nodes", "variables", "nodeGroups", "functions"]

/-- Read a function, given how its graph is read. -/
def decodeFunction (decodeGraph : Source → Except Fault GraphData) (s : Source) :
    Except Fault (String × GraphData) := do
  let r ← Record.ofSource ["name", "graph"] s
  r.finish <| Prod.mk <$> r.required "name" Source.text <*> r.required "graph" decodeGraph

/-- Read a graph whose functions are nested less than `bound` deep. -/
def decodeWithin : (bound : Nat) → Source → Except Fault GraphData
  | 0, s => .error s.wrongType
  | bound + 1, s => do
    let r ← Record.ofSource fieldNames s
    r.finish <| mk
      <$> r.withDefault "name" "" Source.text
      <*> r.withDefault "nodes" [] (Source.list NodeData.decode)
      <*> r.withDefault "variables" [] (Source.list VariableData.decode)
      <*> r.withDefault "nodeGroups" [] (Source.list NodeGroup.decode)
      <*> r.withDefault "functions" [] (Source.list (decodeFunction (decodeWithin bound)))

/-- Read the JSON form. -/
def decode (s : Source) : Except Fault GraphData := decodeWithin (s.depth + 1) s

/-- Read a JSON text. -/
def parse (text : String) : Except Fault GraphData := (Document.ofText text).decode decode

/-- The text of a saved file. -/
def pretty (g : GraphData) : String := g.toJson.pretty

/-- Equality with floats compared as numbers. -/
def same (g h : GraphData) : Bool := g.toJson.same h.toJson

/-! ## Look-up -/

/-- The first node of a guid. -/
def node? (g : GraphData) (guid : String) : Option NodeData :=
  g.nodes.find? (·.guid = guid)

/-- The first function of a name. -/
def function? (g : GraphData) (name : String) : Option GraphData :=
  (g.functions.find? (·.1 = name)).map Prod.snd

/-- Change the first node of a guid in a list. -/
def modifyFirst (guid : String) (f : NodeData → NodeData) : List NodeData → List NodeData
  | [] => []
  | n :: rest => if n.guid = guid then f n :: rest else n :: modifyFirst guid f rest

/-- Change the first node of a guid. -/
def modifyNode (g : GraphData) (guid : String) (f : NodeData → NodeData) : GraphData :=
  { g with nodes := modifyFirst guid f g.nodes }

/-! ## Connections -/

/-- A connection with both of its ends. -/
structure Connection where
  source : String
  sourcePort : String
  sourceIndex : Nat
  target : String
  targetPort : String
  targetIndex : Nat
  deriving DecidableEq, Repr

/-- The order of two keys, then of what follows if they are equal. -/
def Connection.compare (a b : Connection) : Ordering :=
  (Ord.compare a.source b.source).then <| (Ord.compare a.sourcePort b.sourcePort).then <|
  (Ord.compare a.sourceIndex b.sourceIndex).then <| (Ord.compare a.target b.target).then <|
  (Ord.compare a.targetPort b.targetPort).then (Ord.compare a.targetIndex b.targetIndex)

/-- The recorded connections, in the order of nodes, records and connections. -/
def connections (g : GraphData) : List Connection :=
  g.nodes.flatMap fun n => n.ports.flatMap fun p => p.connections.map fun c =>
    ⟨n.guid, p.name, p.index, c.nodeGuid, c.portName, c.portIndex⟩

/-- The recorded connections in ascending order. -/
def connectionTable (g : GraphData) : List Connection :=
  g.connections.mergeSort fun a b => (a.compare b).isLE

/-- Put a text into a sorted list that does not hold it yet. -/
def insertText (s : String) : List String → List String
  | [] => [s]
  | t :: rest => if s < t then s :: t :: rest else if s = t then t :: rest else t :: insertText s rest

/-- The type texts of the nodes, each once, in ascending order. -/
def nodeTypes (g : GraphData) : List String :=
  (g.nodes.map (·.type)).foldr insertText []

end GraphData
end FlowGraph
