import FlowGraph.Json.Decode
import FlowGraph.Json.Printer
import FlowGraph.Powers
import FlowGraph.Text.Blank

/-! # Saved nodes and groups

    A node is saved with its type's text, its generic arguments as texts, its
    simple fields as one JSON text, and a record for every port slot that has a
    constant or connections.  Connections stand on the output side. -/

namespace FlowGraph

/-! ## Records of ports -/

/-- The input slot at the other end of a connection. -/
structure PortConnection where
  nodeGuid : String
  portName : String
  portIndex : Nat := 0
  deriving DecidableEq, Inhabited, Repr

namespace PortConnection

/-- The JSON form. -/
def toJson (c : PortConnection) : Json :=
  .obj [("nodeGuid", .str c.nodeGuid), ("portName", .str c.portName),
    ("portIndex", .int c.portIndex)]

/-- Read the JSON form. -/
def decode (s : Source) : Except Fault PortConnection := do
  let r ← Record.ofSource ["nodeGuid", "portName", "portIndex"] s
  r.finish <| mk
    <$> r.required "nodeGuid" Source.text
    <*> r.required "portName" Source.text
    <*> r.withDefault "portIndex" 0 Source.natural

end PortConnection

/-- What is saved of a port slot. -/
structure PortData where
  name : String
  index : Nat := 0
  /-- The constant of an input. -/
  value : Option Json := none
  /-- The connections of an output. -/
  connections : List PortConnection := []
  deriving DecidableEq, Inhabited

namespace PortData

/-- Whether this is the record of a slot. -/
def isFor (p : PortData) (name : String) (index : Nat) : Bool :=
  p.name = name && p.index = index

/-- The JSON form; an absent constant and an empty list are not written. -/
def toJson (p : PortData) : Json :=
  .obj ([("name", .str p.name), ("index", .int p.index)]
    ++ (match p.value with
      | some v => [("value", v)]
      | none => [])
    ++ (if p.connections.isEmpty then []
      else [("connections", .arr (p.connections.map PortConnection.toJson))]))

/-- Read the JSON form; a constant `null` counts as absent. -/
def decode (s : Source) : Except Fault PortData := do
  let r ← Record.ofSource ["name", "index", "value", "connections"] s
  r.finish <| mk
    <$> r.required "name" Source.text
    <*> r.withDefault "index" 0 Source.natural
    <*> r.withDefault "value" none (Source.optional Source.value)
    <*> r.withDefault "connections" [] (Source.list PortConnection.decode)

end PortData

/-! ## Positions -/

/-- Where something stands on the canvas. -/
structure Position where
  x : Float := 0.0
  y : Float := 0.0
  deriving DecidableEq, Inhabited

namespace Position

/-- The JSON form. -/
def toJson (p : Position) : Json :=
  .obj [("x", .float p.x), ("y", .float p.y)]

/-- Read the JSON form. -/
def decode (s : Source) : Except Fault Position := do
  let r ← Record.ofSource ["x", "y"] s
  r.finish <| mk <$> r.required "x" Source.double <*> r.required "y" Source.double

end Position

/-! ## Nodes -/

/-- A saved node. -/
structure NodeData where
  guid : String
  type : String
  genericArguments : List String := []
  position : Position := {}
  /-- The JSON text of the node's simple fields. -/
  serializedData : String := ""
  ports : List PortData := []
  deriving DecidableEq, Inhabited

namespace NodeData

/-- The field names, in declaration order. -/
def fieldNames : List String :=
  ["guid", "type", "genericArguments", "position", "serializedData", "ports"]

/-- The JSON form; empty lists are not written. -/
def toJson (n : NodeData) : Json :=
  .obj ([("guid", .str n.guid), ("type", .str n.type)]
    ++ (if n.genericArguments.isEmpty then []
      else [("genericArguments", .arr (n.genericArguments.map .str))])
    ++ [("position", n.position.toJson), ("serializedData", .str n.serializedData)]
    ++ (if n.ports.isEmpty then [] else [("ports", .arr (n.ports.map PortData.toJson))]))

/-- Read the JSON form. -/
def decode (s : Source) : Except Fault NodeData := do
  let r ← Record.ofSource fieldNames s
  r.finish <| mk
    <$> r.required "guid" Source.text
    <*> r.required "type" Source.text
    <*> r.withDefault "genericArguments" [] (Source.list Source.text)
    <*> r.withDefault "position" {} Position.decode
    <*> r.withDefault "serializedData" "" Source.text
    <*> r.withDefault "ports" [] (Source.list PortData.decode)

/-- The simple fields; a blank or malformed text has none. -/
def fields (n : NodeData) : Json :=
  if Text.trim n.serializedData = "" then .empty
  else
    match Json.parse n.serializedData with
    | .ok j => j
    | .error _ => .empty

/-- The first record of a slot. -/
def port? (n : NodeData) (name : String) (index : Nat) : Option PortData :=
  n.ports.find? (·.isFor name index)

/-- Change the first record of a slot in a list, which is added if there is none. -/
def modifyRecord (name : String) (index : Nat) (f : PortData → PortData) :
    List PortData → List PortData
  | [] => [f { name, index }]
  | p :: rest =>
    if p.isFor name index then f p :: rest else p :: modifyRecord name index f rest

/-- Change the first record of a slot, which is added if there is none. -/
def modifyPort (n : NodeData) (name : String) (index : Nat) (f : PortData → PortData) : NodeData :=
  { n with ports := modifyRecord name index f n.ports }

/-- One more than the greatest index recorded for a port, at most `2 ^ 64 - 1`. -/
def arrayLength (n : NodeData) (name : String) : Nat :=
  ((n.ports.filter (·.name = name)).map fun p => min (p.index + 1) (twoTo 64 - 1)).foldl max 0

end NodeData

/-! ## Groups -/

/-- A frame around some nodes. -/
structure NodeGroup where
  id : String
  name : String
  nodes : List String := []
  position : Position := {}
  color : Option String := none
  description : Option String := none
  deriving DecidableEq, Inhabited

namespace NodeGroup

/-- An optional text field. -/
def optionalField (name : String) : Option String → List (String × Json)
  | some s => [(name, .str s)]
  | none => []

/-- The JSON form; absent texts are not written. -/
def toJson (g : NodeGroup) : Json :=
  .obj ([("id", .str g.id), ("name", .str g.name), ("nodes", .arr (g.nodes.map .str)),
      ("position", g.position.toJson)]
    ++ optionalField "color" g.color ++ optionalField "description" g.description)

/-- Read the JSON form. -/
def decode (s : Source) : Except Fault NodeGroup := do
  let r ← Record.ofSource ["id", "name", "nodes", "position", "color", "description"] s
  r.finish <| mk
    <$> r.required "id" Source.text
    <*> r.required "name" Source.text
    <*> r.withDefault "nodes" [] (Source.list Source.text)
    <*> r.withDefault "position" {} Position.decode
    <*> r.withDefault "color" none (Source.optional Source.text)
    <*> r.withDefault "description" none (Source.optional Source.text)

/-- Whether the group holds a node. -/
def contains (g : NodeGroup) (guid : String) : Bool := g.nodes.contains guid

/-- Keep only the nodes that pass a test; how many went. -/
def retain (g : NodeGroup) (keep : String → Bool) : Nat × NodeGroup :=
  let kept := g.nodes.filter keep
  (g.nodes.length - kept.length, { g with nodes := kept })

end NodeGroup
end FlowGraph
