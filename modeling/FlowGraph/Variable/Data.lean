import FlowGraph.Value.Codec
import FlowGraph.Json.Decode

/-! # Persisted variables

    How a variable is saved: its name, its type, its value as JSON and three
    flags.  Only name and type must be there when it is read. -/

namespace FlowGraph

/-- The type of a port from its text. -/
def PortType.decode (s : Source) : Except Fault PortType := do
  match PortType.parse (← s.text) with
  | .ok type => .ok type
  | .error _ => .error .mismatched

/-- A saved variable. -/
structure VariableData where
  name : String
  valueType : PortType
  value : Json := .null
  /-- Nodes may bind to it by name. -/
  isShared : Bool := false
  /-- Backed by the global variable of the same name. -/
  isGlobal : Bool := false
  /-- Shown to users of the graph. -/
  isExposed : Bool := false
  deriving DecidableEq, Inhabited

namespace VariableData

/-- The saved form of a variable that nodes may bind to. -/
def shared (name : String) (type : PortType) (value : Json) : VariableData :=
  { name, valueType := type, value, isShared := true }

/-- The JSON form. -/
def toJson (d : VariableData) : Json :=
  .obj [("name", .str d.name), ("valueType", .str d.valueType.text), ("value", d.value),
    ("isShared", .bool d.isShared), ("isGlobal", .bool d.isGlobal),
    ("isExposed", .bool d.isExposed)]

/-- The field names, in declaration order. -/
def fieldNames : List String :=
  ["name", "valueType", "value", "isShared", "isGlobal", "isExposed"]

/-- Read the JSON form. -/
def decode (s : Source) : Except Fault VariableData := do
  let r ← Record.ofSource fieldNames s
  r.finish <| mk
    <$> r.required "name" Source.text
    <*> r.required "valueType" PortType.decode
    <*> r.withDefault "value" .null Source.value
    <*> r.withDefault "isShared" false Source.truth
    <*> r.withDefault "isGlobal" false Source.truth
    <*> r.withDefault "isExposed" false Source.truth

end VariableData
end FlowGraph
