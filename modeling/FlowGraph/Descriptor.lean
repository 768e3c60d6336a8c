import FlowGraph.Data.Builder
import FlowGraph.TypeIdentity
import FlowGraph.Variable.Data

/-! # Descriptors

    What a node type declares: its ports, its variables and how many generic
    parameters it has.  The types of ports and variables may be placeholders, which
    instantiation fills in. -/

namespace FlowGraph

/-- Read a type identity from its text. -/
def TypeIdentity.decode (s : Source) : Except Fault TypeIdentity := s.text.map TypeIdentity.parse

/-! ## Ports -/

/-- A declared port.  An array port has any number of slots. -/
structure PortDescriptor where
  name : String
  label : String
  type : PortType
  direction : PortDirection
  capacity : PortCapacity
  kind : PortKind
  array : Bool := false
  deriving DecidableEq, Inhabited, Repr

namespace PortDescriptor

/-- The usual capacity: a data input takes one link and an output feeds many, a
    control input takes many links and an output leads to one node. -/
def usualCapacity : PortDirection → PortKind → PortCapacity
  | .input, .data => .single
  | .output, .data => .multi
  | .input, .control => .multi
  | .output, .control => .single

/-- A port labelled with its name. -/
def plain (name : String) (type : PortType) (direction : PortDirection) (kind : PortKind) :
    PortDescriptor :=
  ⟨name, name, type, direction, usualCapacity direction kind, kind, false⟩

/-- A data input. -/
def input (name : String) (type : PortType) : PortDescriptor := plain name type .input .data

/-- A data output. -/
def output (name : String) (type : PortType) : PortDescriptor := plain name type .output .data

/-- A control input. -/
def controlInput (name : String) : PortDescriptor := plain name .node .input .control

/-- A control output. -/
def controlOutput (name : String) : PortDescriptor := plain name .node .output .control

/-- The array port of the same kind. -/
def asArray (p : PortDescriptor) : PortDescriptor := { p with array := true }

/-- Whether the port carries the order of execution. -/
def isControl (p : PortDescriptor) : Bool := p.kind = .control

/-- The JSON form. -/
def toJson (p : PortDescriptor) : Json :=
  .obj [("name", .str p.name), ("label", .str p.label), ("portType", .str p.type.text),
    ("direction", .str p.direction.name), ("capacity", .str p.capacity.name),
    ("kind", .str p.kind.name), ("array", .bool p.array)]

/-- Read the JSON form. -/
def decode (s : Source) : Except Fault PortDescriptor := do
  let r ← Record.ofSource
    ["name", "label", "portType", "direction", "capacity", "kind", "array"] s
  r.finish <| mk
    <$> r.required "name" Source.text
    <*> r.required "label" Source.text
    <*> r.required "portType" PortType.decode
    <*> r.required "direction" (Source.choice PortDirection.ofName?)
    <*> r.required "capacity" (Source.choice PortCapacity.ofName?)
    <*> r.required "kind" (Source.choice PortKind.ofName?)
    <*> r.required "array" Source.truth

end PortDescriptor

/-! ## Variables -/

/-- A declared variable: the field that names it, and its type. -/
structure VariableDescriptor where
  field : String
  type : PortType
  deriving DecidableEq, Inhabited, Repr

namespace VariableDescriptor

/-- The JSON form. -/
def toJson (v : VariableDescriptor) : Json :=
  .obj [("field", .str v.field), ("valueType", .str v.type.text)]

/-- Read the JSON form. -/
def decode (s : Source) : Except Fault VariableDescriptor := do
  let r ← Record.ofSource ["field", "valueType"] s
  r.finish <| mk <$> r.required "field" Source.text <*> r.required "valueType" PortType.decode

end VariableDescriptor

/-! ## Nodes -/

/-- A declared node type. -/
structure NodeDescriptor where
  identity : TypeIdentity
  label : String
  description : String := ""
  category : NodeCategory
  path : ExecutionPath
  genericParameters : Nat := 0
  ports : List PortDescriptor := []
  vars : List VariableDescriptor := []
  deriving DecidableEq, Inhabited, Repr

namespace NodeDescriptor

/-- A node that control reaches through an input. -/
def forward (identity : TypeIdentity) (label : String) (category : NodeCategory) :
    NodeDescriptor :=
  { identity, label, category, path := .forward, ports := [.controlInput flowInput] }

/-- A node that runs for the nodes that need it. -/
def dependency (identity : TypeIdentity) (label : String) (category : NodeCategory) :
    NodeDescriptor :=
  { identity, label, category, path := .dependency }

/-- The first port of a name. -/
def port? (d : NodeDescriptor) (name : String) : Option PortDescriptor :=
  d.ports.find? (·.name = name)

/-- Whether a name is declared as an array port. -/
def isArray (d : NodeDescriptor) (name : String) : Bool :=
  match d.port? name with
  | some p => p.array
  | none => false

/-- One more port. -/
def withPort (d : NodeDescriptor) (p : PortDescriptor) : NodeDescriptor :=
  { d with ports := d.ports ++ [p] }

/-- One more variable. -/
def withVariable (d : NodeDescriptor) (v : VariableDescriptor) : NodeDescriptor :=
  { d with vars := d.vars ++ [v] }

/-- The names of the ports of a direction. -/
def portNames (d : NodeDescriptor) (direction : PortDirection) : List String :=
  (d.ports.filter (·.direction = direction)).map (·.name)

/-- Fill the placeholder of a port. -/
def instantiatePort (arguments : List PortType) (p : PortDescriptor) : Option PortDescriptor :=
  (p.type.instantiate arguments).map fun type => { p with type }

/-- Fill the placeholder of a variable. -/
def instantiateVariable (arguments : List PortType) (v : VariableDescriptor) :
    Option VariableDescriptor :=
  (v.type.instantiate arguments).map fun type => { v with type }

/-- The descriptor with all placeholders filled in: there must be one argument for
    each parameter, and one for each placeholder. -/
def instantiate (d : NodeDescriptor) (arguments : List PortType) : Option NodeDescriptor := do
  if arguments.length ≠ d.genericParameters then none
  let ports ← d.ports.mapM (instantiatePort arguments)
  let vars ← d.vars.mapM (instantiateVariable arguments)
  some { d with ports, vars }

/-- The JSON form. -/
def toJson (d : NodeDescriptor) : Json :=
  .obj [("identity", .str d.identity.text), ("label", .str d.label),
    ("description", .str d.description), ("category", .str d.category.name),
    ("executionPath", .str d.path.name), ("genericParameters", .int d.genericParameters),
    ("ports", .arr (d.ports.map PortDescriptor.toJson)),
    ("variables", .arr (d.vars.map VariableDescriptor.toJson))]

/-- The field names, in declaration order. -/
def fieldNames : List String :=
  ["identity", "label", "description", "category", "executionPath", "genericParameters",
    "ports", "variables"]

/-- Read the JSON form. -/
def decode (s : Source) : Except Fault NodeDescriptor := do
  let r ← Record.ofSource fieldNames s
  r.finish <| mk
    <$> r.required "identity" TypeIdentity.decode
    <*> r.required "label" Source.text
    <*> r.withDefault "description" "" Source.text
    <*> r.required "category" (Source.choice NodeCategory.ofName?)
    <*> r.required "executionPath" (Source.choice ExecutionPath.ofName?)
    <*> r.withDefault "genericParameters" 0 Source.natural
    <*> r.required "ports" (Source.list PortDescriptor.decode)
    <*> r.withDefault "variables" [] (Source.list VariableDescriptor.decode)

end NodeDescriptor
end FlowGraph
