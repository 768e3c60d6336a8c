import FlowGraph.Data.Node
import FlowGraph.GraphError
import FlowGraph.LogLine
import FlowGraph.Node.Script

/-! # Behaviors

    What a node does when it runs, with the persisted configuration that it needs.
    A behavior holds no run-time state: ports and variables belong to the graph.
    `Dispatch.Execution` gives the meaning of each. -/

namespace FlowGraph

/-! ## Comparisons -/

/-- How two numbers are compared. -/
inductive CompareOp where
  | less
  | lessEqual
  | equal
  | notEqual
  | greater
  | greaterEqual
  deriving DecidableEq, Inhabited, Repr

namespace CompareOp

/-- The persisted name. -/
def name : CompareOp → String
  | .less => "less"
  | .lessEqual => "less_equal"
  | .equal => "equal"
  | .notEqual => "not_equal"
  | .greater => "greater"
  | .greaterEqual => "greater_equal"

/-- Read a persisted name. -/
def ofName? : String → Option CompareOp
  | "less" => some .less
  | "less_equal" => some .lessEqual
  | "equal" => some .equal
  | "not_equal" => some .notEqual
  | "greater" => some .greater
  | "greater_equal" => some .greaterEqual
  | _ => none

/-- Read an operator from JSON. -/
def decode : Source → Except Fault CompareOp := Source.choice ofName?

/-- The result of a comparison. -/
def apply (op : CompareOp) (a b : Float) : Bool :=
  match op with
  | .less => a < b
  | .lessEqual => a ≤ b
  | .equal => a == b
  | .notEqual => a != b
  | .greater => b < a
  | .greaterEqual => b ≤ a

end CompareOp

/-! ## Placeholders -/

/-- What is kept of a node whose type could not be resolved. -/
structure InvalidNode where
  type : String
  genericArguments : List String
  serializedData : String
  deriving DecidableEq, Inhabited, Repr

namespace InvalidNode

/-- The placeholder of a saved node. -/
def ofData (n : NodeData) : InvalidNode := ⟨n.type, n.genericArguments, n.serializedData⟩

/-- The simple fields: the value of the kept text, or the text itself. -/
def fields (n : InvalidNode) : Json :=
  match Json.parse n.serializedData with
  | .ok j => j
  | .error _ => .str n.serializedData

/-- The JSON form. -/
def toJson (n : InvalidNode) : Json :=
  .obj [("nodeType", .str n.type), ("genericArguments", .arr (n.genericArguments.map .str)),
    ("serializedData", .str n.serializedData)]

end InvalidNode

/-! ## Behaviors -/

/-- What a node does when it runs. -/
inductive Behavior where
  /-- Entry of a chain: publishes the arguments of its event. -/
  | executionEvent (eventName : String)
  /-- Continues one way or the other. -/
  | branch
  /-- Runs several chains, one after the other. -/
  | sequence
  /-- Runs a chain for each index. -/
  | forLoop
  /-- Waits. -/
  | delay
  /-- Writes to the log and reports a message. -/
  | log (level : LogLevel)
  /-- Outputs a constant. -/
  | literal (type : PortType) (raw : Json)
  /-- Adds two numbers. -/
  | add
  /-- Multiplies two numbers. -/
  | multiply
  /-- Compares two numbers. -/
  | compare (op : CompareOp)
  /-- Outputs a variable. -/
  | getVariable
  /-- Writes a variable. -/
  | setVariable
  /-- Entry of a function: publishes the arguments of the call. -/
  | functionInput (functionName : String)
  /-- Fills the return box. -/
  | functionOutput
  /-- Calls a function. -/
  | invokeFunction (functionName : String)
  /-- Tells which object the node acts on. -/
  | describeTarget
  /-- Stands for a node of an unknown type and does nothing. -/
  | placeholder (node : InvalidNode)
  /-- Runs a script. -/
  | script (script : Script)
  deriving DecidableEq, Inhabited

namespace Behavior

/-- The value of a literal. -/
def literalValue (type : PortType) (raw : Json) : Value := Value.ofJsonTyped raw type

/-- The event or function name that an entry answers to. -/
def entryName : Behavior → Option String
  | .executionEvent name => some name
  | .functionInput name => some name
  | .script s => s.entry
  | _ => none

/-- The simple fields that the node is saved with. -/
def fields : Behavior → Json
  | .executionEvent name => .obj [("eventName", .str name)]
  | .log level => .obj [("level", .str level.name)]
  | .literal _ raw => .obj [("value", raw)]
  | .compare op => .obj [("op", .str op.name)]
  | .functionInput name => .obj [("functionName", .str name)]
  | .invokeFunction name => .obj [("functionName", .str name)]
  | .placeholder node => node.fields
  | .script s => s.fields
  | _ => .empty

/-- Whether the behavior is that of a node type of the library. -/
def isBuiltin : Behavior → Bool
  | .script _ => false
  | _ => true

end Behavior
end FlowGraph
