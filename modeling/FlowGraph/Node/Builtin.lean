import FlowGraph.Conversion
import FlowGraph.Descriptor
import FlowGraph.Node.Behavior
import FlowGraph.Redirects

/-! # Node types of the library

    The sixteen types that every host gets: flow, values, variables, functions and
    objects.  Each has a descriptor and a factory that makes the behavior from the
    persisted fields. -/

namespace FlowGraph

/-- Makes a behavior from the simple fields and the generic arguments. -/
abbrev Factory := Json → List PortType → Except GraphError Behavior

/-- A type that can be resolved. -/
structure NodeType where
  descriptor : NodeDescriptor
  factory : Factory

namespace Factory

/-- The behavior that a reader finds in the fields. -/
def reading (reader : Source → Except Fault Behavior) : Factory := fun fields _ =>
  match Json.decodeWith reader fields with
  | .ok behavior => .ok behavior
  | .error fault => .error (.serialization fault)

/-- A behavior without fields of its own. -/
def plain (behavior : Behavior) : Factory := reading fun s => do
  let r ← Record.ofSource [] s
  r.finish (pure behavior)

/-- A behavior with one field. -/
def withField (name : String) (default : α) (decode : Source → Except Fault α)
    (behavior : α → Behavior) : Factory := reading fun s => do
  let r ← Record.ofSource [name] s
  r.finish (behavior <$> r.withDefault name default decode)

/-- A constant of the type of the generic argument. -/
def literal : Factory := fun fields arguments =>
  match arguments with
  | type :: _ => .ok (.literal type ((fields.get? "value").getD .null))
  | [] => .error (.typeResolution "Literal needs one generic argument")

/-- A script; one with a field `reject` refuses to be made. -/
def script : Factory := fun fields _ =>
  match fields.get? "reject" with
  | some (.str reason) => .error (.executionFailed reason)
  | _ => .ok (.script (Script.ofFields fields))

end Factory

namespace Builtin

/-- Entries have no control input. -/
def entry (space className label : String) (category : NodeCategory) (description : String)
    (factory : Factory) : NodeType where
  descriptor :=
    { identity := ⟨space, className, none⟩, label, description, category, path := .forward,
      ports := [(PortDescriptor.output "args" .any).asArray, .controlOutput "next"] }
  factory

/-- A type that control passes through. -/
def forward (space className label : String) (category : NodeCategory) (description : String)
    (ports : List PortDescriptor) (factory : Factory) : NodeType where
  descriptor :=
    { identity := ⟨space, className, none⟩, label, description, category, path := .forward,
      ports := .controlInput flowInput :: ports }
  factory

/-- A type that runs on demand. -/
def dependency (space className label : String) (category : NodeCategory) (description : String)
    (ports : List PortDescriptor) (factory : Factory) : NodeType where
  descriptor :=
    { identity := ⟨space, className, none⟩, label, description, category, path := .dependency,
      ports }
  factory

/-- A type with a variable named by the field `variable`. -/
def withVariable (t : NodeType) : NodeType :=
  { t with descriptor := t.descriptor.withVariable ⟨"variable", .any⟩ }

/-! ## Flow -/

/-- The entry of a chain. -/
def executionEvent : NodeType :=
  entry "Ceres.Flow" "ExecutionEvent" "Execution Event" .event
    "Starts a control chain when its event is dispatched"
    (.withField "eventName" "" Source.text .executionEvent)

/-- One of two successors. -/
def branch : NodeType :=
  forward "Ceres.Flow" "Branch" "Branch" .flow
    "Continues on 'true' or 'false' depending on the condition"
    [.input "condition" .bool, .controlOutput "true", .controlOutput "false"] (.plain .branch)

/-- Several chains. -/
def sequence : NodeType :=
  forward "Ceres.Flow" "Sequence" "Sequence" .flow
    "Runs each 'then' chain to completion, in order"
    [(PortDescriptor.controlOutput "then").asArray] (.plain .sequence)

/-- A chain for each index. -/
def forLoop : NodeType :=
  forward "Ceres.Flow" "ForLoop" "For Loop" .flow
    "Runs 'body' for each index in first..last"
    [.input "first" .int, .input "last" .int, .output "index" .int, .controlOutput "body",
      .controlOutput "completed"] (.plain .forLoop)

/-- A wait. -/
def delay : NodeType :=
  forward "Ceres.Flow" "Delay" "Delay" .flow "Waits on the host scheduler, then continues"
    [.input "seconds" .float, .output "handle" Conversions.schedulerHandle,
      .controlOutput "next"] (.plain .delay)

/-- A message. -/
def log : NodeType :=
  forward "Ceres.Flow" "Log" "Log" .debug "Logs a message, then continues"
    [.input "message" .string, .controlOutput "next"]
    (.withField "level" .info LogLevel.decode .log)

/-! ## Values -/

/-- A constant of any type. -/
def literal : NodeType where
  descriptor :=
    { identity := ⟨"Ceres.Values", "Literal", none⟩, label := "Literal",
      description := "Outputs a constant of the generic argument's type", category := .value,
      path := .dependency, genericParameters := 1, ports := [.output "value" (.generic 0)] }
  factory := .literal

/-- The ports of a type with two numbers. -/
def binaryPorts (result : PortType) : List PortDescriptor :=
  [.input "a" .float, .input "b" .float, .output "result" result]

/-- A sum. -/
def add : NodeType :=
  dependency "Ceres.Math" "Add" "Add" .value "Adds two numbers" (binaryPorts .float) (.plain .add)

/-- A product. -/
def multiply : NodeType :=
  dependency "Ceres.Math" "Multiply" "Multiply" .value "Multiplies two numbers"
    (binaryPorts .float) (.plain .multiply)

/-- A comparison. -/
def compare : NodeType :=
  dependency "Ceres.Math" "Compare" "Compare" .value "Compares two numbers" (binaryPorts .bool)
    (.withField "op" .equal CompareOp.decode .compare)

/-! ## Variables -/

/-- The value of a variable. -/
def getVariable : NodeType :=
  withVariable (dependency "Ceres.Variables" "GetVariable" "Get Variable" .variable
    "Outputs the value of a variable" [.output "value" .any] (.plain .getVariable))

/-- An assignment. -/
def setVariable : NodeType :=
  withVariable (forward "Ceres.Variables" "SetVariable" "Set Variable" .variable
    "Assigns a variable, then continues" [.input "value" .any, .controlOutput "next"]
    (.plain .setVariable))

/-! ## Functions -/

/-- The entry of a function. -/
def functionInput : NodeType :=
  entry "Ceres.Functions" "FunctionInput" "Function Input" .function
    "Entry of a custom function"
    (.withField "functionName" "" Source.text .functionInput)

/-- The result of a function. -/
def functionOutput : NodeType :=
  forward "Ceres.Functions" "FunctionOutput" "Function Output" .function
    "Returns a value from a custom function" [.input "value" .any] (.plain .functionOutput)

/-- A call. -/
def invokeFunction : NodeType :=
  forward "Ceres.Functions" "InvokeFunction" "Invoke Function" .function
    "Calls a custom function and outputs its result"
    [(PortDescriptor.input "args" .any).asArray, .output "result" .any, .controlOutput "next"]
    (.withField "functionName" "" Source.text .invokeFunction)

/-! ## Objects -/

/-- The object a node acts on. -/
def describeTarget : NodeType :=
  dependency "Ceres.Objects" "DescribeTarget" "Describe Target" .object
    "Outputs the target object and its kind"
    [.input "target" .any, .output "object" .any, .output "kind" .string, .output "valid" .bool]
    (.plain .describeTarget)

/-! ## All of them -/

/-- The types of the library. -/
def types : List NodeType :=
  [executionEvent, branch, sequence, forLoop, delay, log, literal, add, multiply, compare,
    getVariable, setVariable, functionInput, functionOutput, invokeFunction, describeTarget]

/-- The redirects of the library: the branch was once called `Ceres.Nodes.If`. -/
def redirects : Redirects :=
  Redirects.insert {} (TypeIdentity.parse "Ceres.Nodes.If") (TypeIdentity.parse "Ceres.Flow.Branch")

/-- The descriptor that all placeholders share. -/
def placeholder : NodeDescriptor :=
  { identity := ⟨"Ceres.Graph", "InvalidNode", none⟩, label := "Invalid Node",
    description := "Placeholder for a node whose type could not be resolved",
    category := .invalid, path := .forward }

end Builtin
end FlowGraph
