import FlowGraph.Json.Decode

/-! # Errors

    Everything that can go wrong, by cause.  `GraphError.message` is the one
    place that words them. -/

namespace FlowGraph

/-- Why an operation failed. -/
inductive GraphError where
  /-- Dependency nodes that need each other; the first is named again at the end. -/
  | circularDependency (chain : List String)
  | notCompiled (graph : String)
  | unknownEntry (entry : String)
  | unknownNode (node : String)
  | unknownPort (node port : String)
  | invalidDirection (source target : String)
  | incompatiblePorts (source target : String)
  | variableBinding (reason : String)
  | typeResolution (type : String)
  | unknownFunction (name : String)
  | forwardDepthExceeded (limit : Nat)
  | stepLimitExceeded (limit : Nat)
  | executionFailed (reason : String)
  | cancelled
  | serialization (fault : Fault)
  | fileNotFound
  deriving DecidableEq, Inhabited, Repr

namespace GraphError

/-- A number in a message. -/
def number (n : Nat) : String := String.ofList (Nat.toDigits 10 n)

/-- The wording of an error.  What was wrong with a JSON text is left open. -/
def message : GraphError → String
  | .circularDependency chain =>
    "Circular dependency detected: " ++ String.intercalate " -> " chain
  | .notCompiled graph => "Graph '" ++ graph ++ "' is not compiled"
  | .unknownEntry entry => "No entry node for '" ++ entry ++ "'"
  | .unknownNode node => "Unknown node: " ++ node
  | .unknownPort node port => "Unknown port '" ++ port ++ "' on node '" ++ node ++ "'"
  | .invalidDirection source target =>
    "Cannot link '" ++ source ++ "' to '" ++ target ++ "': ports have the same direction"
  | .incompatiblePorts source target =>
    "Incompatible port types: " ++ source ++ " -> " ++ target
  | .variableBinding reason => "Variable binding error: " ++ reason
  | .typeResolution type => "Cannot resolve node type '" ++ type ++ "'"
  | .unknownFunction name => "Unknown function: " ++ name
  | .forwardDepthExceeded limit => "Forward depth limit exceeded (" ++ number limit ++ ")"
  | .stepLimitExceeded limit => "Execution step limit exceeded (" ++ number limit ++ ")"
  | .executionFailed reason => "Node execution failed: " ++ reason
  | .cancelled => "Operation cancelled"
  | .serialization _ => "Serialization error: *"
  | .fileNotFound => "I/O error: *"

/-- The name of an error's kind. -/
def name : GraphError → String
  | .circularDependency _ => "CircularDependency"
  | .notCompiled _ => "NotCompiled"
  | .unknownEntry _ => "UnknownEntry"
  | .unknownNode _ => "UnknownNode"
  | .unknownPort _ _ => "UnknownPort"
  | .invalidDirection _ _ => "InvalidDirection"
  | .incompatiblePorts _ _ => "IncompatiblePorts"
  | .variableBinding _ => "VariableBinding"
  | .typeResolution _ => "TypeResolution"
  | .unknownFunction _ => "UnknownFunction"
  | .forwardDepthExceeded _ => "ForwardDepthExceeded"
  | .stepLimitExceeded _ => "StepLimitExceeded"
  | .executionFailed _ => "ExecutionFailed"
  | .cancelled => "Cancelled"
  | .serialization _ => "Serialization"
  | .fileNotFound => "Io"

/-- Whether the error makes a graph impossible to compile. -/
def isCompileFatal : GraphError → Bool
  | .circularDependency _ => true
  | _ => false

end GraphError
end FlowGraph
