import FlowGraph.Decimal.Reading
import FlowGraph.Powers

/-! # Port types

    The static type of a port, and the small enumerations that describe ports
    and nodes.  A port type is persisted as its text; `PortType.parse` reads
    exactly the texts that `PortType.text` writes, and generic indices with a
    plus sign or leading zeros. -/

namespace FlowGraph

/-- The type of the values that a port carries. -/
inductive PortType where
  | any
  | bool
  | int
  | float
  | string
  | json
  /-- References to host objects of a kind. -/
  | object (kind : String)
  | node
  | custom (name : String)
  /-- A placeholder for a generic argument of the node. -/
  | generic (index : Nat)
  deriving DecidableEq, Inhabited, Repr

namespace PortType

/-- Whether values of the other type are taken without conversion. -/
def acceptsDirectly (self other : PortType) : Bool :=
  self = .any || self = other

/-- The type with its placeholder filled in; `none` if there is no such argument. -/
def instantiate (self : PortType) (arguments : List PortType) : Option PortType :=
  match self with
  | .generic index => arguments[index]?
  | other => some other

/-- Whether the type is a placeholder. -/
def isGeneric : PortType → Bool
  | .generic _ => true
  | _ => false

/-! ## Text -/

/-- The persisted text. -/
def text : PortType → String
  | .any => "any"
  | .bool => "bool"
  | .int => "int"
  | .float => "float"
  | .string => "string"
  | .json => "json"
  | .object kind => "object:" ++ kind
  | .node => "node"
  | .custom name => "custom:" ++ name
  | .generic index => "generic:" ++ String.ofList (Nat.toDigits 10 index)

/-- Why a text is no port type. -/
inductive ParseError where
  | genericIndex (text : String)
  | unknown (text : String)
  deriving DecidableEq, Repr

/-- The message of a refusal. -/
def ParseError.message : ParseError → String
  | .genericIndex text => "invalid generic index in '" ++ text ++ "'"
  | .unknown text => "unknown port type '" ++ text ++ "'"

/-- What follows a leading text. -/
def after? (lead : String) (cs : List Char) : Option (List Char) :=
  if lead.toList.isPrefixOf cs then some (cs.drop lead.toList.length) else none

/-- A natural number below `2 ^ 64`: digits, with a plus sign in front or not. -/
def parseIndex? (cs : List Char) : Option Nat :=
  let digits := match cs with
    | '+' :: rest => rest
    | rest => rest
  if digits.isEmpty || !digits.all Char.isDigit then none
  else
    let n := Decimal.digitsValue 0 digits
    if n < twoTo 64 then some n else none

/-- Read a port type. -/
def parse (s : String) : Except ParseError PortType :=
  match s with
  | "any" => .ok .any
  | "bool" => .ok .bool
  | "int" => .ok .int
  | "float" => .ok .float
  | "string" => .ok .string
  | "json" => .ok .json
  | "node" => .ok .node
  | s =>
    match after? "object:" s.toList with
    | some kind => .ok (.object (String.ofList kind))
    | none =>
      match after? "custom:" s.toList with
      | some name => .ok (.custom (String.ofList name))
      | none =>
        match after? "generic:" s.toList with
        | some index =>
          match parseIndex? index with
          | some n => .ok (.generic n)
          | none => .error (.genericIndex s)
        | none => .error (.unknown s)

end PortType

/-! ## What a port is -/

/-- Which way values pass through a port. -/
inductive PortDirection where
  | input
  | output
  deriving DecidableEq, Inhabited, Repr

/-- The other direction. -/
def PortDirection.opposite : PortDirection → PortDirection
  | .input => .output
  | .output => .input

/-- The persisted name. -/
def PortDirection.name : PortDirection → String
  | .input => "input"
  | .output => "output"

/-- Read a persisted name. -/
def PortDirection.ofName? : String → Option PortDirection
  | "input" => some .input
  | "output" => some .output
  | _ => none

/-- How many links a port takes. -/
inductive PortCapacity where
  | single
  | multi
  deriving DecidableEq, Inhabited, Repr

/-- The persisted name. -/
def PortCapacity.name : PortCapacity → String
  | .single => "single"
  | .multi => "multi"

/-- Read a persisted name. -/
def PortCapacity.ofName? : String → Option PortCapacity
  | "single" => some .single
  | "multi" => some .multi
  | _ => none

/-- Whether a port carries values or the order of execution. -/
inductive PortKind where
  | data
  | control
  deriving DecidableEq, Inhabited, Repr

/-- The persisted name. -/
def PortKind.name : PortKind → String
  | .data => "data"
  | .control => "control"

/-- Read a persisted name. -/
def PortKind.ofName? : String → Option PortKind
  | "data" => some .data
  | "control" => some .control
  | _ => none

/-- The name in messages. -/
def PortKind.title : PortKind → String
  | .data => "Data"
  | .control => "Control"

/-! ## What a node is -/

/-- When a node runs: `forward` nodes when control reaches them, `dependency`
    nodes before each forward node that needs their outputs. -/
inductive ExecutionPath where
  | forward
  | dependency
  deriving DecidableEq, Inhabited, Repr

/-- The persisted name. -/
def ExecutionPath.name : ExecutionPath → String
  | .forward => "forward"
  | .dependency => "dependency"

/-- Read a persisted name. -/
def ExecutionPath.ofName? : String → Option ExecutionPath
  | "forward" => some .forward
  | "dependency" => some .dependency
  | _ => none

/-- The shelf of the node palette. -/
inductive NodeCategory where
  | event
  | flow
  | value
  | variable
  | function
  | object
  | debug
  | invalid
  deriving DecidableEq, Inhabited, Repr

/-- The persisted name. -/
def NodeCategory.name : NodeCategory → String
  | .event => "event"
  | .flow => "flow"
  | .value => "value"
  | .variable => "variable"
  | .function => "function"
  | .object => "object"
  | .debug => "debug"
  | .invalid => "invalid"

/-- Read a persisted name. -/
def NodeCategory.ofName? : String → Option NodeCategory
  | "event" => some .event
  | "flow" => some .flow
  | "value" => some .value
  | "variable" => some .variable
  | "function" => some .function
  | "object" => some .object
  | "debug" => some .debug
  | "invalid" => some .invalid
  | _ => none

/-- The heading in the palette. -/
def NodeCategory.title : NodeCategory → String
  | .event => "Event"
  | .flow => "Flow"
  | .value => "Value"
  | .variable => "Variable"
  | .function => "Function"
  | .object => "Object"
  | .debug => "Debug"
  | .invalid => "Invalid"

/-- All categories, in palette order. -/
def NodeCategory.all : List NodeCategory :=
  [.event, .flow, .value, .variable, .function, .object, .debug, .invalid]

end FlowGraph
