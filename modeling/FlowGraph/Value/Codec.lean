import FlowGraph.Value.Basic

/-! # Values and JSON

    `Value.toJson` writes a value; object references and floats that are not
    finite have no JSON form and become `null`.  `Value.ofJson` reads a value by
    the shape of its JSON alone, `Value.ofJsonTyped` by a declared type: what does
    not fit the type reads as the type's default. -/

namespace FlowGraph.Value

/-- The JSON form of a value. -/
def toJson : Value → Json
  | .null => .null
  | .bool b => .bool b
  | .int n => .int n.toInt
  | .float x => if x.isFinite then .float x else .null
  | .string s => .str s
  | .json j => j
  | .object _ => .null

/-- The signed 64-bit integer of a JSON number, if it is one. -/
def jsonInt? : Json → Option Int64
  | .int n => if -9223372036854775808 ≤ n && n < 9223372036854775808 then some (Int64.ofInt n) else none
  | _ => none

/-- The double of a JSON number. -/
def jsonFloat? : Json → Option Float
  | .int n => some (Float.ofInt n)
  | .float x => some x
  | _ => none

/-- Read a value by its shape.  An integer beyond 64 bits reads as a float. -/
def ofJson (j : Json) : Value :=
  match j with
  | .null => .null
  | .bool b => .bool b
  | .int n => match jsonInt? (.int n) with
    | some i => .int i
    | none => .float (Float.ofInt n)
  | .float x => .float x
  | .str s => .string s
  | .arr items => .json (.arr items)
  | .obj fields => .json (.obj fields)

/-- Read a value of a declared type, `none` if it does not fit. -/
def ofJsonTyped? (j : Json) : PortType → Option Value
  | .bool => match j with
    | .bool b => some (.bool b)
    | _ => none
  | .int => (jsonInt? j).map .int
  | .float => (jsonFloat? j).map .float
  | .string => match j with
    | .str s => some (.string s)
    | _ => none
  | .json => some (.json j)
  | .any => some (ofJson j)
  | .custom _ => some (ofJson j)
  | .object _ => none
  | .node => none
  | .generic _ => none

/-- Read a value of a declared type. -/
def ofJsonTyped (j : Json) (type : PortType) : Value :=
  (ofJsonTyped? j type).getD (defaultFor type)

/-- The JSON of anything but an object reference. -/
def asJson? : Value → Option Json
  | .object _ => none
  | v => some v.toJson

end FlowGraph.Value
