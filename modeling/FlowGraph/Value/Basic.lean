import FlowGraph.HostObject
import FlowGraph.Json.Basic
import FlowGraph.PortType
import FlowGraph.Powers

/-! # Values

    What ports and variables hold.  The storage is dynamic; the declared type of
    a port decides how persisted values are decoded (`Value.Codec`) and which
    links are allowed (`Conversion`). -/

namespace FlowGraph

/-- A dynamic value. -/
inductive Value where
  | null
  | bool (b : Bool)
  | int (n : Int64)
  | float (x : Float)
  | string (s : String)
  | json (j : Json)
  | object (ref : ObjectRef)
  deriving DecidableEq, Inhabited

namespace Value

/-- What a port of some type holds before anything else is written. -/
def defaultFor : PortType → Value
  | .bool => .bool false
  | .int => .int 0
  | .float => .float 0.0
  | .string => .string ""
  | _ => .null

/-- The natural type of a value. -/
def portType : Value → PortType
  | .null => .any
  | .bool _ => .bool
  | .int _ => .int
  | .float _ => .float
  | .string _ => .string
  | .json _ => .json
  | .object ref => .object ref.kind

/-- Whether the value stands for nothing: `null`, or a destroyed object. -/
def isUnset (objects : HostObjects) : Value → Bool
  | .null => true
  | .object ref => objects.isDestroyed ref
  | _ => false

/-- Equality as a program sees it: floats compare as numbers, objects by identity. -/
def same : Value → Value → Bool
  | .null, .null => true
  | .bool a, .bool b => a == b
  | .int m, .int n => m == n
  | .float x, .float y => x == y
  | .string s, .string t => s == t
  | .json a, .json b => a.same b
  | .object a, .object b => a.id == b.id
  | _, _ => false

/-! ## Typed access -/

/-- The truth value, if it is one. -/
def asBool? : Value → Option Bool
  | .bool b => some b
  | _ => none

/-- The integer, if it is one. -/
def asInt? : Value → Option Int64
  | .int n => some n
  | _ => none

/-- The integer, if it fits 32 bits. -/
def asInt32? (v : Value) : Option Int :=
  v.asInt?.bind fun n =>
    if -2147483648 ≤ n.toInt && n.toInt < 2147483648 then some n.toInt else none

/-- The integer, if it is not negative. -/
def asNat? (v : Value) : Option Nat :=
  v.asInt?.bind fun n => if 0 ≤ n.toInt then some n.toInt.toNat else none

/-- The float, if it is one. -/
def asFloat? : Value → Option Float
  | .float x => some x
  | _ => none

/-- The float rounded to single precision, if it is one. -/
def asSingle? (v : Value) : Option Float :=
  v.asFloat?.map fun x => x.toFloat32.toFloat

/-- The text, if it is one. -/
def asString? : Value → Option String
  | .string s => some s
  | _ => none

/-- The object reference, if it is one. -/
def asObject? : Value → Option ObjectRef
  | .object ref => some ref
  | _ => none

/-- The truth value, `false` for anything else. -/
def toBool (v : Value) : Bool := v.asBool?.getD false

/-- The integer, zero for anything else. -/
def toInt (v : Value) : Int64 := v.asInt?.getD 0

/-- The float, zero for anything else. -/
def toFloat (v : Value) : Float := v.asFloat?.getD 0.0

/-- The text, empty for anything else. -/
def toText (v : Value) : String := v.asString?.getD ""

/-- The integer of a natural number, the greatest one if it is too big. -/
def ofNat (n : Nat) : Value :=
  if n < twoTo 63 then .int (Int64.ofNat n) else .int Int64.maxValue

end Value
end FlowGraph
