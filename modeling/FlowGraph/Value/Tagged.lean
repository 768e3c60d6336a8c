import FlowGraph.Json.Access
import FlowGraph.Json.Printer
import FlowGraph.Value.Codec

/-! # Tagged values

    A JSON form that tells all values apart, unlike the plain one.  Written, a
    value is an array that starts with the name of its kind; integers are decimal
    texts and floats their 64 bits in hexadecimal.  Read, an object with a single
    field `$float`, `$int`, `$json` or `$object` is special, and anything else is
    a plain JSON value. -/

namespace FlowGraph.Value

/-- Sixteen hexadecimal digits. -/
def hex16 (n : Nat) : List Char :=
  let ds := Nat.toDigits 16 n
  List.replicate (16 - ds.length) '0' ++ ds

/-- The bits of a float. -/
def floatBits (x : Float) : String :=
  if x.isNaN then "nan" else String.ofList ('0' :: 'x' :: hex16 x.toBits.toNat)

/-- The decimal text of an integer. -/
def intText (n : Int) : String := String.ofList (Decimal.ofInt n)

/-- The tagged form of a value. -/
def toTagged (objects : HostObjects) : Value → Json
  | .null => .arr [.str "null"]
  | .bool b => .arr [.str "bool", .bool b]
  | .int n => .arr [.str "int", .str (intText n.toInt)]
  | .float x => .arr [.str "float", .str (floatBits x)]
  | .string s => .arr [.str "string", .str s]
  | .json j => .arr [.str "json", .str j.compact]
  | .object ref => .arr [.str "object", .str ref.kind, .bool (objects.isDestroyed ref)]

/-! ## Reading -/

/-- Read a tagged or plain value. -/
def ofTagged (objects : HostObjects) (j : Json) : Value :=
  match j with
  | .obj [("$float", x)] => .float x.asFloat
  | .obj [("$int", n)] => .int n.asInt64
  | .obj [("$json", x)] => .json x
  | .obj [("$object", .str name)] =>
    match objects.ref? name with
    | some ref => .object ref
    | none => .null
  | .obj [("$object", _)] => .null
  | j => ofJson j

end FlowGraph.Value
