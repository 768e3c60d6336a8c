import FlowGraph.Decimal.Reading
import FlowGraph.Json.Decode

/-! # Lenient access

    Readings that never fail, for requests that people and tools write by hand: what
    is missing or of another kind reads as the empty value of the kind that is asked
    for.  Numbers may be given as texts, since a JSON number cannot name every integer
    and every float. -/

namespace FlowGraph.Json

/-! ## Values -/

/-- A text. -/
def asText : Json → String
  | .str s => s
  | _ => ""

/-- A truth value. -/
def asTruth : Json → Bool
  | .bool b => b
  | _ => false

/-- An array. -/
def asList : Json → List Json
  | .arr items => items
  | _ => []

/-- The fields of an object. -/
def asFields : Json → List (String × Json)
  | .obj fields => fields
  | _ => []

/-- The integer of a decimal text, which may carry a sign. -/
def integerOfText? (s : String) : Option Int :=
  let (negative, digits) := match s.toList with
    | '-' :: cs => (true, cs)
    | '+' :: cs => (false, cs)
    | cs => (false, cs)
  if digits.isEmpty || !digits.all Char.isDigit then none
  else
    let n : Int := Decimal.digitsValue 0 digits
    some (if negative then -n else n)

/-- An integer: a number or a decimal text. -/
def asInteger? : Json → Option Int
  | .int n => some n
  | .str s => integerOfText? s
  | _ => none

/-- An integer. -/
def asInteger (j : Json) : Int := j.asInteger?.getD 0

/-- A natural number below `2 ^ 64`. -/
def asNatural (j : Json) : Nat :=
  let n := j.asInteger.toNat
  if n ≤ Source.maxUnsigned then n else 0

/-- An integer of 64 bits. -/
def asInt64 (j : Json) : Int64 :=
  let n := j.asInteger
  if Int64.minValue.toInt ≤ n && n ≤ Int64.maxValue.toInt then Int64.ofInt n else 0

/-- The value of hexadecimal digits, below `2 ^ 64`. -/
def hexValue? (cs : List Char) : Option Nat :=
  if cs.isEmpty then none
  else (cs.foldlM (fun n c => (Source.hexValue c).map (16 * n + ·)) 0).filter (· ≤ Source.maxUnsigned)

/-- The float of a text: its bits after `0x`, or a number. -/
def floatOfText (s : String) : Float :=
  match s.toList with
  | '0' :: 'x' :: digits => ((hexValue? digits).map fun n => Float.ofBits (UInt64.ofNat n)).getD 0.0
  | _ => Decimal.floatOf s

/-- A float: a number, or a text. -/
def asFloat : Json → Float
  | .int n => Float.ofInt n
  | .float x => x
  | .str s => floatOfText s
  | _ => 0.0

/-- Saved data: a JSON text, or the data itself. -/
def readAs (reader : Source → Except Fault α) : Json → Except Fault α
  | .str text => (Document.ofText text).decode reader
  | j => j.decodeWith reader

/-! ## Fields and items -/

/-- A field. -/
def field (j : Json) (name : String) : Json := (j.get? name).getD .null

/-- Whether there is a field. -/
def has (j : Json) (name : String) : Bool := (j.get? name).isSome

/-- An item of an array. -/
def item (j : Json) (i : Nat) : Json := ((j.asList)[i]?).getD .null

/-- The text in a field. -/
def textAt (j : Json) (name : String) : String := (j.field name).asText

/-- The text in a field, if it holds one. -/
def textAt? (j : Json) (name : String) : Option String :=
  match j.field name with
  | .str s => some s
  | _ => none

/-- The truth value in a field. -/
def truthAt (j : Json) (name : String) : Bool := (j.field name).asTruth

/-- The natural number in a field. -/
def naturalAt (j : Json) (name : String) : Nat := (j.field name).asNatural

/-- The float in a field. -/
def floatAt (j : Json) (name : String) : Float := (j.field name).asFloat

/-- The array in a field. -/
def listAt (j : Json) (name : String) : List Json := (j.field name).asList

/-- The texts in a field. -/
def textsAt (j : Json) (name : String) : List String := (j.listAt name).map asText

/-- The fields of the object in a field. -/
def fieldsAt (j : Json) (name : String) : List (String × Json) := (j.field name).asFields

/-- The saved data in a field. -/
def readAt (reader : Source → Except Fault α) (j : Json) (name : String) : Except Fault α :=
  (j.field name).readAs reader

end FlowGraph.Json
