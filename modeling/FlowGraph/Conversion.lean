import FlowGraph.Value.Codec
import FlowGraph.Json.Printer

/-! # Conversions

    Which port types may be linked, and what a link does to the values it
    carries.  Types link directly when either takes the other as it is; else a
    converter must be registered for exactly that pair.  The first converter
    registered for a pair stays. -/

namespace FlowGraph

/-- What a converting link does to a value.  It may look at the host objects. -/
abbrev Converter := HostObjects → Value → Value

namespace Converter

/-- Integers widen to floats. -/
def widen : Converter := fun _ v => .float v.toInt.toFloat

/-- Floats are cut to integers, those out of range to the nearest integer. -/
def truncate : Converter := fun _ v => .int v.toFloat.toInt64

/-- The compact JSON text. -/
def text : Converter := fun _ v => .string v.toJson.compact

/-- Nothing. -/
def discard : Converter := fun _ _ => .null

/-- Whether there is a value. -/
def flag : Converter := fun objects v => .bool !(v.isUnset objects)

/-- The value itself. -/
def keep : Converter := fun _ v => v

/-- The converter of a name; a name that is not known means `keep`. -/
def ofName : String → Converter
  | "text" => text
  | "null" => discard
  | "flag" => flag
  | _ => keep

end Converter

/-- How a link carries values. -/
inductive Compatibility where
  | direct
  | converted (converter : Converter)

/-- The name of a way to link. -/
def Compatibility.name : Compatibility → String
  | .direct => "Direct"
  | .converted _ => "Converted"

/-- The value that arrives at the other end of a link. -/
def Compatibility.convert (compatibility : Compatibility) (objects : HostObjects) (v : Value) :
    Value :=
  match compatibility with
  | .direct => v
  | .converted converter => converter objects v

/-- The registered converters, by source and target type. -/
structure Conversions where
  entries : List ((PortType × PortType) × Converter) := []

namespace Conversions

/-- The type of the wait ids that a delay publishes. -/
def schedulerHandle : PortType := .custom "SchedulerHandle"

/-- The converter of a pair. -/
def get? (conversions : Conversions) (source target : PortType) : Option Converter :=
  (conversions.entries.find? (·.1 = (source, target))).map Prod.snd

/-- Add a converter unless the pair has one; whether it was added. -/
def register (conversions : Conversions) (source target : PortType) (converter : Converter) :
    Conversions × Bool :=
  if (conversions.get? source target).isSome then (conversions, false)
  else (⟨conversions.entries ++ [((source, target), converter)]⟩, true)

/-- Integers and floats convert into each other, wait ids into floats. -/
def standard : Conversions :=
  ⟨[((.int, .float), Converter.widen), ((.float, .int), Converter.truncate),
    ((schedulerHandle, .float), Converter.widen)]⟩

/-- How an output of one type links to an input of another, if it does. -/
def compatibility (conversions : Conversions) (source target : PortType) :
    Option Compatibility :=
  if source.acceptsDirectly target || target.acceptsDirectly source then some .direct
  else (conversions.get? source target).map .converted

/-- The number of converters. -/
def size (conversions : Conversions) : Nat := conversions.entries.length

end Conversions
end FlowGraph
