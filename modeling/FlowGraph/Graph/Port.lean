import FlowGraph.Arena
import FlowGraph.Conversion
import FlowGraph.Descriptor
import FlowGraph.GraphError

/-! # Ports of a placed node

    Every declared port of a node has one slot, and an array port as many as its
    records ask for.  Data links are kept at the input, control links at the output.
    The values that slots hold are not kept here but in the store. -/

namespace FlowGraph

/-- The greatest number of slots of an array port. -/
def maxArraySlots : Nat := 1024

/-- A slot of a placed node, by its position among the node's ports. -/
structure PortAddress where
  node : NodeHandle
  port : Nat
  deriving DecidableEq, Inhabited, Repr

/-- Where a linked input takes its value from, and how. -/
structure PortLink where
  source : PortAddress
  compatibility : Compatibility

/-- A slot of a port. -/
structure Port where
  name : String
  index : Nat
  type : PortType
  direction : PortDirection
  capacity : PortCapacity
  kind : PortKind
  /-- The source of a linked data input. -/
  link : Option PortLink := none
  /-- The successor at a linked control output. -/
  target : Option NodeHandle := none

namespace Port

/-- An unlinked slot of a declared port. -/
def ofDescriptor (d : PortDescriptor) (index : Nat) : Port :=
  ⟨d.name, index, d.type, d.direction, d.capacity, d.kind, none, none⟩

/-- Whether this is the slot of a name and an index. -/
def isSlot (p : Port) (name : String) (index : Nat) : Bool :=
  p.name = name && p.index = index

/-- Whether the port carries the order of execution. -/
def isControl (p : Port) : Bool := p.kind = .control

/-- A slot in messages: the index stands only where it is not zero. -/
def slotText (name : String) (index : Nat) : String :=
  name ++ "[" ++ GraphError.number index ++ "]"

/-- The name of the slot. -/
def label (p : Port) : String := if p.index = 0 then p.name else slotText p.name p.index

/-- The slot without its links. -/
def unlinked (p : Port) : Port := { p with link := none, target := none }

/-- A slot and its kind in messages. -/
def kindText (p : Port) : String := p.label ++ " (" ++ p.kind.title ++ ")"

/-- How an output can be linked to an input. -/
def checkLink (output input : Port) (conversions : Conversions) :
    Except GraphError Compatibility :=
  if output.direction ≠ .output || input.direction ≠ .input then
    .error (.invalidDirection output.label input.label)
  else if output.kind ≠ input.kind then
    .error (.incompatiblePorts output.kindText input.kindText)
  else if output.isControl then .ok .direct
  else
    match conversions.compatibility output.type input.type with
    | some compatibility => .ok compatibility
    | none => .error (.incompatiblePorts output.type.text input.type.text)

end Port

/-! ## Slot layout -/

namespace Layout

/-- How many slots the records ask for: one more than the greatest index below the
    limit. -/
def extent (records : List PortData) (name : String) : Nat :=
  records.foldl
    (fun n r => if r.name = name && r.index < maxArraySlots then max n (r.index + 1) else n) 0

/-- The slots of a declared port. -/
def slotsOf (records : List PortData) (d : PortDescriptor) : List (PortDescriptor × Nat) :=
  (List.range (if d.array then extent records d.name else 1)).map fun index => (d, index)

/-- The slots of a node, declared port by declared port. -/
def slots (records : List PortData) (ports : List PortDescriptor) : List (PortDescriptor × Nat) :=
  ports.flatMap (slotsOf records)

/-- The unlinked slots of a node. -/
def portsOf (records : List PortData) (ports : List PortDescriptor) : List Port :=
  (slots records ports).map fun (d, index) => Port.ofDescriptor d index

/-- What a slot holds at first: the recorded constant of an input, read as the
    port's type, or the default of the type. -/
def initialValue (records : List PortData) (d : PortDescriptor) (index : Nat) : Value :=
  if d.direction = .input then
    match (records.find? (·.isFor d.name index)).bind (·.value) with
    | some j => Value.ofJsonTyped j d.type
    | none => Value.defaultFor d.type
  else Value.defaultFor d.type

/-- What the slots of a node hold at first. -/
def initialValues (records : List PortData) (ports : List PortDescriptor) : List Value :=
  (slots records ports).map fun (d, index) => initialValue records d index

/-- The warnings about records past the limit. -/
def notices (guid : String) (records : List PortData) (ports : List PortDescriptor) :
    List LogLine :=
  (ports.filter (·.array)).flatMap fun d =>
    (records.filter fun r => r.name = d.name && maxArraySlots ≤ r.index).map fun r =>
      ⟨.warn, "Node '" ++ guid ++ "': slot " ++ Port.slotText r.name r.index
        ++ " is past the array limit of " ++ GraphError.number maxArraySlots ++ ", skipped"⟩

end Layout
end FlowGraph
