/-! # Arenas

    Storage for items that are reached by handles.  Removing an item frees its
    slot and raises the slot's generation, so that a handle never finds the item
    that uses the slot next. -/

namespace FlowGraph

/-- Names an item of an arena: a slot, and how often it was freed before. -/
structure NodeHandle where
  index : Nat := 0
  generation : UInt32 := 0
  deriving DecidableEq, Inhabited, Repr

/-- The handle as messages show it. -/
def NodeHandle.text (h : NodeHandle) : String :=
  "NodeHandle \x7b index: " ++ String.ofList (Nat.toDigits 10 h.index) ++ ", generation: " ++
    String.ofList (Nat.toDigits 10 h.generation.toNat) ++ " \x7d"

/-- A place for one item. -/
structure Slot (α : Type) where
  generation : UInt32
  item : Option α

/-- Slots, and the free ones among them, the one freed last first. -/
structure Arena (α : Type) where
  slots : Array (Slot α) := #[]
  free : List Nat := []
  /-- The number of items, counted as they come and go. -/
  size : Nat := 0

namespace Arena

variable {α : Type}

/-- An arena without slots. -/
def empty : Arena α := {}

instance : Inhabited (Arena α) := ⟨empty⟩

/-- The item of a handle. -/
def get? (a : Arena α) (h : NodeHandle) : Option α :=
  match a.slots[h.index]? with
  | some slot => if slot.generation = h.generation then slot.item else none
  | none => none

/-- Store an item, in the slot freed last if there is one. -/
def insert (a : Arena α) (item : α) : NodeHandle × Arena α :=
  match a.free with
  | index :: free =>
    match a.slots[index]? with
    | some slot =>
      (⟨index, slot.generation⟩,
        ⟨a.slots.setIfInBounds index ⟨slot.generation, some item⟩, free, a.size + 1⟩)
    | none => (⟨a.slots.size, 0⟩, ⟨a.slots.push ⟨0, some item⟩, free, a.size + 1⟩)
  | [] => (⟨a.slots.size, 0⟩, ⟨a.slots.push ⟨0, some item⟩, [], a.size + 1⟩)

/-- Take an item out. -/
def remove (a : Arena α) (h : NodeHandle) : Option (α × Arena α) :=
  (a.get? h).map fun item =>
    (item,
      ⟨a.slots.setIfInBounds h.index ⟨h.generation + 1, none⟩, h.index :: a.free, a.size - 1⟩)

/-- Change the item of a handle, if there is one. -/
def modify (a : Arena α) (h : NodeHandle) (f : α → α) : Arena α :=
  match a.get? h with
  | some item => { a with slots := a.slots.setIfInBounds h.index ⟨h.generation, some (f item)⟩ }
  | none => a

/-- Change every item. -/
def map (a : Arena α) (f : α → α) : Arena α :=
  { a with slots := a.slots.map fun slot => ⟨slot.generation, slot.item.map f⟩ }

/-- Change every item by its handle. -/
def mapWithHandle (a : Arena α) (f : NodeHandle → α → α) : Arena α :=
  { a with
    slots := a.slots.mapIdx fun index slot =>
      ⟨slot.generation, slot.item.map (f ⟨index, slot.generation⟩)⟩ }

/-- The items with their handles, in slot order. -/
def toList (a : Arena α) : List (NodeHandle × α) :=
  a.slots.toList.zipIdx.filterMap fun (slot, index) =>
    slot.item.map fun item => (⟨index, slot.generation⟩, item)

end Arena
end FlowGraph
