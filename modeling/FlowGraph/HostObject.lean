/-! # Host objects

    Objects that live outside the graphs.  A value holds a reference, which does
    not keep its object alive; the host may drop an object at any time, and every
    reference to it then counts as destroyed. -/

namespace FlowGraph

/-- A reference to a host object. -/
structure ObjectRef where
  kind : String
  id : Nat
  deriving DecidableEq, Inhabited, Repr

/-- An object of the host. -/
structure HostObject where
  name : String
  kind : String
  alive : Bool := true
  deriving DecidableEq, Inhabited, Repr

/-- The objects of the host; an object's id is its position. -/
abbrev HostObjects := List HostObject

namespace HostObjects

/-- Some living objects, by name and kind. -/
def ofKinds (kinds : List (String × String)) : HostObjects :=
  kinds.map fun (name, kind) => ⟨name, kind, true⟩

/-- The object behind a reference, if it is alive. -/
def find? (objects : HostObjects) (ref : ObjectRef) : Option HostObject :=
  (objects[ref.id]?).filter (·.alive)

/-- Whether the object behind a reference is gone. -/
def isDestroyed (objects : HostObjects) (ref : ObjectRef) : Bool :=
  (objects.find? ref).isNone

/-- A reference to the object of that name, which may be dropped already. -/
def ref? (objects : HostObjects) (name : String) : Option ObjectRef :=
  (objects.findIdx? fun o => o.name = name).bind fun id =>
    (objects[id]?).map fun o => ⟨o.kind, id⟩

/-- Whether there is a living object of that name. -/
def isAlive (objects : HostObjects) (name : String) : Bool :=
  objects.any fun o => o.alive && o.name = name

/-- Drop the object of that name. -/
def drop (objects : HostObjects) (name : String) : HostObjects :=
  objects.map fun o => if o.name = name then { o with alive := false } else o

end HostObjects
end FlowGraph
