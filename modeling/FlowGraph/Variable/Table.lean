import FlowGraph.GraphError
import FlowGraph.Variable.Data

/-! # Variables

    A variable is a named, typed cell.  It can be bound to another variable; reads
    and writes then go to that one, and its own value is kept aside until it is
    unbound.  Binding refuses to close a cycle, so every chain of bindings ends at
    an unbound variable, the *root*.

    All variables of a session live in one table and are named by their ids. -/

namespace FlowGraph

/-- Names a variable of the table. -/
abbrev VarId := Nat

/-- A variable. -/
structure Variable where
  name : String
  type : PortType
  isShared : Bool
  isGlobal : Bool
  isExposed : Bool
  /-- Its own value, whether bound or not. -/
  stored : Value
  /-- The variable it is bound to. -/
  target : Option VarId
  deriving DecidableEq, Inhabited

namespace Variable

/-- An unbound variable that nodes may share. -/
def shared (name : String) (type : PortType) (value : Value) : Variable :=
  ⟨name, type, true, false, false, value, none⟩

/-- The variable of its saved form. -/
def ofData (d : VariableData) : Variable :=
  ⟨d.name, d.valueType, d.isShared, d.isGlobal, d.isExposed,
    Value.ofJsonTyped d.value d.valueType, none⟩

end Variable

/-- The variables of a session; an id is a position. -/
structure Variables where
  cells : Array Variable := #[]
  deriving DecidableEq, Inhabited

namespace Variables

/-- The variable of an id. -/
def find? (vs : Variables) (v : VarId) : Option Variable := vs.cells[v]?

/-- Add a variable. -/
def add (vs : Variables) (x : Variable) : VarId × Variables :=
  (vs.cells.size, ⟨vs.cells.push x⟩)

/-- Change a variable. -/
def modify (vs : Variables) (v : VarId) (f : Variable → Variable) : Variables :=
  ⟨vs.cells.modify v f⟩

/-- The name of a variable. -/
def nameOf (vs : Variables) (v : VarId) : String :=
  ((vs.find? v).map (·.name)).getD ""

/-- The variable that one is bound to. -/
def targetOf (vs : Variables) (v : VarId) : Option VarId :=
  (vs.find? v).bind (·.target)

/-! ## Chains of bindings -/

/-- The end of the chain from a variable, after `steps` bindings at most. -/
def chase (vs : Variables) : (steps : Nat) → VarId → VarId
  | 0, v => v
  | steps + 1, v =>
    match vs.targetOf v with
    | some t => vs.chase steps t
    | none => v

/-- The end of the chain from a variable.  A chain without repetition has at most
    as many bindings as there are variables. -/
def root (vs : Variables) (v : VarId) : VarId := vs.chase vs.cells.size v

/-- Whether a chain of at most `steps` bindings leads from `start` to `goal`. -/
def reaches (vs : Variables) (goal : VarId) : (steps : Nat) → (start : VarId) → Bool
  | 0, start => start = goal
  | steps + 1, start =>
    start = goal ||
      match vs.targetOf start with
      | some t => vs.reaches goal steps t
      | none => false

/-! ## Operations -/

/-- The value that a variable shows: that of its root. -/
def get (vs : Variables) (v : VarId) : Value :=
  ((vs.find? (vs.root v)).map (·.stored)).getD .null

/-- Write a variable: its root takes the value. -/
def set (vs : Variables) (v : VarId) (value : Value) : Variables :=
  vs.modify (vs.root v) fun x => { x with stored := value }

/-- Bind a variable to another one, unless that one leads back to it. -/
def bind (vs : Variables) (v target : VarId) : Except GraphError Variables :=
  if vs.reaches v vs.cells.size target then
    .error (.variableBinding
      ("binding '" ++ vs.nameOf v ++ "' to '" ++ vs.nameOf target ++ "' would form a cycle"))
  else .ok (vs.modify v fun x => { x with target := some target })

/-- Undo a binding; the variable shows its own value again. -/
def unbind (vs : Variables) (v : VarId) : Variables :=
  vs.modify v fun x => { x with target := none }

/-- Unbind several variables. -/
def unbindAll (vs : Variables) (ids : List VarId) : Variables :=
  ids.foldl unbind vs

/-- Whether a variable is bound. -/
def isBound (vs : Variables) (v : VarId) : Bool := (vs.targetOf v).isSome

/-- A new unbound variable that shows the same value. -/
def copy (vs : Variables) (v : VarId) : VarId × Variables :=
  match vs.find? v with
  | some x => vs.add { x with stored := vs.get v, target := none }
  | none => vs.add default

/-- The saved form of a variable, with the value it shows. -/
def toData (vs : Variables) (v : VarId) : VariableData :=
  match vs.find? v with
  | some x => ⟨x.name, x.type, (vs.get v).toJson, x.isShared, x.isGlobal, x.isExposed⟩
  | none => default

end Variables
end FlowGraph
