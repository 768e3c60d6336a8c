import FlowGraph.Variable.Table

/-! # Blackboards and globals

    A blackboard is the list of the variables of a graph.  It may hold several
    variables of one name; a look-up by name finds the first.  Globals are shared
    between graphs, one variable per name. -/

namespace FlowGraph

/-- The variables of a graph, in order. -/
abbrev Blackboard := List VarId

namespace Blackboard

/-- The first variable of that name. -/
def find? (board : Blackboard) (vs : Variables) (name : String) : Option VarId :=
  List.find? (fun v => vs.nameOf v = name) board

/-- Whether a variable takes values of a type when it is set by name. -/
def takes (vs : Variables) (name : String) (type : PortType) (v : VarId) : Bool :=
  match vs.find? v with
  | some x => x.name = name && (x.type.acceptsDirectly type || type = .any)
  | none => false

/-- Write the first variable of that name that takes the value, or add one of the
    value's natural type. -/
def set (board : Blackboard) (vs : Variables) (name : String) (value : Value) :
    VarId × Blackboard × Variables :=
  match List.find? (takes vs name value.portType) board with
  | some v => (v, board, vs.set v value)
  | none =>
    let (v, vs) := vs.add (Variable.shared name value.portType value)
    (v, board ++ [v], vs)

/-- Remove every variable of that name; how many there were. -/
def remove (board : Blackboard) (vs : Variables) (name : String) : Nat × Blackboard :=
  let kept := List.filter (fun v => vs.nameOf v ≠ name) board
  (board.length - kept.length, kept)

end Blackboard

/-- The global variables by name. -/
structure Globals where
  entries : List (String × VarId) := []
  deriving DecidableEq, Inhabited

namespace Globals

/-- The global variable of that name. -/
def find? (globals : Globals) (name : String) : Option VarId :=
  (globals.entries.find? (·.1 = name)).map Prod.snd

/-- Put a variable under its own name, in place of an earlier one. -/
def insert (globals : Globals) (vs : Variables) (v : VarId) : Globals :=
  let name := vs.nameOf v
  ⟨globals.entries.filter (·.1 ≠ name) ++ [(name, v)]⟩

/-- Write the global variable of that name, or add one of the value's natural type. -/
def set (globals : Globals) (vs : Variables) (name : String) (value : Value) :
    VarId × Globals × Variables :=
  match globals.find? name with
  | some v => (v, globals, vs.set v value)
  | none =>
    let (v, vs) := vs.add (Variable.shared name value.portType value)
    (v, globals.insert vs v, vs)

/-- Take a variable out of the table of globals. -/
def remove (globals : Globals) (name : String) : Option VarId × Globals :=
  (globals.find? name, ⟨globals.entries.filter (·.1 ≠ name)⟩)

/-- The number of global variables. -/
def size (globals : Globals) : Nat := globals.entries.length

end Globals
end FlowGraph
