import FlowGraph.Session

/-! # Editing in a session

    The edits of a graph that a session keeps under a name.  Each is refused if there is
    no such graph or if a task runs it; an edit that is taken up may still end in an
    error of its own, as a connection between unknown nodes does. -/

namespace FlowGraph.Session

/-- What an edit answers if it is taken up, and the session after it. -/
abbrev Edited (α : Type) := Except EditRefusal α × Session

/-- Compile a graph. -/
def compile (s : Session) (name : String) : Edited (Except GraphError Unit) :=
  s.edit name fun g => g.compile s.conversions

/-- Forget the dependency paths of a graph. -/
def clearPaths (s : Session) (name : String) : Edited Unit :=
  s.edit name fun g => return (g.clearPaths, ())

/-! ## Nodes -/

/-- Add a saved node. -/
def addNode (s : Session) (name : String) (data : NodeData) : Edited NodeHandle :=
  s.edit name fun g => do
    let (h, g) ← g.addNode s.registry data
    return (g, h)

/-- Add a live node that the registry does not know. -/
def addLive (s : Session) (name guid : String) (descriptor : NodeDescriptor) (behavior : Behavior) :
    Edited NodeHandle :=
  s.edit name fun g => do
    let (h, g) ← g.addLive guid descriptor behavior
    return (g, h)

/-- Remove a node; its saved form. -/
def removeNode (s : Session) (name : String) (h : NodeHandle) : Edited (Option NodeData) :=
  s.edit name fun g => do
    let (removed, g) := g.removeNode (← get).vars h
    return (g, removed)

/-- Connect an output to an input. -/
def connect (s : Session) (name : String) (source target : SlotRef) :
    Edited (Except GraphError Unit) :=
  s.edit name fun g => do
    match ← g.connect source target with
    | .ok g => return (g, .ok ())
    | .error e => return (g, .error e)

/-- Set the constant of an input. -/
def setConstant (s : Session) (name : String) (slot : SlotRef) (v : Value) :
    Edited (Except GraphError Unit) :=
  s.edit name fun g => g.setConstant slot v

/-! ## Blackboard -/

/-- Write a variable of the blackboard, or add one. -/
def setEntry (s : Session) (name entry : String) (v : Value) : Edited VarId :=
  s.edit name fun g => do
    let st ← get
    let (id, blackboard, vars) := g.blackboard.set st.vars entry v
    set { st with vars }
    return ({ g with blackboard }, id)

/-- Add a new variable to the blackboard. -/
def addEntry (s : Session) (name : String) (data : VariableData) : Edited Unit :=
  s.edit name fun g => return (← g.addVariables [data], ())

/-- Add a variable that lives elsewhere to the blackboard. -/
def adoptEntry (s : Session) (name : String) (v : VarId) : Edited Unit :=
  s.edit name fun g => return ({ g with blackboard := g.blackboard ++ [v] }, ())

/-- Remove every variable of that name from the blackboard; how many there were. -/
def removeEntries (s : Session) (name entry : String) : Edited Nat :=
  s.edit name fun g => do
    let (n, blackboard) := g.blackboard.remove (← get).vars entry
    return ({ g with blackboard }, n)

/-! ## Groups and functions -/

/-- Add a group. -/
def addGroup (s : Session) (name : String) (group : NodeGroup) : Edited Unit :=
  s.edit name fun g => return (g.addGroup group, ())

/-- Hydrate a saved graph and add it as a local function. -/
def addFunction (s : Session) (name function : String) (data : GraphData) : Edited Unit :=
  s.edit name fun g => do
    let f ← Graph.ofData s.registry data
    return (g.addFunction function f, ())

end FlowGraph.Session
