import FlowGraph.Dispatch.Basic
import FlowGraph.Graph.Compile
import FlowGraph.Powers
import FlowGraph.Tasks

/-! # Sessions

    A host that loads graphs under names, edits and compiles them, and dispatches to
    them, in the foreground or as tasks.  A graph that a task runs is shared with it
    and cannot be edited until the task has ended. -/

namespace FlowGraph

/-- A host. -/
structure Session where
  registry : Registry := .builtin
  conversions : Conversions := .standard
  engine : Engine := {}
  pool : TaskPool DispatchOutcome := {}
  graphs : List (String × Graph) := []
  deriving Inhabited

/-- Why a graph cannot be edited. -/
inductive EditRefusal where
  | noGraph
  /-- A task runs the graph. -/
  | busy
  deriving DecidableEq, Repr

namespace Session

/-! ## The store -/

/-- The store. -/
def store (s : Session) : Store := s.pool.store

/-- Do something to the store. -/
def work (s : Session) (w : Work α) : α × Session :=
  let (a, store) := w.run s.pool.store
  (a, { s with pool := { s.pool with store } })

/-- The events since they were taken last. -/
def takeEvents (s : Session) : List GraphEvent × Session :=
  (s.store.events.toList, (s.work (modify fun st => { st with events := #[] })).2)

/-- The log since it was taken last. -/
def takeLog (s : Session) : List LogLine × Session :=
  (s.store.log.toList, (s.work (modify fun st => { st with log := #[] })).2)

/-- The number of pending waits, if nodes find the scheduler. -/
def pending (s : Session) : Option Nat :=
  if s.engine.hasScheduler then some s.store.scheduler.size else none

/-- Drop an object of the host. -/
def dropObject (s : Session) (name : String) : Session :=
  (s.work (modify fun st => { st with objects := st.objects.drop name })).2

/-! ## Variables -/

/-- Put a variable into the table of globals. -/
def share (s : Session) (v : VarId) : Session :=
  (s.work (modify fun st => { st with globals := st.globals.insert st.vars v })).2

/-- Put a new variable into the table of globals. -/
def addGlobal (s : Session) (data : VariableData) : Session :=
  let (v, s) := s.work fun st =>
    let (v, vars) := st.vars.add (Variable.ofData data)
    (v, { st with vars })
  s.share v

/-- Write a global variable, or add one. -/
def setGlobal (s : Session) (name : String) (value : Value) : VarId × Session :=
  s.work fun st =>
    let (v, globals, vars) := st.globals.set st.vars name value
    (v, { st with globals, vars })

/-- Take a variable out of the table of globals. -/
def removeGlobal (s : Session) (name : String) : Option VarId × Session :=
  s.work fun st =>
    let (v, globals) := st.globals.remove name
    (v, { st with globals })

/-- Write a variable. -/
def setVariable (s : Session) (v : VarId) (value : Value) : Session :=
  (s.work (modify fun st => { st with vars := st.vars.set v value })).2

/-- Bind a variable to another one. -/
def bindVariable (s : Session) (v target : VarId) : Except GraphError Session :=
  (s.store.vars.bind v target).map fun vars =>
    (s.work (modify fun st => { st with vars })).2

/-! ## Graphs -/

/-- The graph of a name. -/
def graph? (s : Session) (name : String) : Option Graph :=
  (s.graphs.find? (·.1 = name)).map Prod.snd

/-- Put a graph under a name, in place of an earlier one. -/
def setGraph (s : Session) (name : String) (g : Graph) : Session :=
  { s with graphs := s.graphs.filter (·.1 ≠ name) ++ [(name, g)] }

/-- Hydrate a graph and compile it or not.  It is kept also if it does not compile. -/
def load (s : Session) (name : String) (data : GraphData) (compile : Bool) :
    Except GraphError Unit × Session :=
  let (g, s) := s.work (Graph.ofData s.registry data)
  if compile then
    let ((g, result), s) := s.work (g.compile s.conversions)
    (result, s.setGraph name g)
  else (.ok (), s.setGraph name g)

/-- Hydrate and compile a graph.  Only a compiled one is kept. -/
def build (s : Session) (name : String) (data : GraphData) : Except GraphError Graph × Session :=
  let (result, s) := s.work (Graph.build s.registry s.conversions data)
  match result with
  | .ok g => (.ok g, s.setGraph name g)
  | .error e => (.error e, s)

/-- Put an empty graph of some title under a name. -/
def createGraph (s : Session) (name title : String) : Session :=
  let (g, s) := s.work (Graph.create title)
  s.setGraph name g

/-- The saved form of a graph. -/
def save (s : Session) (g : Graph) : GraphData := g.toData s.store.vars

/-- Add a function to the library, compiled or not. -/
def addLibrary (s : Session) (name : String) (data : GraphData) (compile : Bool) :
    Except GraphError Session :=
  let (g, s) := s.work (Graph.ofData s.registry data)
  let ((g, result), s) :=
    if compile then s.work (g.compile s.conversions) else ((g, .ok ()), s)
  result.map fun _ => { s with engine := { s.engine with library := s.engine.library ++ [(name, g)] } }

/-- Write the slot of a port. -/
def writePort (s : Session) (g : Graph) (a : PortAddress) (v : Value) : Session :=
  (s.work (modify fun st => g.writePort st a v)).2

/-- Dispose of a graph. -/
def dispose (s : Session) (g : Graph) : Session := (s.work g.dispose).2

/-- Edit a graph that no task runs. -/
def edit (s : Session) (name : String) (f : Graph → Work (Graph × α)) :
    Except EditRefusal α × Session :=
  match s.graph? name with
  | none => (.error .noGraph, s)
  | some g =>
    if s.pool.isBusy g.id then (.error .busy, s)
    else
      let ((g, a), s) := s.work (f g)
      (.ok a, s.setGraph name g)

/-! ## Dispatching -/

/-- The dispatch of a request to a graph. -/
def dispatchOf (s : Session) (g : Graph) (r : DispatchRequest) (store : Store) :
    Process DispatchOutcome :=
  Dispatch.start (Dispatch.fuelFor s.engine.config) s.engine g r store

/-- How many jumps of time the host waits for. -/
def patience : Nat := tenTo 15

/-- Dispatch a request and wait for its end. -/
def dispatch (s : Session) (g : Graph) (r : DispatchRequest) :
    Option (Except GraphError DispatchOutcome) × Session :=
  let (result, pool) := s.pool.run patience (s.dispatchOf g r)
  (result, { s with pool })

/-- Dispatch a request as a task. -/
def spawn (s : Session) (name : String) (g : Graph) (r : DispatchRequest) : Session :=
  { s with pool := s.pool.spawn name g.id (s.dispatchOf g r) }

/-- Let time pass. -/
def advance (s : Session) (milliseconds : Nat) : Session :=
  { s with pool := s.pool.advance milliseconds }

/-- Cancel a wait. -/
def cancel (s : Session) (id : Nat) : Bool × Session :=
  let (found, pool) := s.pool.cancel id
  (found, { s with pool })

/-- Cancel all pending waits; how many there were. -/
def cancelAll (s : Session) : Nat × Session :=
  let (n, pool) := s.pool.cancelAll
  (n, { s with pool })

/-- End a task at once. -/
def abort (s : Session) (name : String) : Session := { s with pool := s.pool.abort name }

/-- Wait for a task. -/
def join (s : Session) (name : String) : Option (TaskEnd DispatchOutcome) × Session :=
  let (ending, pool) := s.pool.join patience name
  (ending, { s with pool })

end Session
end FlowGraph
