import FlowGraph.Graph.Edit

/-! # Compiling

    Compiling a graph binds its variables, links its ports, finds the dependency
    paths unless they are known, and compiles the local functions.  The only error is
    a cycle among dependency nodes; records that cannot be linked are warnings. -/

namespace FlowGraph

namespace Graph

/-! ## Variables -/

/-- Bind a variable to the global one of its name. -/
def bindGlobal (graph : String) (v : VarId) : Work Unit := do
  let s ← get
  let name := s.vars.nameOf v
  match s.globals.find? name with
  | none =>
    set (s.report .warn ("Graph '" ++ graph ++ "': no global variable named '" ++ name
      ++ "', using local storage"))
  | some target =>
    if target ≠ v then
      match s.vars.bind v target with
      | .ok vars => set { s with vars }
      | .error e =>
        set (s.report .warn ("Graph '" ++ graph ++ "': global variable '" ++ name ++ "': "
          ++ e.message))

/-- Bind a variable of the blackboard. -/
def bindBoardVariable (graph : String) (v : VarId) : Work Unit := do
  modify fun s => { s with vars := s.vars.unbind v }
  let s ← get
  if ((s.vars.find? v).map (·.isGlobal)).getD false then bindGlobal graph v

/-- Bind a node's own variable: to the global variable, or to the blackboard. -/
def bindOwnVariable (g : Network) (guid field : String) (v : VarId) : Work Unit := do
  modify fun s => { s with vars := s.vars.unbind v }
  let s ← get
  match s.vars.find? v with
  | none => return
  | some x =>
    if x.isGlobal then bindGlobal g.name v
    else if x.isShared then
      match g.blackboard.find? s.vars x.name with
      | none => return
      | some target =>
        match s.vars.bind v target with
        | .ok vars => set { s with vars }
        | .error e =>
          set (s.report .warn ("Node '" ++ guid ++ "' variable '" ++ field ++ "': " ++ e.message))

/-- The nodes' own variables with the guids and fields, in slot order. -/
def ownVariables (g : Network) : List (String × String × VarId) :=
  g.nodes.toList.flatMap fun e => e.2.vars.map fun (field, v) => (e.2.guid, field, v)

/-- Bind all variables of a graph. -/
def bindVariables (g : Network) : Work Unit := do
  g.blackboard.forM (bindBoardVariable g.name)
  (ownVariables g).forM fun (guid, field, v) => bindOwnVariable g guid field v

/-! ## Compiling -/

/-- Find the dependency paths, unless they are known. -/
def findPaths (n : Network) : Except GraphError Network :=
  match n.paths with
  | some _ => .ok n
  | none => n.dependencies.paths.map fun paths => { n with paths := some paths }

/-- Bind the variables and link the ports; the number of links. -/
def prepare (conversions : Conversions) (n : Network) : Work (Network × Nat) := do
  modify (·.setDisposed n.id false)
  bindVariables n
  let (n, links, notices) := n.link conversions
  modify (·.reportAll notices)
  return (n, links)

/-- The line about a compiled graph. -/
def compiledNotice (n : Network) (links functions : Nat) : String :=
  "Compiled graph '" ++ n.name ++ "': " ++ GraphError.number n.size ++ " nodes, "
    ++ GraphError.number links ++ " links, " ++ GraphError.number functions ++ " local functions"

mutual

/-- Compile a graph.  After an error the graph is not compiled. -/
def compile (conversions : Conversions) : Graph → Work (Graph × Except GraphError Unit)
  | ⟨network, groups, functions, _⟩ => do
    let (network, links) ← prepare conversions network
    match findPaths network with
    | .error e =>
      modify (·.report .error ("Graph '" ++ network.name ++ "' failed to compile: " ++ e.message))
      return (⟨network, groups, functions, false⟩, .error e)
    | .ok network =>
      let (functions, result) ← compileFunctions conversions network.name functions
      match result with
      | .error e => return (⟨network, groups, functions, false⟩, .error e)
      | .ok () =>
        modify (·.report .info (compiledNotice network links functions.length))
        return (⟨network, groups, functions, true⟩, .ok ())

/-- Compile functions in order, up to the first error. -/
def compileFunctions (conversions : Conversions) (graph : String) :
    List (String × Graph) → Work (List (String × Graph) × Except GraphError Unit)
  | [] => return ([], .ok ())
  | (name, f) :: rest => do
    let (f, result) ← compile conversions f
    match result with
    | .error e =>
      -- the functions behind this one stay as they were
      modify (·.report .error ("Local function '" ++ name ++ "' of graph '" ++ graph
        ++ "' failed to compile: " ++ e.message))
      return ((name, f) :: rest, .error e)
    | .ok () =>
      let (rest, result) ← compileFunctions conversions graph rest
      return ((name, f) :: rest, result)

end

/-- Hydrate and compile. -/
def build (registry : Registry) (conversions : Conversions) (data : GraphData) :
    Work (Except GraphError Graph) := do
  let g ← ofData registry data
  let (g, result) ← g.compile conversions
  return result.map fun _ => g

/-! ## Disposing -/

/-- Unbind all variables of a network. -/
def unbindVariables (n : Network) : Work Unit :=
  modify fun s => { s with
    vars := s.vars.unbindAll (n.blackboard ++ (ownVariables n).map (·.2.2)) }

mutual

/-- Unbind all variables and refuse to run until the next compilation.  A disposed
    graph is left as it is. -/
def dispose : Graph → Work Unit
  | ⟨network, _, functions, _⟩ => do
    if (← get).isDisposed network.id then return
    modify (·.setDisposed network.id true)
    unbindVariables network
    disposeFunctions functions

/-- Dispose each function. -/
def disposeFunctions : List (String × Graph) → Work Unit
  | [] => return
  | (_, f) :: rest => do
    f.dispose
    disposeFunctions rest

end

end Graph
end FlowGraph
