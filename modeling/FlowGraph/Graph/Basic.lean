import FlowGraph.Graph.Link
import FlowGraph.Text.Quoted

/-! # Graphs

    A network with its groups and local functions, which are graphs themselves.
    Only a compiled graph that was not disposed since can be run.

    Operations that touch the store are written in the state monad `Work`. -/

namespace FlowGraph

/-- A computation on the store. -/
abbrev Work := StateM Store

/-- A graph. -/
structure Graph extends Network where
  groups : List NodeGroup := []
  /-- The local functions, by name. -/
  functions : List (String × Graph) := []
  /-- Whether the last compilation succeeded and nothing was edited since. -/
  compiled : Bool := false

/-- A graph without nodes. -/
def Graph.ofName (id : GraphId) (name : String) : Graph := { id, name }

instance : Inhabited Graph := ⟨Graph.ofName 0 ""⟩

namespace Graph

/-- Make an empty graph. -/
def create (name : String) : Work Graph := do
  let s ← get
  let (id, s) := s.addGraph
  set s
  return ofName id name

/-- The local function of a name. -/
def function? (g : Graph) (name : String) : Option Graph :=
  (g.functions.find? (·.1 = name)).map Prod.snd

/-- Whether the graph can be run. -/
def isRunnable (g : Graph) (s : Store) : Bool := g.compiled && !s.isDisposed g.id

/-- Forget what the last compilation found. -/
def invalidate (g : Graph) : Graph := { g with compiled := false, paths := none }

/-- The graph as diagnostics show it. -/
def summary (g : Graph) : String :=
  "Graph \x7b name: " ++ Text.quoted g.name ++ ", nodes: " ++ GraphError.number g.size
    ++ ", compiled: " ++ (if g.compiled then "true" else "false") ++ " \x7d"

end Graph
end FlowGraph
