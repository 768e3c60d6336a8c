import FlowGraph.GraphError

/-! # Dependency paths

    Before a node runs, the dependency nodes that it needs must have run.  The path
    of a node lists them, each after everything it needs itself.  It is found by a
    depth-first search that visits dependencies in their order and stops at forward
    nodes; the nodes are listed as the search leaves them.

    The search keeps its own stack.  Each step either leaves a node or takes one
    dependency, so `steps` bounds their number. -/

namespace FlowGraph

/-- Which nodes need which; a node is named by its position. -/
structure Dependencies where
  /-- For each node the nodes it needs. -/
  edges : Array (List Nat) := #[]
  /-- Whether a node is a forward node; `false` beyond the end. -/
  forward : Array Bool := #[]
  /-- What messages call a node. -/
  names : Array String := #[]
  deriving DecidableEq, Inhabited, Repr

namespace Dependencies

/-- The number of nodes. -/
def size (g : Dependencies) : Nat := g.edges.size

/-- The nodes that one needs. -/
def needs (g : Dependencies) (v : Nat) : List Nat := (g.edges[v]?).getD []

/-- Whether a node is a forward node. -/
def isForward (g : Dependencies) (v : Nat) : Bool := (g.forward[v]?).getD false

/-- What messages call a node: its name, or its position. -/
def nameOf (g : Dependencies) (v : Nat) : String :=
  (g.names[v]?).getD ("#" ++ GraphError.number v)

/-! ## The search -/

/-- How far the search is with a node. -/
inductive Mark where
  | new
  | entered
  | left
  deriving DecidableEq, Inhabited, Repr

/-- A search under way. -/
structure Search where
  marks : Array Mark
  /-- The nodes that the search has left, the last one first. -/
  done : List Nat
  /-- The entered nodes, the last one first, each with the dependencies that were not
      looked at yet. -/
  stack : List (Nat × List Nat)
  deriving DecidableEq, Inhabited, Repr

/-- How far the search is with a node. -/
def Search.mark (s : Search) (v : Nat) : Mark := (s.marks[v]?).getD .left

/-- The search before its first step. -/
def start (g : Dependencies) (destination : Nat) : Search :=
  ⟨(Array.replicate g.size .new).setIfInBounds destination .entered, [],
    [(destination, g.needs destination)]⟩

/-- The nodes from the first one called `repeated` to the top of the stack, and
    `repeated` again. -/
def cycle (g : Dependencies) (stack : List (Nat × List Nat)) (repeated : Nat) : List String :=
  let entered := (stack.map Prod.fst).reverse.dropWhile (· ≠ repeated)
  (entered ++ [repeated]).map g.nameOf

/-- Leave a node, which is taken off the stack. -/
def leave (destination v : Nat) (s : Search) : Search :=
  ⟨s.marks.setIfInBounds v .left, if v = destination then s.done else v :: s.done, s.stack⟩

/-- Look at a dependency of the node on top of the stack. -/
def visit (g : Dependencies) (d : Nat) (s : Search) : Except (List String) Search :=
  if g.isForward d then .ok s
  else
    match s.mark d with
    | .left => .ok s
    -- it is on the stack, so it needs itself
    | .entered => .error (g.cycle s.stack d)
    | .new => .ok ⟨s.marks.setIfInBounds d .entered, s.done, (d, g.needs d) :: s.stack⟩

/-- Search until the stack is empty, for `fuel` steps at most. -/
def search (g : Dependencies) (destination : Nat) : (fuel : Nat) → Search →
    Except (List String) (List Nat)
  | 0, s => .ok s.done.reverse
  | fuel + 1, s =>
    match s.stack with
    | [] => .ok s.done.reverse
    | (v, []) :: rest => g.search destination fuel (leave destination v { s with stack := rest })
    | (v, d :: ds) :: rest =>
      match g.visit d { s with stack := (v, ds) :: rest } with
      | .ok s => g.search destination fuel s
      | .error chain => .error chain

/-- How many steps a search may take: one for each node, one for each dependency, and
    one for the end. -/
def steps (g : Dependencies) : Nat := g.edges.foldl (fun n ds => n + ds.length) g.size + 1

/-- The nodes to run before a node, in order. -/
def pathFor (g : Dependencies) (destination : Nat) : Except GraphError (List Nat) :=
  match g.search destination g.steps (g.start destination) with
  | .ok path => .ok path
  | .error chain => .error (.circularDependency chain)

/-- The paths of all nodes, or the first cycle found. -/
def paths (g : Dependencies) : Except GraphError (List (List Nat)) :=
  (List.range g.size).mapM g.pathFor

end Dependencies
end FlowGraph
