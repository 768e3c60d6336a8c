import FlowGraph.Event
import FlowGraph.Graph.Port
import FlowGraph.Scheduler
import FlowGraph.Variable.Blackboard

/-! # The store

    All state that changes while graphs run: the values at port slots, the
    variables, which graphs are disposed, the waits, the reported events and the
    log.  Graphs themselves stay as they are during a dispatch and are named here by
    ids.

    Main statements: a write leaves the cells of other slots and of other graphs
    alone (`cell_writeCell_of_ne`, `cell_writeCell_other`). -/

namespace FlowGraph

/-- Names a graph of the store. -/
abbrev GraphId := Nat

/-- What changes of a graph while it runs. -/
structure GraphState where
  disposed : Bool := false
  /-- The values at the slots, by node slot and port position. -/
  cells : Array (Array Value) := #[]
  deriving DecidableEq, Inhabited

/-- The state that graphs share. -/
structure Store where
  objects : HostObjects := []
  vars : Variables := {}
  globals : Globals := {}
  /-- A graph's id is its position. -/
  graphs : Array GraphState := #[]
  scheduler : Scheduler := {}
  /-- The reported events, oldest first. -/
  events : Array GraphEvent := #[]
  log : Log := #[]
  /-- How many guids and how many dispatch ids were made. -/
  guidsMade : Nat := 0
  dispatchesMade : Nat := 0
  deriving Inhabited

namespace Store

/-! ## Graphs -/

/-- Make room for a graph. -/
def addGraph (s : Store) : GraphId × Store :=
  (s.graphs.size, { s with graphs := s.graphs.push {} })

/-- Whether a graph is disposed. -/
def isDisposed (s : Store) (g : GraphId) : Bool := ((s.graphs[g]?).map (·.disposed)).getD false

/-- Mark a graph as disposed or not. -/
def setDisposed (s : Store) (g : GraphId) (disposed : Bool) : Store :=
  { s with graphs := s.graphs.modify g fun x => { x with disposed } }

/-! ## Cells -/

/-- The value at a slot. -/
def cell (s : Store) (g : GraphId) (a : PortAddress) : Value :=
  (((s.graphs[g]?).bind (·.cells[a.node.index]?)).bind (·[a.port]?)).getD .null

/-- Write the value at a slot. -/
def writeCell (s : Store) (g : GraphId) (a : PortAddress) (v : Value) : Store :=
  { s with
    graphs := s.graphs.modify g fun x =>
      { x with cells := x.cells.modify a.node.index (·.setIfInBounds a.port v) } }

/-- Put a row at a position, with empty rows before it where there are none. -/
def setRow (rows : Array (Array Value)) (i : Nat) (row : Array Value) : Array (Array Value) :=
  if i < rows.size then rows.setIfInBounds i row
  else (rows ++ Array.replicate (i - rows.size) #[]).push row

/-- Give all slots of a node new values. -/
def fill (s : Store) (g : GraphId) (h : NodeHandle) (values : List Value) : Store :=
  { s with
    graphs := s.graphs.modify g fun x =>
      { x with cells := setRow x.cells h.index values.toArray } }

/-! ## Reports -/

/-- Report an event. -/
def emit (s : Store) (e : GraphEvent) : Store := { s with events := s.events.push e }

/-- Add a line to the log. -/
def report (s : Store) (level : LogLevel) (text : String) : Store :=
  { s with log := s.log.add level text }

/-- Add lines to the log. -/
def reportAll (s : Store) (lines : List LogLine) : Store :=
  { s with log := s.log ++ lines.toArray }

/-- A guid that was not made before. -/
def freshGuid (s : Store) : String × Store :=
  let n := s.guidsMade + 1
  ("fresh-" ++ GraphError.number n, { s with guidsMade := n })

/-- A dispatch id that was not made before. -/
def freshDispatch (s : Store) : String × Store :=
  let n := s.dispatchesMade + 1
  ("dispatch-" ++ GraphError.number n, { s with dispatchesMade := n })

/-! ## Cell laws -/

theorem cell_writeCell_of_ne (s : Store) (g : GraphId) (a b : PortAddress) (v : Value)
    (h : a.node.index ≠ b.node.index ∨ a.port ≠ b.port) :
    (s.writeCell g a v).cell g b = s.cell g b := by
  simp only [cell, writeCell, Array.getElem?_modify]
  cases hg : s.graphs[g]? with
  | none => simp
  | some x =>
    simp only [↓reduceIte, Option.map_some, Option.bind_some, Array.getElem?_modify]
    by_cases hi : a.node.index = b.node.index
    · have hp : a.port ≠ b.port := h.resolve_left (by simp [hi])
      cases hr : x.cells[b.node.index]? with
      | none => simp [hi]
      | some row => simp [hi, hp]
    · simp [hi]

theorem cell_writeCell_other (s : Store) (g k : GraphId) (a b : PortAddress) (v : Value)
    (h : g ≠ k) : (s.writeCell g a v).cell k b = s.cell k b := by
  simp [cell, writeCell, Array.getElem?_modify, h]

end Store
end FlowGraph
