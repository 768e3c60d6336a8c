import FlowGraph.Store
import Mathlib

/-! # The shape of a store

    The store has a row of cells for each node of a graph.  Rows are put there when a
    node is laid out; everything else leaves their number and sizes alone (`RowsKept`),
    so that a slot keeps its cell and what is written there can be read. -/

namespace FlowGraph

namespace Store

/-- The number of cells of a node's row. -/
def rowSize (s : Store) (g : GraphId) (i : Nat) : Option Nat :=
  ((s.graphs[g]?).bind (·.cells[i]?)).map Array.size

theorem rowSize_eq_some_iff (s : Store) (g : GraphId) (i n : Nat) :
    s.rowSize g i = some n ↔
      ∃ x row, s.graphs[g]? = some x ∧ x.cells[i]? = some row ∧ row.size = n := by
  unfold rowSize
  rw [Option.map_eq_some_iff]
  constructor
  · rintro ⟨row, hrow, hsize⟩
    obtain ⟨x, hx, hcells⟩ := Option.bind_eq_some_iff.mp hrow
    exact ⟨x, row, hx, hcells, hsize⟩
  · rintro ⟨x, row, hx, hcells, hsize⟩
    exact ⟨row, by rw [hx, Option.bind_some, hcells], hsize⟩

/-- No graph is forgotten, and some graphs keep the sizes of their rows. -/
structure RowsKept (P : GraphId → Prop) (s t : Store) : Prop where
  size : s.graphs.size ≤ t.graphs.size
  row : ∀ k, P k → ∀ i, t.rowSize k i = s.rowSize k i

theorem RowsKept.of_graphs (P : GraphId → Prop) {s t : Store} (h : t.graphs = s.graphs) :
    RowsKept P s t := by
  refine ⟨by rw [h], fun k _ i => ?_⟩
  unfold rowSize
  rw [h]

theorem RowsKept.trans {P : GraphId → Prop} {s t u : Store} (hst : RowsKept P s t)
    (htu : RowsKept P t u) : RowsKept P s u :=
  ⟨hst.size.trans htu.size, fun k hk i => (htu.row k hk i).trans (hst.row k hk i)⟩

theorem RowsKept.mono {P Q : GraphId → Prop} {s t : Store} (h : RowsKept P s t)
    (hQ : ∀ k, Q k → P k) : RowsKept Q s t := ⟨h.size, fun k hk => h.row k (hQ k hk)⟩

/-! ## Section 1: Changes of graphs -/

/-- A change of the cells of one graph. -/
theorem rowsKept_modify (s : Store) (g : GraphId) (f : GraphState → GraphState) :
    RowsKept (· ≠ g) s { s with graphs := s.graphs.modify g f } := by
  refine ⟨by simp, fun k hk i => ?_⟩
  simp [rowSize, Array.getElem?_modify, Ne.symm hk]

theorem rowsKept_setDisposed (P : GraphId → Prop) (s : Store) (g : GraphId) (disposed : Bool) :
    RowsKept P s (s.setDisposed g disposed) := by
  refine ⟨by simp [setDisposed], fun k _ i => ?_⟩
  unfold rowSize setDisposed
  simp only [Array.getElem?_modify]
  by_cases hk : g = k
  · cases s.graphs[k]? with
    | none => simp [hk]
    | some x => simp [hk]
  · simp [hk]

theorem rowsKept_writeCell (P : GraphId → Prop) (s : Store) (g : GraphId) (a : PortAddress)
    (v : Value) : RowsKept P s (s.writeCell g a v) := by
  refine ⟨by simp [writeCell], fun k _ i => ?_⟩
  unfold rowSize writeCell
  simp only [Array.getElem?_modify]
  by_cases hk : g = k
  · cases s.graphs[k]? with
    | none => simp [hk]
    | some x =>
      -- a value in a row replaces another one
      simp only [hk, ↓reduceIte, Option.map_some, Option.bind_some, Array.getElem?_modify]
      by_cases hi : a.node.index = i
      · cases x.cells[i]? with
        | none => simp [hi]
        | some row => simp [hi]
      · simp [hi]
  · simp [hk]

theorem rowsKept_addGraph (s : Store) : RowsKept (· < s.graphs.size) s s.addGraph.2 := by
  refine ⟨by simp [addGraph], fun k hk i => ?_⟩
  have hne : k ≠ s.graphs.size := Nat.ne_of_lt hk
  simp [rowSize, addGraph, Array.getElem?_push, hne]

/-! ## Section 2: Rows of a node -/

theorem getElem?_setRow_self (rows : Array (Array Value)) (i : Nat) (row : Array Value) :
    (setRow rows i row)[i]? = some row := by
  unfold setRow
  split
  · rename_i h
    simp [h]
  · -- with the empty rows before it, the new row comes last
    rename_i h
    rw [Array.getElem?_push, if_pos]
    simp
    omega

theorem getElem?_setRow_of_ne (rows : Array (Array Value)) (i j : Nat) (row old : Array Value)
    (hne : j ≠ i) (hold : rows[j]? = some old) : (setRow rows i row)[j]? = some old := by
  have hlt : j < rows.size := (Array.getElem?_eq_some_iff.mp hold).1
  unfold setRow
  split
  · rw [Array.getElem?_setIfInBounds_ne hne.symm]
    exact hold
  · rename_i h
    rw [Array.getElem?_push, if_neg (by simp; omega), Array.getElem?_append_left hlt]
    exact hold

theorem rowSize_fill_self (s : Store) (g : GraphId) (h : NodeHandle) (values : List Value)
    (hg : g < s.graphs.size) : (s.fill g h values).rowSize g h.index = some values.length := by
  unfold rowSize fill
  simp only [Array.getElem?_modify, ↓reduceIte, Array.getElem?_eq_getElem hg, Option.map_some,
    Option.bind_some, getElem?_setRow_self]
  simp

theorem rowSize_fill_of_ne (s : Store) (g : GraphId) (h : NodeHandle) (values : List Value)
    (i n : Nat) (hne : i ≠ h.index) (hrow : s.rowSize g i = some n) :
    (s.fill g h values).rowSize g i = some n := by
  obtain ⟨x, row, hx, hcells, hsize⟩ := (s.rowSize_eq_some_iff g i n).mp hrow
  rw [rowSize_eq_some_iff]
  refine ⟨{ x with cells := setRow x.cells h.index values.toArray }, row, ?_, ?_, hsize⟩
  · simp [fill, Array.getElem?_modify, hx]
  · exact getElem?_setRow_of_ne x.cells h.index i values.toArray row hne hcells

theorem rowsKept_fill (s : Store) (g : GraphId) (h : NodeHandle) (values : List Value) :
    RowsKept (· ≠ g) s (s.fill g h values) := s.rowsKept_modify g _

/-! ## Section 3: Reading back -/

/-- What is written at a slot of the row can be read. -/
theorem cell_writeCell_self (s : Store) (g : GraphId) (a : PortAddress) (v : Value) (n : Nat)
    (hrow : s.rowSize g a.node.index = some n) (hlt : a.port < n) :
    (s.writeCell g a v).cell g a = v := by
  obtain ⟨x, row, hx, hcells, rfl⟩ := (s.rowSize_eq_some_iff g a.node.index n).mp hrow
  unfold cell writeCell
  simp [Array.getElem?_modify, hx, hcells, hlt]

end Store
end FlowGraph
