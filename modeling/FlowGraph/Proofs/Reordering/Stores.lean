import FlowGraph.Proofs.Store
import FlowGraph.Proofs.Variable.Binding
import FlowGraph.Variable.Blackboard

/-! # Variables and stores under other names

    A store names nodes by handles and variables by ids.  A graph that is built twice, with
    its nodes in another order, has the same cells and variables under other names.

    Two tables may hold the same variables under different ids.  `V` relates the ids that
    name the same variable, and two tables are alike if such ids name variables that differ
    in nothing but the ids that they are bound to (`Variables.Alike`).  Reading, writing and
    binding go along chains of bindings, and chains of alike tables run side by side
    (`Alike.chase`); so all operations respect the relation.

    A `Renaming` relates the handles of that one graph and the ids of variables; all other
    graphs have the same handles on both sides.  Two stores are alike if what has related names
    is the same (`Store.Alike`).  Events and log lines are left out, and every operation of a
    running node respects the relation. -/

namespace FlowGraph

variable {V : VarId → VarId → Prop}

/-! ## Section 1: Alike tables -/

/-- Two variables differ at most in the id that they are bound to. -/
structure Variable.Alike (V : VarId → VarId → Prop) (x y : Variable) : Prop where
  own : { y with target := none } = { x with target := none }
  target : Option.Rel V x.target y.target

namespace Variable.Alike

variable {x y : Variable}

theorem name (h : x.Alike V y) : y.name = x.name :=
  (congrArg Variable.name h.own :)

theorem isShared (h : x.Alike V y) : y.isShared = x.isShared :=
  (congrArg Variable.isShared h.own :)

theorem isGlobal (h : x.Alike V y) : y.isGlobal = x.isGlobal :=
  (congrArg Variable.isGlobal h.own :)

theorem stored (h : x.Alike V y) : y.stored = x.stored :=
  (congrArg Variable.stored h.own :)

/-- Both are bound anew, or unbound. -/
theorem rebound (h : x.Alike V y) {t u : Option VarId} (htu : Option.Rel V t u) :
    Variable.Alike V { x with target := t } { y with target := u } :=
  ⟨h.own, htu⟩

theorem written (h : x.Alike V y) (a : Value) :
    Variable.Alike V { x with stored := a } { y with stored := a } := by
  refine ⟨?_, h.target⟩
  obtain ⟨_, _, _, _, _, _, _⟩ := x
  obtain ⟨_, _, _, _, _, _, _⟩ := y
  have hown := h.own
  simp only [Variable.mk.injEq] at hown ⊢
  simp [hown]

/-- A variable that is unbound is alike to itself. -/
theorem of_unbound (hx : x.target = none) : x.Alike V x := by
  refine ⟨rfl, ?_⟩
  rw [hx]
  exact .none

end Variable.Alike

namespace Variables

/-- Two tables hold the same variables under related ids. -/
structure Alike (V : VarId → VarId → Prop) (vs ws : Variables) : Prop where
  size : ws.cells.size = vs.cells.size
  cell : ∀ v w, V v w → Option.Rel (Variable.Alike V) (vs.find? v) (ws.find? w)

variable {vs ws : Variables}

/-! ## Section 2: Reading -/

theorem Alike.nameOf (h : vs.Alike V ws) {v w : VarId} (hvw : V v w) :
    ws.nameOf w = vs.nameOf v := by
  have hcell := h.cell v w hvw
  unfold Variables.nameOf
  generalize vs.find? v = x, ws.find? w = y at hcell
  cases hcell with
  | none => rfl
  | some hxy => exact hxy.name

theorem Alike.targetOf (h : vs.Alike V ws) {v w : VarId} (hvw : V v w) :
    Option.Rel V (vs.targetOf v) (ws.targetOf w) := by
  have hcell := h.cell v w hvw
  unfold Variables.targetOf
  generalize vs.find? v = x, ws.find? w = y at hcell
  cases hcell with
  | none => exact .none
  | some hxy => exact hxy.target

/-- Chains run side by side. -/
theorem Alike.chase (h : vs.Alike V ws) (n : Nat) {v w : VarId} (hvw : V v w) :
    V (vs.chase n v) (ws.chase n w) := by
  induction n generalizing v w with
  | zero => exact hvw
  | succ n ih =>
    have htarget := h.targetOf hvw
    unfold Variables.chase
    generalize vs.targetOf v = t, ws.targetOf w = u at htarget
    cases htarget with
    | none => exact hvw
    | some htu => exact ih htu

theorem Alike.root (h : vs.Alike V ws) {v w : VarId} (hvw : V v w) : V (vs.root v) (ws.root w) := by
  unfold Variables.root
  rw [h.size]
  exact h.chase vs.cells.size hvw

theorem Alike.get (h : vs.Alike V ws) {v w : VarId} (hvw : V v w) : ws.get w = vs.get v := by
  have hcell := h.cell _ _ (h.root hvw)
  unfold Variables.get
  generalize vs.find? (vs.root v) = x, ws.find? (ws.root w) = y at hcell
  cases hcell with
  | none => rfl
  | some hxy => simp [hxy.stored]

/-! ## Section 3: Changing -/

/-- Changing the variables of related ids alike. -/
theorem Alike.modify (hV : Relator.BiUnique V) (h : vs.Alike V ws) {v w : VarId} (hvw : V v w)
    (f g : Variable → Variable) (hfg : ∀ x y, x.Alike V y → (f x).Alike V (g y)) :
    (vs.modify v f).Alike V (ws.modify w g) := by
  refine ⟨by rw [size_modify, size_modify, h.size], fun a b hab => ?_⟩
  have hcell := h.cell a b hab
  have hsame : v = a ↔ w = b := Relator.rel_eq hV hvw hab
  rw [find?_modify, find?_modify]
  by_cases hva : v = a
  · rw [if_pos hva, if_pos (hsame.mp hva)]
    generalize vs.find? a = x, ws.find? b = y at hcell
    cases hcell with
    | none => exact .none
    | some hxy => exact .some (hfg _ _ hxy)
  · rw [if_neg hva, if_neg (mt hsame.mpr hva)]
    exact hcell

theorem Alike.set (hV : Relator.BiUnique V) (h : vs.Alike V ws) {v w : VarId} (hvw : V v w)
    (a : Value) : (vs.set v a).Alike V (ws.set w a) :=
  h.modify hV (h.root hvw) _ _ fun _ _ hxy => hxy.written a

theorem Alike.unbind (hV : Relator.BiUnique V) (h : vs.Alike V ws) {v w : VarId} (hvw : V v w) :
    (vs.unbind v).Alike V (ws.unbind w) :=
  h.modify hV hvw _ _ fun _ _ hxy => hxy.rebound .none

/-- A new variable gets the same id in both tables. -/
theorem Alike.add (hV : Relator.BiUnique V) (h : vs.Alike V ws)
    (hnew : V vs.cells.size vs.cells.size) (x y : Variable) (hxy : x.Alike V y) :
    (vs.add x).2.Alike V (ws.add y).2 := by
  refine ⟨by simp [Variables.add, h.size], fun a b hab => ?_⟩
  have hsame : a = vs.cells.size ↔ b = vs.cells.size := Relator.rel_eq hV hab hnew
  rw [find?_add_eq_ite, find?_add_eq_ite, h.size]
  by_cases ha : a = vs.cells.size
  · rw [if_pos ha, if_pos (hsame.mp ha)]
    exact .some hxy
  · rw [if_neg ha, if_neg (mt hsame.mpr ha)]
    exact h.cell a b hab

theorem Alike.reaches (hV : Relator.BiUnique V) (h : vs.Alike V ws) {goal goal' start start' : VarId}
    (hgoal : V goal goal') (hstart : V start start') (n : Nat) :
    ws.reaches goal' n start' = vs.reaches goal n start := by
  rw [Bool.eq_iff_iff, reaches_iff_chase, reaches_iff_chase]
  refine exists_congr fun i => and_congr_right fun _ => ?_
  exact (Relator.rel_eq hV (h.chase i hstart) hgoal).symm

/-- Bindings are refused alike. -/
theorem Alike.bind (hV : Relator.BiUnique V) (h : vs.Alike V ws) {v w t u : VarId} (hvw : V v w)
    (htu : V t u) : (∃ e e', vs.bind v t = .error e ∧ ws.bind w u = .error e') ∨
      ∃ vs' ws', vs.bind v t = .ok vs' ∧ ws.bind w u = .ok ws' ∧ vs'.Alike V ws' := by
  have hreaches := h.reaches hV hvw htu vs.cells.size
  unfold Variables.bind
  rw [h.size, hreaches]
  by_cases hrefused : vs.reaches v vs.cells.size t = true
  · left
    rw [if_pos hrefused, if_pos hrefused]
    exact ⟨_, _, rfl, rfl⟩
  · right
    rw [if_neg hrefused, if_neg hrefused]
    refine ⟨_, _, rfl, rfl, h.modify hV hvw _ _ fun _ _ hxy => hxy.rebound (.some htu)⟩

/-- The first variable of a name is found alike on a blackboard whose ids mean the same. -/
theorem Alike.board (h : vs.Alike V ws) (board : Blackboard) (hboard : ∀ v ∈ board, V v v)
    (name : String) : board.find? ws name = board.find? vs name := by
  unfold Blackboard.find?
  refine List.find?_congr fun v hv => ?_
  rw [h.nameOf (hboard v hv)]

end Variables

/-! ## Section 4: Renamings -/

/-- What names the same nodes and variables on two sides. -/
structure Renaming where
  /-- The graph whose nodes have other handles. -/
  graph : GraphId
  node : NodeHandle → NodeHandle → Prop
  var : VarId → VarId → Prop
  /-- The number of slots of a node of the graph. -/
  width : NodeHandle → Nat
  /-- The guids that traces are compared without. -/
  aside : String → Prop
  node_unique : Relator.BiUnique node
  var_unique : Relator.BiUnique var
  /-- Nodes are in one row on one side if they are on the other. -/
  index_iff : ∀ a b c d, node a b → node c d → (a.index = c.index ↔ b.index = d.index)

namespace Renaming

variable (ren : Renaming)

/-- The handles of a graph that name the same node. -/
def nodeIn (k : GraphId) (a b : NodeHandle) : Prop :=
  if k = ren.graph then ren.node a b else a = b

/-- The addresses in a graph that name the same slot. -/
structure SlotIn (k : GraphId) (a b : PortAddress) : Prop where
  node : ren.nodeIn k a.node b.node
  port : b.port = a.port

variable {ren}

theorem nodeIn_graph : ren.nodeIn ren.graph = ren.node := by
  funext a b
  unfold nodeIn
  rw [if_pos rfl]

theorem nodeIn_other {k : GraphId} (hk : k ≠ ren.graph) : ren.nodeIn k = Eq := by
  funext a b
  unfold nodeIn
  rw [if_neg hk]

theorem nodeIn_unique (k : GraphId) : Relator.BiUnique (ren.nodeIn k) := by
  by_cases hk : k = ren.graph
  · subst hk
    rw [nodeIn_graph]
    exact ren.node_unique
  · rw [nodeIn_other hk]
    exact ⟨fun _ _ _ h h' => h.trans h'.symm, fun _ _ _ h h' => h.symm.trans h'⟩

theorem nodeIn_index_iff {k : GraphId} {a b c d : NodeHandle} (hab : ren.nodeIn k a b)
    (hcd : ren.nodeIn k c d) : a.index = c.index ↔ b.index = d.index := by
  by_cases hk : k = ren.graph
  · subst hk
    rw [nodeIn_graph] at hab hcd
    exact ren.index_iff a b c d hab hcd
  · rw [nodeIn_other hk] at hab hcd
    rw [hab, hcd]

end Renaming

/-! ## Section 5: Alike stores -/

/-- Two stores hold the same under related names. -/
structure Store.Alike (ren : Renaming) (s t : Store) : Prop where
  objects : t.objects = s.objects
  globals : t.globals = s.globals
  scheduler : t.scheduler = s.scheduler
  guidsMade : t.guidsMade = s.guidsMade
  dispatchesMade : t.dispatchesMade = s.dispatchesMade
  vars : s.vars.Alike ren.var t.vars
  graphs : t.graphs.size = s.graphs.size
  /-- The other graphs are the same. -/
  others : ∀ k, k ≠ ren.graph → t.graphs[k]? = s.graphs[k]?
  disposedThere : t.isDisposed ren.graph = s.isDisposed ren.graph
  rowThere : ∀ a b, ren.node a b → t.rowSize ren.graph b.index = s.rowSize ren.graph a.index
  cellThere : ∀ a b, ren.node a.node b.node → b.port = a.port →
    t.cell ren.graph b = s.cell ren.graph a
  /-- There is a cell for every slot of the graph. -/
  held : ∀ a b, ren.node a b → s.rowSize ren.graph a.index = some (ren.width a)

namespace Store

variable {ren : Renaming} {s t : Store}

namespace Alike

theorem disposed (h : s.Alike ren t) (k : GraphId) : t.isDisposed k = s.isDisposed k := by
  by_cases hk : k = ren.graph
  · rw [hk, h.disposedThere]
  · unfold isDisposed
    rw [h.others k hk]

theorem rowSize (h : s.Alike ren t) (k : GraphId) (a b : NodeHandle) (hab : ren.nodeIn k a b) :
    t.rowSize k b.index = s.rowSize k a.index := by
  by_cases hk : k = ren.graph
  · subst hk
    rw [Renaming.nodeIn_graph] at hab
    exact h.rowThere a b hab
  · rw [Renaming.nodeIn_other hk] at hab
    unfold Store.rowSize
    rw [hab, h.others k hk]

theorem cell (h : s.Alike ren t) (k : GraphId) (a b : PortAddress) (hab : ren.SlotIn k a b) :
    t.cell k b = s.cell k a := by
  obtain ⟨hnode, hport⟩ := hab
  by_cases hk : k = ren.graph
  · subst hk
    rw [Renaming.nodeIn_graph] at hnode
    exact h.cellThere a b hnode hport
  · rw [Renaming.nodeIn_other hk] at hnode
    unfold Store.cell
    rw [hnode, hport, h.others k hk]

/-- Events and log lines do not matter. -/
theorem reported (h : s.Alike ren t) (events events' : Array GraphEvent) (log log' : Log) :
    Store.Alike ren { s with events, log } { t with events := events', log := log' } :=
  ⟨h.objects, h.globals, h.scheduler, h.guidsMade, h.dispatchesMade, h.vars, h.graphs, h.others,
    h.disposedThere, h.rowThere, h.cellThere, h.held⟩

theorem withVars (h : s.Alike ren t) {vs ws : Variables} (hvars : vs.Alike ren.var ws) :
    Store.Alike ren { s with vars := vs } { t with vars := ws } :=
  ⟨h.objects, h.globals, h.scheduler, h.guidsMade, h.dispatchesMade, hvars, h.graphs, h.others,
    h.disposedThere, h.rowThere, h.cellThere, h.held⟩

theorem withScheduler (h : s.Alike ren t) (scheduler : Scheduler) :
    Store.Alike ren { s with scheduler } { t with scheduler } :=
  ⟨h.objects, h.globals, rfl, h.guidsMade, h.dispatchesMade, h.vars, h.graphs, h.others,
    h.disposedThere, h.rowThere, h.cellThere, h.held⟩

theorem freshDispatch (h : s.Alike ren t) :
    t.freshDispatch.1 = s.freshDispatch.1 ∧ s.freshDispatch.2.Alike ren t.freshDispatch.2 := by
  unfold Store.freshDispatch
  rw [h.dispatchesMade]
  refine ⟨rfl, h.objects, h.globals, h.scheduler, h.guidsMade, rfl, h.vars, h.graphs, h.others,
    h.disposedThere, h.rowThere, h.cellThere, h.held⟩

end Alike

/-! ## Section 6: Writing cells -/

theorem isDisposed_writeCell (s : Store) (g k : GraphId) (a : PortAddress) (v : Value) :
    (s.writeCell g a v).isDisposed k = s.isDisposed k := by
  unfold isDisposed writeCell
  rw [Array.getElem?_modify]
  by_cases hk : g = k
  · cases s.graphs[k]? <;> simp [hk]
  · simp [hk]

/-- What a cell holds after a write: nothing happens where there is no such cell. -/
theorem cell_writeCell (s : Store) (g k : GraphId) (a b : PortAddress) (v : Value) :
    (s.writeCell g a v).cell k b =
      if g = k ∧ a.node.index = b.node.index ∧ a.port = b.port ∧
        a.port < (s.rowSize g a.node.index).getD 0 then v else s.cell k b := by
  by_cases hsame : g = k ∧ a.node.index = b.node.index ∧ a.port = b.port
  · obtain ⟨rfl, hindex, hport⟩ := hsame
    simp only [hindex, hport, true_and]
    cases hrow : s.rowSize g b.node.index with
    | none =>
      -- there is no row
      have hnone : (s.graphs[g]?).bind (·.cells[b.node.index]?) = none :=
        Option.map_eq_none_iff.mp hrow
      rw [if_neg (by simp)]
      unfold cell writeCell
      rw [Array.getElem?_modify, if_pos rfl]
      cases hg : s.graphs[g]? with
      | none => rfl
      | some x =>
        rw [hg, Option.bind_some] at hnone
        simp [Array.getElem?_modify, hindex, hnone]
    | some n =>
      obtain ⟨x, row, hx, hcells, rfl⟩ := (s.rowSize_eq_some_iff g b.node.index n).mp hrow
      unfold cell writeCell
      simp only [Array.getElem?_modify, hx, hindex, if_true, Option.map_some, Option.bind_some,
        hcells, hport, Array.getElem?_setIfInBounds, Option.getD_some]
      by_cases hlt : b.port < row.size
      · simp [hlt]
      · simp [hlt]
  · rw [if_neg fun h => hsame ⟨h.1, h.2.1, h.2.2.1⟩]
    by_cases hk : g = k
    · subst hk
      refine s.cell_writeCell_of_ne g a b v ?_
      by_contra hnot
      simp only [not_or, not_not] at hnot
      exact hsame ⟨rfl, hnot⟩
    · exact s.cell_writeCell_other g k a b v hk

/-- The same value is written at the same slot. -/
theorem Alike.writeCell (h : s.Alike ren t) {k : GraphId} {a b : PortAddress}
    (hab : ren.SlotIn k a b) (v : Value) :
    (s.writeCell k a v).Alike ren (t.writeCell k b v) := by
  have hrows := fun k' i => (s.rowsKept_writeCell (fun _ => True) k a v).row k' trivial i
  have hrows' := fun k' i => (t.rowsKept_writeCell (fun _ => True) k b v).row k' trivial i
  refine ⟨h.objects, h.globals, h.scheduler, h.guidsMade, h.dispatchesMade, h.vars, ?_, ?_, ?_, ?_,
    ?_, ?_⟩
  · simpa [Store.writeCell] using h.graphs
  · intro k' hk'
    unfold Store.writeCell
    rw [Array.getElem?_modify, Array.getElem?_modify, h.others k' hk']
    by_cases hk : k = k'
    · -- in another graph the slots have the same address
      have hnode := hab.node
      rw [Renaming.nodeIn_other (hk ▸ hk')] at hnode
      rw [if_pos hk, if_pos hk, hnode, hab.port]
    · rw [if_neg hk, if_neg hk]
  · rw [isDisposed_writeCell, isDisposed_writeCell, h.disposedThere]
  · intro c d hcd
    rw [hrows, hrows', h.rowThere c d hcd]
  · intro c d hcd hport
    have hrow := h.rowSize k a.node b.node hab.node
    rw [cell_writeCell, cell_writeCell, hrow, h.cellThere c d hcd hport, hab.port, hport]
    by_cases hk : k = ren.graph
    · subst hk
      have hnode : ren.nodeIn ren.graph c.node d.node := by
        rw [Renaming.nodeIn_graph]
        exact hcd
      simp only [Renaming.nodeIn_index_iff hab.node hnode]
    · simp [hk]
  · intro c d hcd
    rw [hrows, h.held c d hcd]

end Store
end FlowGraph
