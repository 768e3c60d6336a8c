import FlowGraph.Proofs.Graph.Slotted
import FlowGraph.Proofs.Reordering.Placing

/-! # First values

    Hydrating gives every slot of a graph its first value (`Graph.ofData_stocked`), whatever was
    saved and whatever functions come with it: the functions are graphs of their own, and
    hydrating a graph leaves the cells of all graphs alone that were there before
    (`Store.CellsKept`).

    Of a slot that was laid out the first value is the recorded constant, read as the type of the
    declared port (`GraphNode.LaidOut.exists_initialValue`).

    Slots come and go when a graph is edited, and values change while it runs.  Each slot keeps
    having its cell all the time (`Graph.Live.celled`). -/

namespace FlowGraph

/-! ## Section 1: Cells of other graphs -/

namespace Store

variable {P Q : GraphId → Prop} {s t u : Store}

/-- The cells of some graphs are as they were. -/
structure CellsKept (P : GraphId → Prop) (s t : Store) : Prop where
  size : s.graphs.size ≤ t.graphs.size
  graph : ∀ k, P k → t.graphs[k]? = s.graphs[k]?

theorem CellsKept.of_graphs (P : GraphId → Prop) (h : t.graphs = s.graphs) : CellsKept P s t :=
  ⟨by rw [h], fun k _ => by rw [h]⟩

theorem CellsKept.trans (h : CellsKept P s t) (h' : CellsKept P t u) : CellsKept P s u :=
  ⟨h.size.trans h'.size, fun k hk => (h'.graph k hk).trans (h.graph k hk)⟩

theorem CellsKept.mono (h : CellsKept P s t) (himp : ∀ k, Q k → P k) : CellsKept Q s t :=
  ⟨h.size, fun k hk => h.graph k (himp k hk)⟩

theorem CellsKept.row {g : GraphId} (h : CellsKept P s t) (hg : P g) (i : Nat) :
    t.row g i = s.row g i := by
  unfold Store.row
  rw [h.graph g hg]

theorem Works.cellsKept {g : GraphId} (h : Works g s t) : CellsKept (· ≠ g) s t :=
  ⟨h.size.ge, h.others⟩

theorem cellsKept_addGraph (s : Store) : CellsKept (· < s.graphs.size) s s.addGraph.2 := by
  refine ⟨by simp [addGraph], fun k hk => ?_⟩
  have hne : k ≠ s.graphs.size := Nat.ne_of_lt hk
  simp [addGraph, Array.getElem?_push, hne]

/-- What a slot holds, from the cells of its node. -/
theorem cell_of_row {g : GraphId} {a : PortAddress} {values : List Value} {v : Value}
    (hrow : s.row g a.node.index = some values.toArray) (hv : values[a.port]? = some v) :
    s.cell g a = v := by
  unfold cell
  unfold row at hrow
  rw [hrow, Option.bind_some, List.getElem?_toArray, hv, Option.getD_some]

end Store

/-! ## Section 2: Hydrating a network -/

namespace Graph

/-- All slots have cells, and hold their first values. -/
structure Stocked (g : Graph) (s : Store) : Prop where
  consistent : g.toNetwork.Consistent
  known : g.id < s.graphs.size
  valued : g.Valued s

/-- A step of hydrating works on the cells of its own graph only, and gives all slots their first
    values. -/
structure Stocks (g : Graph) (s : Store) (k : Graph) (t : Store) : Prop where
  id : k.id = g.id
  cells : Store.CellsKept (· ≠ g.id) s t
  stocked : k.Stocked t

variable {g k : Graph} {s t : Store}

theorem Stocked.stocks (hg : g.Stocked s) : g.Stocks s g s := ⟨rfl, .of_graphs _ rfl, hg⟩

theorem Stocks.trans {l : Graph} {u : Store} (hgk : g.Stocks s k t) (hkl : k.Stocks t l u) :
    g.Stocks s l u := by
  have hcells := hkl.cells
  rw [hgk.id] at hcells
  exact ⟨hkl.id.trans hgk.id, hgk.cells.trans hcells, hkl.stocked⟩

theorem create_stocked (name : String) (s : Store) :
    (create name s).1.Stocked (create name s).2 := by
  refine ⟨create_consistent name s, ?_, fun h x hx => ?_⟩
  · show s.graphs.size < (s.graphs.push {}).size
    simp
  · rw [create_node?] at hx
    cases hx

theorem addNode_stocks (hg : g.Stocked s) (registry : Registry) (d : NodeData) :
    g.Stocks s (g.addNode registry d s).1.2 (g.addNode registry d s).2 := by
  have hconsistent := g.addNode_consistent registry d s hg.consistent
  -- making the node makes variables, and placing it fills its row
  obtain ⟨x, u, heq, hu⟩ : ∃ x u, g.addNode registry d s = g.insert x u ∧ u.graphs = s.graphs :=
    ⟨_, _, rfl, keepsGraphs_makeNode _ _ _⟩
  obtain ⟨_, ⟨guid, rfl⟩, t, ht, hinsert⟩ := g.insert_eq x u
  rw [heq, hinsert] at hconsistent ⊢
  have hgraphs : t.graphs = s.graphs := ht.trans hu
  have hworks := Store.works_fill t g.id (g.nodes.insert { x with guid := guid }).1 x.initialValues
  have hcells : Store.CellsKept (· ≠ g.id) s
      (t.fill g.id (g.nodes.insert { x with guid := guid }).1 x.initialValues) :=
    (Store.CellsKept.of_graphs _ hgraphs).trans hworks.cellsKept
  have hknown : g.id < t.graphs.size := hgraphs ▸ hg.known
  have hvalued : g.Valued t := by
    intro h y hy
    rw [(Store.CellsKept.of_graphs (fun _ => True) hgraphs).row trivial]
    exact hg.valued h y hy
  have hget := fun h => Arena.get?_insert g.nodes { x with guid := guid } h
    hg.consistent.sound.arena
  refine ⟨rfl, hcells, hconsistent, hworks.size ▸ hknown, ?_⟩
  refine hvalued.fill ?_ hknown _ { x with guid := guid } ?_ fun j y hj hy => ?_
  · rfl
  · exact (hget _).trans (if_pos rfl)
  · exact ((hget j).trans (if_neg hj)).symm.trans hy

theorem addNodes_stocks (hg : g.Stocked s) (registry : Registry) (data : List NodeData) :
    g.Stocks s (g.addNodes registry data s).1 (g.addNodes registry data s).2 := by
  induction data generalizing g s with
  | nil => exact hg.stocks
  | cons d rest ih =>
    have hfirst := addNode_stocks hg registry d
    exact hfirst.trans (ih hfirst.stocked)

theorem addVariables_stocks (hg : g.Stocked s) (data : List VariableData) :
    g.Stocks s (g.addVariables data s).1 (g.addVariables data s).2 := by
  have hconsistent := (g.addVariables_keeps data s).network.consistent hg.consistent
  rw [g.addVariables_kept data s] at hconsistent ⊢
  exact ⟨rfl, .of_graphs _ rfl, hconsistent, hg.known, hg.valued⟩

theorem addIncomingSlots_stocks (hg : g.Stocked s) :
    g.Stocks s (g.addIncomingSlots s).1 (g.addIncomingSlots s).2 := by
  have hid := (g.addIncomingSlots_grows s).id
  obtain ⟨hvalued, hworks⟩ := g.addIncomingSlots_kept s hg.known hg.valued
  refine ⟨hid, hworks.cellsKept, (g.addIncomingSlots_keeps s).network.consistent hg.consistent,
    ?_, hvalued⟩
  rw [hid, hworks.size]
  exact hg.known

theorem placeAll_stocks (registry : Registry) (data : GraphData) (s : Store) :
    (create data.name s).1.Stocks (create data.name s).2 (placeAll registry data s).1
      (placeAll registry data s).2 := by
  have hnodes := addNodes_stocks (create_stocked data.name s) registry data.nodes
  have hvariables := addVariables_stocks hnodes.stocked data.vars
  exact (hnodes.trans hvariables).trans (addIncomingSlots_stocks hvariables.stocked)

/-- A node that is laid out holds its first values. -/
theorem layOut_row (g : Graph) (h : NodeHandle) (x : GraphNode) (hx : g.node? h = some x)
    (s : Store) (hknown : g.id < s.graphs.size) :
    (g.layOut h s).2.row g.id h.index = some x.initialValues.toArray := by
  unfold layOut
  simp only [hx]
  exact Store.row_fill_self (s.reportAll _) g.id h x.initialValues hknown

/-! ## Section 3: Hydrating a graph with its functions -/

theorem placeAll_cellsKept (registry : Registry) (data : GraphData) (s : Store) :
    Store.CellsKept (· < s.graphs.size) s (placeAll registry data s).2 :=
  s.cellsKept_addGraph.trans
    ((placeAll_stocks registry data s).cells.mono fun _ hk => Nat.ne_of_lt hk)

mutual

/-- Hydrating touches no cell of the graphs that were there. -/
theorem ofData_cellsKept (registry : Registry) (data : GraphData) (s : Store) :
    Store.CellsKept (· < s.graphs.size) s (ofData registry data s).2 := by
  obtain ⟨name, nodes, vars, groups, functions⟩ := data
  have hplaced := placeAll_cellsKept registry ⟨name, nodes, vars, groups, functions⟩ s
  -- the graph itself is new, and so are those of the functions, which come after it
  rw [ofData_eq]
  exact hplaced.trans ((functionsOfData_cellsKept registry functions _).mono fun _ hk =>
    Nat.lt_of_lt_of_le hk hplaced.size)

theorem functionsOfData_cellsKept (registry : Registry) (functions : List (String × GraphData))
    (s : Store) : Store.CellsKept (· < s.graphs.size) s
      (functionsOfData registry functions s).2 := by
  match functions with
  | [] => exact .of_graphs _ rfl
  | (name, data) :: rest =>
    have hfirst := ofData_cellsKept registry data s
    exact hfirst.trans ((functionsOfData_cellsKept registry rest _).mono fun _ hk =>
      Nat.lt_of_lt_of_le hk hfirst.size)

end

/-- A hydrated graph has cells for all slots, and they hold their first values. -/
theorem ofData_stocked (registry : Registry) (data : GraphData) (s : Store) :
    (ofData registry data s).1.Stocked (ofData registry data s).2 := by
  have hplaced := (placeAll_stocks registry data s).stocked
  have hkept := functionsOfData_cellsKept registry data.functions (placeAll registry data s).2
  have hconsistent := ofData_consistent registry data s
  rw [ofData_eq] at hconsistent ⊢
  exact ⟨hconsistent, hplaced.known.trans_le hkept.size, fun h x hx =>
    (hkept.row hplaced.known h.index).trans (hplaced.valued h x hx)⟩

end Graph

/-! ## Section 4: First values of slots -/

namespace GraphNode

open Layout

/-- The slots of a node and their first values are those of its declared ports. -/
theorem LaidOut.exists_initialValue {x : GraphNode} (hx : x.LaidOut) (i : Nat) (p : Port)
    (hp : x.ports[i]? = some p) : ∃ d ∈ x.descriptor.ports, ∃ index, HasSlot x.records d index ∧
      p = Port.ofDescriptor d index ∧
      x.initialValues[i]? = some (initialValue x.records d index) := by
  have hports : x.ports = (slots x.records x.descriptor.ports).map
      fun e => Port.ofDescriptor e.1 e.2 := hx
  rw [hports, List.getElem?_map] at hp
  obtain ⟨⟨d, index⟩, hslot, rfl⟩ := Option.map_eq_some_iff.mp hp
  obtain ⟨e, he, hin⟩ := List.mem_flatMap.mp (List.mem_of_getElem? hslot)
  obtain ⟨j, hj, heq⟩ := List.mem_map.mp hin
  cases heq
  refine ⟨d, he, index, List.mem_range.mp hj, rfl, ?_⟩
  show ((slots x.records x.descriptor.ports).map _)[i]? = _
  rw [List.getElem?_map, hslot]
  rfl

/-- If no name is declared twice, a slot is found at its declared port. -/
theorem LaidOut.exists_declared {x : GraphNode} (hx : x.LaidOut)
    (hnames : (x.descriptor.ports.map (·.name)).Nodup) (name : String) (index i : Nat) (p : Port)
    (hi : x.portIndex name index = some i) (hp : x.ports[i]? = some p) :
    ∃ d, x.descriptor.port? name = some d ∧ HasSlot x.records d index ∧
      p = Port.ofDescriptor d index ∧
      x.initialValues[i]? = some (initialValue x.records d index) := by
  obtain ⟨d, hd, index', hslot, rfl, hvalue⟩ := hx.exists_initialValue i p hp
  obtain ⟨hlt, hisSlot, _⟩ := List.findIdx?_eq_some_iff_getElem.mp hi
  obtain ⟨rfl, rfl⟩ : d.name = name ∧ index' = index := by
    rw [List.getElem?_eq_getElem hlt] at hp
    rw [Option.some.inj hp] at hisSlot
    have hboth := Bool.and_eq_true_iff.mp hisSlot
    exact ⟨of_decide_eq_true hboth.1, of_decide_eq_true hboth.2⟩
  refine ⟨d, ?_, hslot, rfl, hvalue⟩
  cases hfound : x.descriptor.port? d.name with
  | none => simpa using List.find?_eq_none.mp hfound d hd
  | some e =>
    have hname : e.name = d.name := NodeDescriptor.name_of_port? hfound
    rw [List.inj_on_of_nodup_map hnames (List.mem_of_find?_eq_some hfound) hd hname]

end GraphNode

/-! ## Section 5: Cells of live graphs -/

/-- Every node has a row of cells, one for each slot. -/
structure Network.Celled (n : Network) (s : Store) : Prop where
  known : n.id < s.graphs.size
  held : ∀ h x, n.node? h = some x → s.rowSize n.id h.index = some x.ports.length

namespace Network

variable {n m : Network} {s t : Store}

theorem Celled.of_rows (hn : n.Celled s) {P : GraphId → Prop} (hkept : Store.RowsKept P s t)
    (hP : P n.id) : n.Celled t :=
  ⟨hn.known.trans_le hkept.size,
    fun h x hx => (hkept.row n.id hP h.index).trans (hn.held h x hx)⟩

/-- An edit that keeps the number of slots of every node. -/
theorem Celled.of_nodes (hn : n.Celled s) (hid : m.id = n.id)
    (hnode : ∀ h y, m.node? h = some y →
      ∃ x, n.node? h = some x ∧ y.ports.length = x.ports.length) : m.Celled s := by
  refine ⟨by rw [hid]; exact hn.known, fun h y hy => ?_⟩
  obtain ⟨x, hx, hlength⟩ := hnode h y hy
  rw [hid, hlength]
  exact hn.held h x hx

/-- A node is laid out or placed: it gets a row of its own. -/
theorem Celled.fill (hn : n.Celled s) (hid : m.id = n.id) (h : NodeHandle) (x : GraphNode)
    (values : List Value) (hx : m.node? h = some x) (hlength : values.length = x.ports.length)
    (hother : ∀ k y, k ≠ h → m.node? k = some y → n.node? k = some y) :
    m.Celled (s.fill n.id h values) := by
  refine ⟨by rw [hid]; exact hn.known.trans_le (s.rowsKept_fill n.id h values).size, ?_⟩
  intro k y hy
  rw [hid]
  by_cases hk : k = h
  · rw [hk, hx] at hy
    cases hy
    rw [hk, ← hlength]
    exact s.rowSize_fill_self n.id h values hn.known
  · -- two live nodes are not in one slot of the arena
    have hi : k.index ≠ h.index := fun hi => hk (Arena.eq_of_index_eq m.nodes k h y x hy hx hi)
    exact s.rowSize_fill_of_ne n.id h values k.index _ hi (hn.held k y (hother k y hk hy))

end Network

namespace Graph

variable {g : Graph} {s : Store}

theorem modifyRecords_celled (hg : g.toNetwork.Celled s) (h : NodeHandle)
    (f : List PortData → List PortData) : (g.modifyRecords h f).toNetwork.Celled s := by
  refine hg.of_nodes rfl fun k y hy => ?_
  have hget : (g.modifyRecords h f).node? k = _ := Arena.get?_modify ..
  rw [hget] at hy
  by_cases hk : k = h
  · rw [if_pos hk] at hy
    obtain ⟨x, hx, rfl⟩ := Option.map_eq_some_iff.mp hy
    exact ⟨x, hk ▸ hx, rfl⟩
  · rw [if_neg hk] at hy
    exact ⟨y, hy, rfl⟩

theorem layOut_celled (hg : g.toNetwork.Celled s) (h : NodeHandle) :
    (g.layOut h s).1.toNetwork.Celled (g.layOut h s).2 := by
  cases hx : g.node? h with
  | none =>
    have heq : g.layOut h s = (g, s) := by
      unfold layOut
      simp only [hx]
      rfl
    rw [heq]
    exact hg
  | some x =>
    have heq : g.layOut h s = ({ g with nodes := g.nodes.modify h GraphNode.laidOut },
        (s.reportAll (Layout.notices x.guid x.records x.descriptor.ports)).fill g.id h
          x.initialValues) := by
      unfold layOut
      simp only [hx]
      rfl
    rw [heq]
    have hreport : g.toNetwork.Celled
        (s.reportAll (Layout.notices x.guid x.records x.descriptor.ports)) :=
      hg.of_rows (.of_graphs (fun _ => True) rfl) trivial
    refine hreport.fill ?_ h x.laidOut _ ?_ x.length_initialValues fun k y hk hy => ?_
    · rfl
    · unfold Network.node? at hx ⊢
      rw [Arena.get?_modify, if_pos rfl, hx, Option.map_some]
    · unfold Network.node? at hy ⊢
      rwa [Arena.get?_modify, if_neg hk] at hy

theorem insert_celled (hg : g.toNetwork.Celled s) (harena : g.nodes.WellFormed) (x : GraphNode)
    (hx : x.LaidOut) : (g.insert x s).1.2.toNetwork.Celled (g.insert x s).2 := by
  obtain ⟨y, hy, t, ht, heq⟩ := g.insert_eq x s
  rw [heq]
  have hstore : g.toNetwork.Celled t := hg.of_rows (.of_graphs (fun _ => True) ht) trivial
  have hget := fun k => Arena.get?_insert g.nodes y k harena
  refine hstore.fill ?_ _ y _ ?_ ?_ fun k z hk hz => ?_
  · rfl
  · exact (hget _).trans (if_pos rfl)
  · obtain ⟨guid, rfl⟩ := hy
    have hports : x.ports = x.laidOut.ports := hx
    rw [x.length_initialValues, ← hports]
  · exact ((hget k).trans (if_neg hk)).symm.trans hz

/-- A new node may get the place of one that was removed, and then has a row of its own. -/
theorem removeNode_celled (hg : g.toNetwork.Celled s) (vs : Variables) (h : NodeHandle) :
    (g.removeNode vs h).2.toNetwork.Celled s := by
  unfold removeNode
  cases hr : g.nodes.remove h with
  | none => exact hg
  | some r =>
    obtain ⟨x, nodes⟩ := r
    refine hg.of_nodes rfl fun k y hy => ?_
    unfold Network.node? at hy
    dsimp only [invalidate] at hy
    rw [Arena.get?_map, (Arena.get?_remove g.nodes nodes h k x hr).2] at hy
    obtain ⟨z, hz, rfl⟩ := Option.map_eq_some_iff.mp hy
    split at hz
    · cases hz
    · exact ⟨z, hz, rfl⟩

theorem openSlot_celled (hg : g.toNetwork.Celled s) (target : SlotRef) :
    (g.openSlot target s).1.toNetwork.Celled (g.openSlot target s).2 := by
  rcases g.openSlot_cases target s with ⟨heq, _⟩ | ⟨k, _, _, _, _, _, heq⟩
  · rw [heq]
    exact hg
  · rw [heq]
    exact layOut_celled (modifyRecords_celled hg k _) k

theorem recordConnection_celled (hg : g.toNetwork.Celled s) (h : NodeHandle) (d : PortDescriptor)
    (source target : SlotRef) : (g.recordConnection h d source target s).1.toNetwork.Celled
      (g.recordConnection h d source target s).2 := by
  unfold recordConnection
  cases d.array with
  | true => exact layOut_celled (modifyRecords_celled hg h _) h
  | false => exact modifyRecords_celled hg h _

theorem connect_celled (hg : g.toNetwork.Celled s) (source target : SlotRef) :
    (Operation.apply (.connect source target) (g, s)).1.toNetwork.Celled
      (Operation.apply (.connect source target) (g, s)).2 := by
  unfold Operation.apply
  dsimp only
  rcases g.connect_cases source target s with ⟨e, heq⟩ | ⟨h, x, d, hc⟩
  · rw [heq]
    exact hg
  · rw [hc.connect_eq s]
    have hopened := openSlot_celled (recordConnection_celled hg h d source target) target
    exact ⟨hopened.known, hopened.held⟩

theorem setConstant_celled (hg : g.toNetwork.Celled s) (slot : SlotRef) (v : Value) :
    (g.setConstant slot v s).1.1.toNetwork.Celled (g.setConstant slot v s).2 := by
  rcases g.setConstant_eq slot v s with ⟨e, heq⟩ | ⟨h, x, d, _, _, _, hresult⟩
  · rw [heq]
    exact hg
  · have hrecorded := modifyRecords_celled hg h (constantRecord slot v)
    rcases hresult with ⟨i, _, heq⟩ | ⟨_, _, heq⟩ | ⟨_, _, e, heq⟩
    · rw [heq]
      exact hrecorded.of_rows (Store.rowsKept_writeCell (fun _ => True) s g.id ⟨h, i⟩ v) trivial
    · rw [heq]
      exact layOut_celled hrecorded h
    · rw [heq]
      exact hrecorded

mutual

/-- Disposing touches no row. -/
theorem dispose_kept (g : Graph) (s : Store) :
    Store.RowsKept (fun _ => True) s (g.dispose s).2 := by
  obtain ⟨n, groups, functions, compiled⟩ := g
  unfold dispose
  simp only [bind, StateT.bind, get, getThe, MonadStateOf.get, StateT.get, pure]
  split
  · exact .of_graphs _ rfl
  · have hmarked := s.rowsKept_setDisposed (fun _ => True) n.id true
    have hunbound : Store.RowsKept (fun _ => True) (s.setDisposed n.id true)
        (unbindVariables n (s.setDisposed n.id true)).2 := .of_graphs _ rfl
    exact (hmarked.trans hunbound).trans (disposeFunctions_kept functions _)

theorem disposeFunctions_kept (functions : List (String × Graph)) (s : Store) :
    Store.RowsKept (fun _ => True) s (disposeFunctions functions s).2 := by
  match functions with
  | [] => exact .of_graphs _ rfl
  | (name, f) :: rest => exact (dispose_kept f s).trans (disposeFunctions_kept rest _)

end

theorem compile_celled (hg : g.toNetwork.Celled s) (conversions : Conversions) :
    (g.compile conversions s).1.1.toNetwork.Celled (g.compile conversions s).2 := by
  have hlink : (g.link conversions).1.Celled s := by
    refine hg.of_nodes (g.link_id conversions) fun h y hy => ?_
    obtain ⟨x, hx, hxy⟩ := Network.node?_of_unlinked_eq (g.link_unlinked conversions).symm h y hy
    exact ⟨x, hx, length_ports_of_unlinked_eq x y hxy.symm⟩
  have hcompiled : (g.compile conversions s).1.1.toNetwork.Celled s := by
    rcases g.compile_cases conversions s with ⟨_, _, heq⟩ | ⟨_, ps, _, heq⟩ | ⟨_, _, heq, _⟩
    · rw [heq]
      exact hlink
    · rw [heq]
      exact ⟨hlink.known, hlink.held⟩
    · rw [heq]
      exact hlink
  exact hcompiled.of_rows (compile_kept conversions g s) trivial

/-- **Step lemma**: after an operation every slot has its cell. -/
theorem apply_celled (op : Operation) (hop : ∀ work, op ≠ .elsewhere work)
    (hg : g.toNetwork.Celled s) (harena : g.nodes.WellFormed) :
    (op.apply (g, s)).1.toNetwork.Celled (op.apply (g, s)).2 := by
  cases op with
  | addNode registry data =>
    obtain ⟨x, t, heq, ht, hx⟩ : ∃ x t, g.addNode registry data s = g.insert x t ∧
        t.graphs = s.graphs ∧ x.LaidOut := ⟨_, _, rfl, keepsGraphs_makeNode _ _ _, rfl⟩
    show (g.addNode registry data s).1.2.toNetwork.Celled (g.addNode registry data s).2
    rw [heq]
    exact insert_celled (hg.of_rows (.of_graphs (fun _ => True) ht) trivial) harena x hx
  | addLive guid descriptor behavior =>
    obtain ⟨x, t, heq, ht, hx⟩ : ∃ x t, g.addLive guid descriptor behavior s = g.insert x t ∧
        t.graphs = s.graphs ∧ x.LaidOut := ⟨_, _, rfl, keepsGraphs_makeNode _ _ _, rfl⟩
    show (g.addLive guid descriptor behavior s).1.2.toNetwork.Celled
      (g.addLive guid descriptor behavior s).2
    rw [heq]
    exact insert_celled (hg.of_rows (.of_graphs (fun _ => True) ht) trivial) harena x hx
  | removeNode h => exact removeNode_celled hg s.vars h
  | connect source target => exact connect_celled hg source target
  | setConstant slot v => exact setConstant_celled hg slot v
  | addFunction name f => exact ⟨hg.known, hg.held⟩
  | addGroup group => exact ⟨hg.known, hg.held⟩
  | clearPaths => exact ⟨hg.known, hg.held⟩
  | dispose => exact hg.of_rows (dispose_kept g s) trivial
  | compile conversions => exact compile_celled hg conversions
  | elsewhere work => exact absurd rfl (hop work)

/-- A graph and the store as they come about: a graph is hydrated, edited, compiled and disposed,
    its blackboard is changed, and in between there is other work, such as that of dispatches,
    that leaves it its cells, whatever they hold then. -/
inductive Live : Graph → Store → Prop where
  | hydrated (registry : Registry) (data : GraphData) (s : Store) :
      Live (ofData registry data s).1 (ofData registry data s).2
  | operate (op : Operation) {g : Graph} {s : Store} (hop : ∀ work, op ≠ .elsewhere work)
      (hg : Live g s) : Live (op.apply (g, s)).1 (op.apply (g, s)).2
  | setBoard (board : Blackboard) {g : Graph} {s : Store} (hg : Live g s) :
      Live { g with blackboard := board } s
  | elsewhere {g : Graph} {s t : Store} (hrows : Store.RowsKept (· = g.id) s t) (hg : Live g s) :
      Live g t

theorem Live.run {st : State} (ops : List Operation) (hst : st.1.Live st.2)
    (hops : ∀ op ∈ ops, ∀ work, op ≠ .elsewhere work) :
    (Graph.run ops st).1.Live (Graph.run ops st).2 := by
  induction ops generalizing st with
  | nil => exact hst
  | cons op rest ih =>
    obtain ⟨g, s⟩ := st
    have hfirst : (op.apply (g, s)).1.Live (op.apply (g, s)).2 :=
      hst.operate op (hops op List.mem_cons_self)
    exact ih hfirst fun next hnext => hops next (List.mem_cons_of_mem op hnext)

/-- A live graph is consistent and its nodes are fitted, and every slot has its cell. -/
theorem Live.celled (hg : g.Live s) :
    (g.toNetwork.Consistent ∧ g.toNetwork.Fitted) ∧ g.toNetwork.Celled s := by
  induction hg with
  | hydrated registry data s =>
    have hlaidOut := ofData_laidOut registry data s
    have hstocked := ofData_stocked registry data s
    refine ⟨⟨hstocked.consistent, fun h x hx => (hlaidOut h x hx).fitted⟩, hstocked.known, ?_⟩
    intro h x hx
    have hports : x.ports = x.laidOut.ports := hlaidOut h x hx
    have hrow := hstocked.valued h x hx
    unfold Store.row at hrow
    unfold Store.rowSize
    rw [hrow, Option.map_some, List.size_toArray, x.length_initialValues, ← hports]
  | operate op hop _ ih => exact ⟨apply_fitted op _ ih.1, apply_celled op hop ih.2 ih.1.1.sound.arena⟩
  | @setBoard board g s _ ih =>
    refine ⟨⟨?_, ih.1.2.of_nodes rfl⟩, ih.2.known, ih.2.held⟩
    exact Network.Keeps.consistent (n := g.toNetwork) (.of_nodes rfl rfl) ih.1.1
  | elsewhere hrows _ ih => exact ⟨ih.1, ih.2.of_rows hrows rfl⟩

end Graph
end FlowGraph
