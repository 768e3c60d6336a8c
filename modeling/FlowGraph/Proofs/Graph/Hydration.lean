import FlowGraph.Proofs.Graph.Editing
import FlowGraph.Proofs.Node.Signature
import FlowGraph.Proofs.Store

/-! # What a compiled graph guarantees

    A graph that is hydrated with the types of the library and compiled is `Ready`: the
    order lists its nodes, a node that runs on demand has the slots of its behavior, every
    slot has a cell, every link starts at an output and is recorded as a dependency, and
    the paths are those of the dependencies. -/

namespace FlowGraph

/-! ## Section 1: Slots of a node -/

/-- The name, the index and the direction of a slot. -/
def Port.outline (p : Port) : String × Nat × PortDirection := (p.name, p.index, p.direction)

namespace GraphNode

/-- A node that runs on demand has the slots of its behavior, each once. -/
def Fits (x : GraphNode) : Prop :=
  x.descriptor.path = .dependency → x.descriptor.Declares x.behavior ∧
    ∀ signature, x.behavior.signature = some signature →
      x.ports.map Port.outline = signature.map fun slot => (slot.1, 0, slot.2)

/-- Ports that are no arrays have one slot each, whatever is recorded. -/
theorem outline_portsOf (records : List PortData) (ports : List PortDescriptor)
    (signature : List (String × PortDirection))
    (h : ports.map PortDescriptor.outline = signature.map fun slot => (slot.1, slot.2, false)) :
    (Layout.portsOf records ports).map Port.outline
      = signature.map fun slot => (slot.1, 0, slot.2) := by
  induction ports generalizing signature with
  | nil =>
    cases signature with
    | nil => rfl
    | cons slot rest => cases h
  | cons d ds ih =>
    cases signature with
    | nil => cases h
    | cons slot rest =>
      simp only [List.map_cons, List.cons.injEq] at h
      obtain ⟨houtline, hrest⟩ := h
      obtain ⟨hname, hdirection, harray⟩ : d.name = slot.1 ∧ d.direction = slot.2 ∧ d.array = false := by
        simpa [PortDescriptor.outline] using houtline
      have hslots : Layout.portsOf records (d :: ds)
          = Port.ofDescriptor d 0 :: Layout.portsOf records ds := by
        simp [Layout.portsOf, Layout.slots, Layout.slotsOf, harray]
      rw [hslots, List.map_cons, List.map_cons, ih rest hrest]
      simp [Port.outline, Port.ofDescriptor, hname, hdirection]

/-- A node that was just laid out. -/
theorem fits_of_declares (x : GraphNode) (hports : x.ports = x.laidOut.ports)
    (hdeclares : x.descriptor.path = .dependency → x.descriptor.Declares x.behavior) : x.Fits := by
  intro hpath
  refine ⟨hdeclares hpath, fun signature hsignature => ?_⟩
  obtain ⟨signature', hsignature', hdeclared⟩ := hdeclares hpath
  rw [hsignature] at hsignature'
  cases hsignature'
  rw [hports]
  exact outline_portsOf x.records x.descriptor.ports signature hdeclared

theorem fits_of_laidOut (x : GraphNode) (hx : x.Fits) : x.laidOut.Fits :=
  fits_of_declares x.laidOut rfl fun hpath => (hx hpath).1

theorem fits_of_unlinked_eq (x y : GraphNode) (h : y.unlinked = x.unlinked) (hx : x.Fits) :
    y.Fits := by
  have houtline : ∀ z : GraphNode, z.unlinked.ports.map Port.outline = z.ports.map Port.outline := by
    intro z
    unfold unlinked
    rw [List.map_map]
    rfl
  have hdescriptor : y.descriptor = x.descriptor := by
    show y.unlinked.descriptor = x.unlinked.descriptor
    rw [h]
  have hbehavior : y.behavior = x.behavior := by
    show y.unlinked.behavior = x.unlinked.behavior
    rw [h]
  intro hpath
  rw [hdescriptor] at hpath
  obtain ⟨hdeclares, hports⟩ := hx hpath
  rw [hdescriptor, hbehavior]
  refine ⟨hdeclares, fun signature hsignature => ?_⟩
  rw [← houtline y, h, houtline x]
  exact hports signature hsignature

/-- The first values are one for each slot. -/
theorem length_initialValues (x : GraphNode) :
    x.initialValues.length = x.laidOut.ports.length := by
  simp [initialValues, laidOut, Layout.initialValues, Layout.portsOf]

end GraphNode

/-! ## Section 2: Work that leaves the cells alone -/

namespace Graph

/-- From this store the work changes no cell and disposes no graph. -/
def KeepsGraphsAt {α : Type} (s : Store) (work : Work α) : Prop := (work s).2.graphs = s.graphs

/-- The work changes no cell and disposes no graph. -/
def KeepsGraphs {α : Type} (work : Work α) : Prop := ∀ s, KeepsGraphsAt s work

theorem keepsGraphs_pure {α : Type} (a : α) : KeepsGraphs (pure a : Work α) := fun _ => rfl

theorem keepsGraphs_bind {α β : Type} (work : Work α) (next : α → Work β)
    (hwork : KeepsGraphs work) (hnext : ∀ a, KeepsGraphs (next a)) :
    KeepsGraphs (work >>= next) := by
  intro s
  show (next (work s).1 (work s).2).2.graphs = s.graphs
  exact (hnext _ _).trans (hwork s)

theorem keepsGraphs_modify (f : Store → Store) (hf : ∀ s, (f s).graphs = s.graphs) :
    KeepsGraphs (modify f : Work Unit) := fun s => hf s

theorem keepsGraphs_forM {α : Type} (xs : List α) (work : α → Work Unit)
    (hwork : ∀ a, KeepsGraphs (work a)) : KeepsGraphs (xs.forM work) := by
  induction xs with
  | nil => exact keepsGraphs_pure ()
  | cons a rest ih => exact keepsGraphs_bind _ _ (hwork a) fun _ => ih

theorem keepsGraphs_makeVariables (guid : String) (fields : Json)
    (descriptors : List VariableDescriptor) : KeepsGraphs (makeVariables guid fields descriptors) := by
  induction descriptors with
  | nil => exact keepsGraphs_pure _
  | cons d rest ih =>
    intro s
    exact ih _

theorem keepsGraphs_makeNode (data : NodeData) (resolved : ResolvedNode) :
    KeepsGraphs (makeNode data resolved) := by
  intro s
  exact keepsGraphs_makeVariables _ _ _ _

theorem keepsGraphs_get {α : Type} (next : Store → Work α)
    (hnext : ∀ s, KeepsGraphsAt s (next s)) : KeepsGraphs (get >>= next) := fun s => hnext s

theorem keepsGraphs_bindGlobal (graph : String) (v : VarId) : KeepsGraphs (bindGlobal graph v) := by
  unfold bindGlobal
  refine keepsGraphs_get _ fun s => ?_
  extract_lets name
  split
  · exact rfl
  · split
    · split
      · exact rfl
      · exact rfl
    · exact rfl

theorem keepsGraphs_bindBoardVariable (graph : String) (v : VarId) :
    KeepsGraphs (bindBoardVariable graph v) := by
  unfold bindBoardVariable
  refine keepsGraphs_bind _ _ (keepsGraphs_modify _ fun _ => rfl) fun _ => ?_
  refine keepsGraphs_get _ fun s => ?_
  split
  · exact keepsGraphs_bindGlobal graph v s
  · exact rfl

theorem keepsGraphs_bindOwnVariable (n : Network) (guid field : String) (v : VarId) :
    KeepsGraphs (bindOwnVariable n guid field v) := by
  unfold bindOwnVariable
  refine keepsGraphs_bind _ _ (keepsGraphs_modify _ fun _ => rfl) fun _ => ?_
  refine keepsGraphs_get _ fun s => ?_
  split
  · exact rfl
  · split
    · exact keepsGraphs_bindGlobal n.name v s
    · split
      · split
        · exact rfl
        · split
          · exact rfl
          · exact rfl
      · exact rfl

theorem keepsGraphs_bindVariables (n : Network) : KeepsGraphs (bindVariables n) := by
  unfold bindVariables
  refine keepsGraphs_bind _ _ ?_ fun _ => ?_
  · exact keepsGraphs_forM _ _ fun v => keepsGraphs_bindBoardVariable n.name v
  · exact keepsGraphs_forM _ _ fun e => keepsGraphs_bindOwnVariable n e.1 e.2.1 e.2.2

end Graph

/-! ## Section 3: Cells for all slots -/

/-- Every node fits its behavior and has a row of cells for its slots. -/
structure Network.Housed (n : Network) (s : Store) : Prop where
  consistent : n.Consistent
  known : n.id < s.graphs.size
  fits : ∀ h x, n.node? h = some x → x.Fits
  held : ∀ h x, n.node? h = some x → s.rowSize n.id h.index = some x.ports.length

namespace Network

/-- Work on the store that keeps the rows of the network. -/
theorem Housed.of_rows {n : Network} {s t : Store} (hn : n.Housed s) (P : GraphId → Prop)
    (hkept : Store.RowsKept P s t) (hP : P n.id) : n.Housed t :=
  ⟨hn.consistent, hn.known.trans_le hkept.size, hn.fits,
    fun h x hx => (hkept.row n.id hP h.index).trans (hn.held h x hx)⟩

/-- An edit that keeps the slots of every node. -/
theorem Housed.of_nodes {n m : Network} {s : Store} (hn : n.Housed s) (hm : m.Consistent)
    (hid : m.id = n.id) (hnode : ∀ h y, m.node? h = some y → ∃ x, n.node? h = some x ∧
      (x.Fits → y.Fits) ∧ y.ports.length = x.ports.length) : m.Housed s := by
  refine ⟨hm, by rw [hid]; exact hn.known, fun h y hy => ?_, fun h y hy => ?_⟩
  · obtain ⟨x, hx, hfits, _⟩ := hnode h y hy
    exact hfits (hn.fits h x hx)
  · obtain ⟨x, hx, _, hlength⟩ := hnode h y hy
    rw [hid, hlength]
    exact hn.held h x hx

/-- A node is laid out or placed: it gets a row of its own. -/
theorem Housed.fill {n m : Network} {s : Store} (hn : n.Housed s) (hm : m.Consistent)
    (hid : m.id = n.id) (h : NodeHandle) (x : GraphNode) (values : List Value)
    (hx : m.node? h = some x) (hfits : x.Fits) (hlength : values.length = x.ports.length)
    (hother : ∀ k y, k ≠ h → m.node? k = some y → n.node? k = some y) :
    m.Housed (s.fill n.id h values) := by
  have hkept := s.rowsKept_fill n.id h values
  refine ⟨hm, by rw [hid]; exact hn.known.trans_le hkept.size, fun k y hy => ?_, fun k y hy => ?_⟩
  · by_cases hk : k = h
    · rw [hk, hx] at hy
      cases hy
      exact hfits
    · exact hn.fits k y (hother k y hk hy)
  · rw [hid]
    by_cases hk : k = h
    · rw [hk, hx] at hy
      cases hy
      rw [hk, ← hlength]
      exact s.rowSize_fill_self n.id h values hn.known
    · -- two live nodes are not in one slot
      have hi : k.index ≠ h.index := fun hi => hk (Arena.eq_of_index_eq m.nodes k h y x hy hx hi)
      exact s.rowSize_fill_of_ne n.id h values k.index _ hi (hn.held k y (hother k y hk hy))

end Network

namespace Graph

/-- A step of hydration: it works on the cells of its own graph only. -/
structure Grows (g : Graph) (s : Store) (k : Graph) (t : Store) : Prop where
  id : k.id = g.id
  others : Store.RowsKept (· ≠ g.id) s t
  housed : g.toNetwork.Housed s → k.toNetwork.Housed t

theorem Grows.trans {g k l : Graph} {s t u : Store} (hgk : g.Grows s k t) (hkl : k.Grows t l u) :
    g.Grows s l u := by
  have hothers := hkl.others
  rw [hgk.id] at hothers
  exact ⟨hkl.id.trans hgk.id, hgk.others.trans hothers, fun hg => hkl.housed (hgk.housed hg)⟩

/-- Other fields of the graph, and other work on the store. -/
theorem Grows.of_graphs {g k : Graph} {s t : Store} (hnodes : k.nodes = g.nodes)
    (horder : k.order = g.order) (hid : k.id = g.id) (ht : t.graphs = s.graphs) :
    g.Grows s k t := by
  refine ⟨hid, .of_graphs _ ht, fun hg => ?_⟩
  have hk : k.toNetwork.Housed s := by
    refine hg.of_nodes ((Network.Keeps.of_nodes horder hnodes).consistent hg.consistent) hid ?_
    intro h y hy
    unfold Network.node? at hy
    rw [hnodes] at hy
    exact ⟨y, hy, fun hfits => hfits, rfl⟩
  exact hk.of_rows (fun _ => True) (.of_graphs _ ht) trivial

theorem modifyRecords_grows (g : Graph) (h : NodeHandle) (f : List PortData → List PortData)
    (s : Store) : g.Grows s (g.modifyRecords h f) s := by
  refine ⟨rfl, .of_graphs _ rfl, fun hg => ?_⟩
  refine hg.of_nodes ((g.modifyRecords_keeps h f).network.consistent hg.consistent) rfl ?_
  intro k y hy
  have hget : (g.modifyRecords h f).node? k = _ := Arena.get?_modify ..
  rw [hget] at hy
  by_cases hk : k = h
  · rw [if_pos hk] at hy
    obtain ⟨x, hx, rfl⟩ := Option.map_eq_some_iff.mp hy
    exact ⟨x, hk ▸ hx, fun hfits => hfits, rfl⟩
  · rw [if_neg hk] at hy
    exact ⟨y, hy, fun hfits => hfits, rfl⟩

theorem layOut_grows (g : Graph) (h : NodeHandle) (s : Store) :
    g.Grows s (g.layOut h s).1 (g.layOut h s).2 := by
  cases hx : g.node? h with
  | none =>
    have heq : g.layOut h s = (g, s) := by
      unfold layOut
      simp only [hx]
      rfl
    rw [heq]
    exact .of_graphs rfl rfl rfl rfl
  | some x =>
    have heq : g.layOut h s = ({ g with nodes := g.nodes.modify h GraphNode.laidOut },
        (s.reportAll (Layout.notices x.guid x.records x.descriptor.ports)).fill g.id h
          x.initialValues) := by
      unfold layOut
      simp only [hx]
      rfl
    have hkeeps := (g.layOut_keeps h s).network
    rw [heq] at hkeeps ⊢
    have hreport : Store.RowsKept (fun _ => True) s
        (s.reportAll (Layout.notices x.guid x.records x.descriptor.ports)) := .of_graphs _ rfl
    refine ⟨rfl, ?_, fun hg => ?_⟩
    · exact (hreport.mono fun _ _ => trivial).trans (Store.rowsKept_fill _ g.id h _)
    refine (hg.of_rows _ hreport trivial).fill (hkeeps.consistent hg.consistent) rfl h x.laidOut _ ?_
      (GraphNode.fits_of_laidOut x (hg.fits h x hx)) x.length_initialValues ?_
    · unfold Network.node? at hx ⊢
      rw [Arena.get?_modify, if_pos rfl, hx, Option.map_some]
    · -- all other nodes are as before
      intro k y hk hy
      unfold Network.node? at hy ⊢
      rwa [Arena.get?_modify, if_neg hk] at hy

theorem layOutAll_grows (g : Graph) (hs : List NodeHandle) (s : Store) :
    g.Grows s (g.layOutAll hs s).1 (g.layOutAll hs s).2 := by
  induction hs generalizing g s with
  | nil => exact .of_graphs rfl rfl rfl rfl
  | cons h rest ih => exact (g.layOut_grows h s).trans (ih _ _)

theorem addIncomingSlots_grows (g : Graph) (s : Store) :
    g.Grows s (g.addIncomingSlots s).1 (g.addIncomingSlots s).2 := by
  have hrecord : ∀ (missing : List MissingSlot) (k : Graph) (t : Store), k.Grows t
      (missing.foldl (fun g m => g.modifyRecords m.handle (recordSlot m.port m.index)) k) t := by
    intro missing
    induction missing with
    | nil => intro k t; exact .of_graphs rfl rfl rfl rfl
    | cons m rest ih => intro k t; exact (k.modifyRecords_grows _ _ t).trans (ih _ t)
  have hreport : g.Grows s g (s.reportAll (g.missingSlots.filterMap fun r => r.getRight?)) :=
    .of_graphs rfl rfl rfl rfl
  exact (hreport.trans (hrecord _ g _)).trans (layOutAll_grows _ _ _)

theorem addVariables_grows (g : Graph) (data : List VariableData) (s : Store) :
    g.Grows s (g.addVariables data s).1 (g.addVariables data s).2 := by
  induction data generalizing g s with
  | nil => exact .of_graphs rfl rfl rfl rfl
  | cons d rest ih =>
    have hfirst : ∀ (blackboard : Blackboard) (t : Store), t.graphs = s.graphs →
        g.Grows s (addVariables { g with blackboard := blackboard } rest t).1
          (addVariables { g with blackboard := blackboard } rest t).2 := by
      intro blackboard t ht
      have hboard : g.Grows s { g with blackboard := blackboard } t := .of_graphs rfl rfl rfl ht
      exact hboard.trans (ih _ t)
    exact hfirst _ _ rfl

theorem insert_grows (g : Graph) (x : GraphNode) (s : Store) (hfits : x.Fits)
    (hports : x.ports = x.laidOut.ports) : g.Grows s (g.insert x s).1.2 (g.insert x s).2 := by
  have hlinks : ∀ p ∈ x.ports, p.link = none := by
    rw [hports]
    exact GraphNode.link_portsOf _ _
  have hconsistent := fun hg => g.insert_consistent x s hg hlinks
  obtain ⟨y, hy, t, ht, heq⟩ := g.insert_eq x s
  rw [heq] at hconsistent ⊢
  refine ⟨rfl, ?_, fun hg => ?_⟩
  · exact (Store.RowsKept.of_graphs _ ht).trans (Store.rowsKept_fill _ _ _ _)
  -- up to the row of the new node the store is as it was
  have hstore : g.toNetwork.Housed t := hg.of_rows (fun _ => True) (.of_graphs _ ht) trivial
  have hget := fun k => Arena.get?_insert g.nodes y k hg.consistent.sound.arena
  refine hstore.fill (hconsistent hg.consistent) rfl _ y _ ?_ ?_ ?_ ?_
  · show (g.nodes.insert y).2.get? (g.nodes.insert y).1 = some y
    rw [hget, if_pos rfl]
  · obtain ⟨guid, rfl⟩ := hy
    exact hfits
  · obtain ⟨guid, rfl⟩ := hy
    rw [x.length_initialValues, ← hports]
  · intro k z hk hz
    have hz' : (g.nodes.insert y).2.get? k = some z := hz
    rwa [hget, if_neg hk] at hz'

/-- A saved node gets the slots of the behavior that the library resolves it to. -/
theorem addNode_grows (g : Graph) (data : NodeData) (s : Store) :
    g.Grows s (g.addNode Registry.builtin data s).1.2 (g.addNode Registry.builtin data s).2 := by
  -- making the node only makes its variables and reports what cannot be resolved
  have hmade : ∀ (x : GraphNode) (t : Store), t.graphs = s.graphs → x.Fits →
      x.ports = x.laidOut.ports → g.Grows s (g.insert x t).1.2 (g.insert x t).2 := by
    intro x t ht hfits hports
    have hbefore : g.Grows s g t := .of_graphs rfl rfl rfl ht
    exact hbefore.trans (g.insert_grows x t hfits hports)
  refine hmade _ _ (keepsGraphs_makeNode _ _ _) ?_ rfl
  exact GraphNode.fits_of_declares _ rfl (Registry.resolve_signature data)

theorem addNodes_grows (g : Graph) (data : List NodeData) (s : Store) :
    g.Grows s (g.addNodes Registry.builtin data s).1 (g.addNodes Registry.builtin data s).2 := by
  induction data generalizing g s with
  | nil => exact .of_graphs rfl rfl rfl rfl
  | cons d rest ih => exact (g.addNode_grows d s).trans (ih _ _)

theorem create_housed (name : String) (s : Store) :
    (create name s).1.toNetwork.Housed (create name s).2 := by
  have hnone : ∀ h, (create name s).1.toNetwork.node? h = none := create_node? name s
  refine ⟨create_consistent name s, ?_, fun h x hx => ?_, fun h x hx => ?_⟩
  · show s.graphs.size < (s.graphs.push {}).size
    simp
  · rw [hnone] at hx
    cases hx
  · rw [hnone] at hx
    cases hx

theorem placeAll_grows (data : GraphData) (s : Store) :
    (create data.name s).1.Grows (create data.name s).2
      (placeAll Registry.builtin data s).1 (placeAll Registry.builtin data s).2 := by
  have hslots : ∀ (k : Graph) (t : Store), k.Grows t
      ((k.addVariables data.vars t).1.addIncomingSlots (k.addVariables data.vars t).2).1
      ((k.addVariables data.vars t).1.addIncomingSlots (k.addVariables data.vars t).2).2 := by
    intro k t
    exact (k.addVariables_grows data.vars t).trans (addIncomingSlots_grows _ _)
  exact (addNodes_grows _ data.nodes _).trans (hslots _ _)

/-- Hydrating a graph touches no row of the graphs that were there. -/
theorem placeAll_kept (data : GraphData) (s : Store) :
    Store.RowsKept (· < s.graphs.size) s (placeAll Registry.builtin data s).2 := by
  refine s.rowsKept_addGraph.trans ((placeAll_grows data s).others.mono fun k hk => ?_)
  exact Nat.ne_of_lt hk

mutual

theorem ofData_kept (data : GraphData) (s : Store) :
    Store.RowsKept (· < s.graphs.size) s (ofData Registry.builtin data s).2 := by
  obtain ⟨name, nodes, vars, groups, functions⟩ := data
  -- the functions are hydrated when the graph has its rows already
  have hplaced := placeAll_kept ⟨name, nodes, vars, groups, functions⟩ s
  rw [ofData_eq]
  refine hplaced.trans ((functionsOfData_kept functions _).mono fun k hk => ?_)
  exact Nat.lt_of_lt_of_le hk hplaced.size

theorem functionsOfData_kept (functions : List (String × GraphData)) (s : Store) :
    Store.RowsKept (· < s.graphs.size) s (functionsOfData Registry.builtin functions s).2 := by
  match functions with
  | [] => exact .of_graphs _ rfl
  | (name, data) :: rest =>
    have hfirst := ofData_kept data s
    refine hfirst.trans ((functionsOfData_kept rest _).mono fun k hk => ?_)
    exact Nat.lt_of_lt_of_le hk hfirst.size

end

/-- A hydrated graph has cells for all slots, whatever its functions are. -/
theorem ofData_housed (data : GraphData) (s : Store) :
    (ofData Registry.builtin data s).1.toNetwork.Housed (ofData Registry.builtin data s).2 := by
  have hplaced := (placeAll_grows data s).housed (create_housed data.name s)
  rw [ofData_eq]
  exact hplaced.of_rows _ (functionsOfData_kept data.functions _) hplaced.known

/-! ## Section 4: Compiling -/

theorem prepare_kept (conversions : Conversions) (n : Network) (s : Store) :
    Store.RowsKept (fun _ => True) s (prepare conversions n s).2 := by
  have hbind : Store.RowsKept (fun _ => True) (s.setDisposed n.id false)
      (bindVariables n (s.setDisposed n.id false)).2 :=
    .of_graphs _ (keepsGraphs_bindVariables n _)
  have hreport : Store.RowsKept (fun _ => True) (bindVariables n (s.setDisposed n.id false)).2
      (prepare conversions n s).2 := .of_graphs _ rfl
  exact ((s.rowsKept_setDisposed _ n.id false).trans hbind).trans hreport

mutual

/-- Compiling touches no row. -/
theorem compile_kept (conversions : Conversions) (g : Graph) (s : Store) :
    Store.RowsKept (fun _ => True) s (g.compile conversions s).2 := by
  obtain ⟨network, groups, functions, compiled⟩ := g
  have hprepare := prepare_kept conversions network s
  obtain ⟨prepared, t, ht⟩ : ∃ prepared t, prepare conversions network s = (prepared, t) :=
    ⟨_, _, rfl⟩
  rw [ht] at hprepare
  unfold compile
  simp only [bind, StateT.bind, ht]
  cases hfind : findPaths prepared.1 with
  | error e => exact hprepare.trans (.of_graphs _ rfl)
  | ok n =>
    have hrest := compileFunctions_kept conversions n.name functions t
    obtain ⟨fs, result, u, hfunctions⟩ : ∃ fs result u,
        compileFunctions conversions n.name functions t = ((fs, result), u) := ⟨_, _, _, rfl⟩
    rw [hfunctions] at hrest
    simp only [StateT.bind, hfunctions]
    cases result with
    | error e => exact hprepare.trans hrest
    | ok _ => exact (hprepare.trans hrest).trans (.of_graphs _ rfl)

theorem compileFunctions_kept (conversions : Conversions) (graph : String)
    (functions : List (String × Graph)) (s : Store) :
    Store.RowsKept (fun _ => True) s (compileFunctions conversions graph functions s).2 := by
  match functions with
  | [] => exact .of_graphs _ rfl
  | (name, f) :: rest =>
    have hfirst := compile_kept conversions f s
    obtain ⟨f', result, t, hcompile⟩ : ∃ f' result t,
        f.compile conversions s = ((f', result), t) := ⟨_, _, _, rfl⟩
    rw [hcompile] at hfirst
    unfold compileFunctions
    simp only [bind, StateT.bind, hcompile]
    cases result with
    | error e => exact hfirst.trans (.of_graphs _ rfl)
    | ok _ => exact hfirst.trans (compileFunctions_kept conversions graph rest t)

end

end Graph

/-- What a compiled graph guarantees for running it. -/
structure Network.Ready (n : Network) (s : Store) : Prop where
  housed : n.Housed s
  coherent : n.Coherent
  sourced : n.Sourced

namespace Graph

theorem length_ports_of_unlinked_eq (x y : GraphNode) (h : y.unlinked = x.unlinked) :
    y.ports.length = x.ports.length := by
  have hports : y.unlinked.ports.length = x.unlinked.ports.length := by rw [h]
  simpa [GraphNode.unlinked] using hports

/-- A first compilation that succeeds. -/
theorem compile_ready (g : Graph) (conversions : Conversions) (s : Store)
    (hg : g.toNetwork.Housed s) (hfresh : g.Fresh)
    (hok : (g.compile conversions s).1.2 = .ok ()) :
    (g.compile conversions s).1.1.toNetwork.Ready (g.compile conversions s).2 := by
  have hconsistent := g.compile_consistent conversions s hg.consistent
  have hkept := compile_kept conversions g s
  rcases g.compile_cases conversions s with ⟨ps, hps, _⟩ | ⟨_, ps, hfound, heq⟩ | ⟨_, e, _, _, herror⟩
  · -- a hydrated graph has no paths yet that could be reused
    rw [hfresh.paths] at hps
    cases hps
  · -- the paths were just found, so they are those of the dependencies
    have hid := g.link_id conversions
    rw [heq] at hconsistent ⊢
    refine ⟨?_, ⟨ps, rfl, hfound⟩, g.link_sourced conversions⟩
    refine (hg.of_nodes hconsistent hid fun h y hy => ?_).of_rows _ hkept trivial
    obtain ⟨x, hx, hxy⟩ := Network.node?_of_unlinked_eq (g.link_unlinked conversions).symm h y hy
    exact ⟨x, hx, GraphNode.fits_of_unlinked_eq x y hxy.symm,
      length_ports_of_unlinked_eq x y hxy.symm⟩
  · rw [hok] at herror
    cases herror

/-- Every graph that is built with the types of the library is ready. -/
theorem build_ready (conversions : Conversions) (data : GraphData) (s t : Store) (g : Graph)
    (hbuild : build Registry.builtin conversions data s = (.ok g, t)) : g.toNetwork.Ready t := by
  obtain ⟨k, u, hdata⟩ : ∃ k u, ofData Registry.builtin data s = (k, u) := ⟨_, _, rfl⟩
  have hhoused := ofData_housed data s
  have hfresh := ofData_fresh Registry.builtin data s
  rw [hdata] at hhoused hfresh
  have hready := k.compile_ready conversions u hhoused hfresh
  obtain ⟨k', result, v, hcompile⟩ : ∃ k' result v, k.compile conversions u = ((k', result), v) :=
    ⟨_, _, _, rfl⟩
  rw [hcompile] at hready
  unfold build at hbuild
  simp only [bind, StateT.bind, hdata, hcompile] at hbuild
  cases result with
  | error e => cases hbuild
  | ok _ =>
    cases hbuild
    exact hready rfl

end Graph
end FlowGraph
