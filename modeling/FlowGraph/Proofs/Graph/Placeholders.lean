import FlowGraph.Proofs.Dispatch.OnDemand
import FlowGraph.Proofs.Graph.Complete
import FlowGraph.Proofs.Graph.Failing
import FlowGraph.Proofs.Graph.Identity

/-! # Placeholders

    A node whose type cannot be resolved becomes a placeholder, and a placeholder is the
    saved node: as it has no ports (`GraphNode.Bare`), nothing can be linked to it, and no edit
    but a removal comes near it.  The removal of another node takes the connections to that
    one out of its records (`apply_node?`).  So whatever is done with the graph, the placeholder
    is saved as it was loaded, less the connections to nodes that were removed meanwhile.

    Main statement: `standsFor_of_run`. -/

namespace FlowGraph

/-! ## Section 1: Saved nodes and their placeholders -/

/-- The record without the connections to some nodes. -/
def PortData.without (guids : List String) (r : PortData) : PortData :=
  { r with connections := r.connections.filter fun c => c.nodeGuid ∉ guids }

theorem PortData.map_without_nil (records : List PortData) :
    records.map (PortData.without []) = records := by
  have hid : PortData.without [] = id := by
    funext r
    simp [without]
  rw [hid, List.map_id]

theorem PortData.without_append (guids more : List String) (r : PortData) :
    (r.without guids).without more = r.without (guids ++ more) := by
  simp only [without, List.filter_filter, List.mem_append, not_or, Bool.decide_and]
  congr 2
  funext c
  exact Bool.and_comm _ _

/-- The saved node without the connections to some nodes. -/
def NodeData.without (guids : List String) (d : NodeData) : NodeData :=
  { d with ports := d.ports.map (PortData.without guids) }

theorem NodeData.without_nil (d : NodeData) : d.without [] = d := by
  unfold without
  rw [PortData.map_without_nil]

theorem NodeData.without_append (guids more : List String) (d : NodeData) :
    (d.without guids).without more = d.without (guids ++ more) := by
  simp only [without, List.map_map]
  congr 2
  funext r
  exact r.without_append guids more

namespace GraphNode

/-- The placeholder of a saved node. -/
def placeholder (d : NodeData) : GraphNode where
  guid := d.guid
  position := d.position
  type := d.type
  identity := TypeIdentity.parse d.type
  genericArguments := []
  descriptor := Builtin.placeholder
  behavior := .placeholder (InvalidNode.ofData d)
  invalid := some (InvalidNode.ofData d)
  ports := []
  records := d.ports
  vars := []
  dependencies := []

theorem toData_placeholder (d : NodeData) (vs : Variables) : (placeholder d).toData vs = d := rfl

/-- The node without the connections to some others. -/
def without (guids : List String) (x : GraphNode) : GraphNode :=
  { x with records := x.records.map (PortData.without guids) }

theorem without_nil (x : GraphNode) : x.without [] = x := by
  unfold without
  rw [PortData.map_without_nil]

/-- A node that declares no ports, has none, and needs no other node. -/
structure Bare (x : GraphNode) : Prop where
  declared : x.descriptor.ports = []
  ports : x.ports = []
  dependencies : x.dependencies = []

theorem bare_placeholder (d : NodeData) : (placeholder d).Bare := ⟨rfl, rfl, rfl⟩

namespace Bare

variable {x : GraphNode}

theorem laidOut_eq (hx : x.Bare) : x.laidOut = x := by
  have hports : Layout.portsOf x.records x.descriptor.ports = x.ports := by
    rw [hx.declared, hx.ports]
    rfl
  unfold laidOut
  rw [hports]

theorem unlinked_eq (hx : x.Bare) : x.unlinked = x := by
  obtain ⟨_, hports, hdependencies⟩ := hx
  cases x
  simp only at hports hdependencies
  simp only [unlinked, hports, hdependencies, List.map_nil]

theorem port?_eq_none (hx : x.Bare) (name : String) : x.descriptor.port? name = none := by
  unfold NodeDescriptor.port?
  rw [hx.declared]
  rfl

theorem portIndex_eq_none (hx : x.Bare) (name : String) (index : Nat) :
    x.portIndex name index = none := by
  unfold portIndex
  rw [hx.ports]
  rfl

end Bare
end GraphNode

/-! ## Section 2: Nodes without ports -/

namespace Network

/-- Nothing is linked to a node without ports. -/
theorem link_node? (n : Network) (hn : n.Sound) (conversions : Conversions) (h : NodeHandle)
    (x : GraphNode) (hx : n.node? h = some x) (hbare : x.Bare) :
    (n.link conversions).1.node? h = some x := by
  obtain ⟨y, hy, hyx⟩ := node?_of_unlinked_eq (n.link_unlinked conversions) h x hx
  rw [hbare.unlinked_eq] at hyx
  have hports : y.ports = [] := by
    have hmap : y.unlinked.ports = [] := by rw [hyx, hbare.ports]
    exact List.map_eq_nil_iff.mp hmap
  have hdependencies : y.dependencies = [] := by
    rw [List.eq_nil_iff_forall_not_mem]
    intro k hk
    obtain ⟨_, c, _, target, _, _, _, ⟨_, z, hz, hindex⟩, _, _, _, _, rfl⟩ :=
      (n.mem_dependencies_link_iff hn conversions h y hy k).mp hk
    rw [hx] at hz
    cases hz
    rw [hbare.portIndex_eq_none] at hindex
    cases hindex
  have hdeclared : y.descriptor.ports = [] := by
    have hsame : y.unlinked.descriptor.ports = [] := by rw [hyx, hbare.declared]
    exact hsame
  rw [hy, ← hyx, GraphNode.Bare.unlinked_eq ⟨hdeclared, hports, hdependencies⟩]

end Network

namespace Graph

section

variable (g : Graph) (h : NodeHandle) (x : GraphNode) (hx : g.node? h = some x)

theorem modifyRecords_node? (k : NodeHandle) (f : List PortData → List PortData) (hk : h ≠ k) :
    (g.modifyRecords k f).node? h = g.node? h := by
  have hget := g.nodes.get?_modify k h fun n => { n with records := f n.records }
  rw [if_neg hk] at hget
  exact hget

include hx

/-- A new node has a handle of its own. -/
theorem insert_node? (hg : g.toNetwork.Sound) (y : GraphNode) (s : Store) :
    (g.insert y s).1.2.node? h = some x := by
  rw [hg.node?_insert _ (g.insert_ensured y s).1, if_neg, hx]
  rintro rfl
  have hfresh : g.node? _ = none := Arena.get?_insert_fresh g.nodes (g.ensureGuid y s).1 hg.arena
  rw [hfresh] at hx
  cases hx

theorem removeNode_node? (vs : Variables) (k : NodeHandle) (hk : h ≠ k) :
    (g.removeNode vs k).2.node? h =
      some (x.without ((g.node? k).map (·.guid)).toList) := by
  unfold removeNode
  cases hr : g.nodes.remove k with
  | none =>
    have hnone : g.node? k = none := Option.map_eq_none_iff.mp hr
    rw [hnone]
    dsimp only [Option.map_none, Option.toList_none]
    rw [x.without_nil, hx]
  | some r =>
    obtain ⟨removed, nodes⟩ := r
    obtain ⟨hremoved, hget⟩ := Arena.get?_remove g.nodes nodes k h removed hr
    rw [if_neg hk] at hget
    have hgone : g.node? k = some removed := hremoved
    show (Arena.map nodes _).get? h = _
    rw [Arena.get?_map, hget, show g.nodes.get? h = some x from hx, hgone]
    simp [GraphNode.without, PortData.without]

variable (hbare : x.Bare)

include hbare

/-- A node that declares a port is another one. -/
theorem ne_of_declared (k : NodeHandle) (y : GraphNode) (hy : g.node? k = some y) (name : String)
    (declared : PortDescriptor) (hdeclared : y.descriptor.port? name = some declared) : h ≠ k := by
  rintro rfl
  rw [hx] at hy
  cases hy
  rw [hbare.port?_eq_none] at hdeclared
  cases hdeclared

theorem layOut_node? (k : NodeHandle) (s : Store) : (g.layOut k s).1.node? h = some x := by
  rw [layOut_graph]
  show (g.nodes.modify k GraphNode.laidOut).get? h = some x
  have hget : g.nodes.get? h = some x := hx
  rw [Arena.get?_modify]
  split
  · rename_i hk
    rw [← hk, hget, Option.map_some, hbare.laidOut_eq]
  · exact hget

theorem openSlot_node? (target : SlotRef) (s : Store) : (g.openSlot target s).1.node? h = some x := by
  rcases g.openSlot_cases target s with ⟨heq, _⟩ | ⟨k, y, _, hy, harray, _, heq⟩
  · rw [heq]
    exact hx
  · obtain ⟨d, hd, _⟩ := (y.descriptor.isArray_eq_true_iff target.port).mp harray
    have hk := g.ne_of_declared h x hx hbare k y hy target.port d hd
    rw [heq]
    refine layOut_node? _ h x ?_ hbare k s
    rw [modifyRecords_node? g h k _ hk, hx]

theorem recordConnection_node? (k : NodeHandle) (hk : h ≠ k) (d : PortDescriptor)
    (source target : SlotRef) (s : Store) :
    (g.recordConnection k d source target s).1.node? h = some x := by
  have hrecorded : (g.modifyRecords k (connectionRecord source target)).node? h = some x := by
    rw [modifyRecords_node? g h k _ hk, hx]
  unfold recordConnection
  cases d.array with
  | true => exact layOut_node? _ h x hrecorded hbare k s
  | false => exact hrecorded

/-- A connection is recorded at a node with ports. -/
theorem connect_node? (source target : SlotRef) (s : Store) (g' : Graph)
    (hconnect : (g.connect source target s).1 = .ok g') : g'.node? h = some x := by
  obtain ⟨k, y, d, hc, rfl⟩ := g.exists_of_connect source target s g' hconnect
  have hk := g.ne_of_declared h x hx hbare k y hc.node source.port d hc.port
  exact openSlot_node? _ h x (g.recordConnection_node? h x hx hbare k hk d source target s) hbare
    target _

/-- So is a constant. -/
theorem setConstant_node? (slot : SlotRef) (v : Value) (s : Store) :
    (g.setConstant slot v s).1.1.node? h = some x := by
  rcases g.setConstant_eq slot v s with ⟨e, heq⟩ | ⟨k, y, d, _, hy, hd, hresult⟩
  · rw [heq]
    exact hx
  · have hk := g.ne_of_declared h x hx hbare k y hy slot.port d hd
    have hrecorded : (g.modifyRecords k (constantRecord slot v)).node? h = some x := by
      rw [modifyRecords_node? g h k _ hk, hx]
    rcases hresult with ⟨i, _, heq⟩ | ⟨_, _, heq⟩ | ⟨_, _, e, heq⟩
    · rw [heq]
      exact hrecorded
    · rw [heq]
      exact layOut_node? _ h x hrecorded hbare k s
    · rw [heq]
      exact hrecorded

theorem compile_node? (hg : g.toNetwork.Sound) (conversions : Conversions) (s : Store) :
    (g.compile conversions s).1.1.node? h = some x := by
  have hlinked := g.link_node? hg conversions h x hx hbare
  rcases g.compile_cases conversions s with ⟨_, _, heq⟩ | ⟨_, _, _, heq⟩ | ⟨_, _, heq, _⟩
  · rw [heq]
    exact hlinked
  · rw [heq]
    exact hlinked
  · rw [heq]
    exact hlinked

end

/-! ## Section 3: Operations -/

/-- The guid of the node that an operation removes. -/
def Operation.removed (op : Operation) (st : State) : List String :=
  match op with
  | .removeNode h => ((st.1.node? h).map (·.guid)).toList
  | _ => []

/-- The guids of the nodes that some operations remove. -/
def removedGuids : List Operation → State → List String
  | [], _ => []
  | op :: rest, st => op.removed st ++ removedGuids rest (op.apply st)

/-- Only a removal changes a node without ports. -/
theorem apply_node?_of_stays (op : Operation) (st : State) (hst : st.1.toNetwork.Sound)
    (h : NodeHandle) (x : GraphNode) (hx : st.1.node? h = some x) (hbare : x.Bare)
    (hop : ∀ k, op ≠ .removeNode k) : (op.apply st).1.node? h = some x := by
  obtain ⟨g, s⟩ := st
  cases op with
  | addNode registry data => exact g.insert_node? h x hx hst _ _
  | addLive guid descriptor behavior => exact g.insert_node? h x hx hst _ _
  | removeNode k => exact absurd rfl (hop k)
  | connect source target =>
    unfold Operation.apply
    dsimp only
    split
    · rename_i g' s' heq
      exact g.connect_node? h x hx hbare source target s g' (by rw [heq])
    · exact hx
  | setConstant slot v => exact g.setConstant_node? h x hx hbare slot v s
  | compile conversions => exact g.compile_node? h x hx hbare hst conversions s
  | addFunction name f => exact hx
  | addGroup group => exact hx
  | clearPaths => exact hx
  | dispose => exact hx
  | elsewhere work => exact hx

/-- A node without ports stays until it is removed, and its records lose the connections to
    nodes that are. -/
theorem apply_node? (op : Operation) (st : State) (hst : st.1.toNetwork.Sound) (h : NodeHandle)
    (x : GraphNode) (hx : st.1.node? h = some x) (hbare : x.Bare) (hop : op ≠ .removeNode h) :
    (op.apply st).1.node? h = some (x.without (op.removed st)) := by
  by_cases hremoval : ∃ k, op = .removeNode k
  · obtain ⟨k, rfl⟩ := hremoval
    have hk : h ≠ k := by
      rintro rfl
      exact hop rfl
    exact st.1.removeNode_node? h x hx st.2.vars k hk
  · have hstays : ∀ k, op ≠ .removeNode k := fun k hk => hremoval ⟨k, hk⟩
    have hnone : op.removed st = [] := by
      unfold Operation.removed
      split
      · exact absurd rfl (hstays _)
      · rfl
    rw [hnone, x.without_nil]
    exact apply_node?_of_stays op st hst h x hx hbare hstays

/-- Known paths list nothing for the node. -/
def Alone (g : Graph) (h : NodeHandle) : Prop :=
  ∀ ps i, g.paths = some ps → g.indexOf h = some i → ps[i]? = some []

/-- A path is found for each node, and one that needs no other has an empty path. -/
theorem path_of_found (n : Network) (hn : n.Sound) (ps : List (List Nat))
    (hfound : n.dependencies.paths = .ok ps) (h : NodeHandle) (x : GraphNode)
    (hx : n.node? h = some x) (hnone : x.dependencies = []) (i : Nat) (hi : n.indexOf h = some i) :
    ps[i]? = some [] := by
  have hget : n.order[i]? = some h := (n.indexOf_eq_some_iff hn h i).mp hi
  have hlt : i < n.dependencies.size := by
    rw [n.dependencies_size hn]
    exact (List.getElem?_eq_some_iff.mp hget).1
  obtain ⟨path, hpath, hpathFor⟩ := Dependencies.pathFor_of_paths n.dependencies ps hfound i hlt
  have hempty : path = [] := by
    rw [List.eq_nil_iff_forall_not_mem]
    intro j hj
    have hreach := (Dependencies.mem_pathFor_iff n.dependencies i path (n.dependencies_inRange hn)
      hlt hpathFor j).mp hj
    obtain ⟨k, hneeds, _⟩ := Relation.TransGen.head'_iff.mp hreach
    have hmem := hneeds.1
    rw [n.dependencies_needs hn i h x hget hx, hnone] at hmem
    cases hmem
  rw [hpath, hempty]

theorem apply_alone (op : Operation) (st : State) (hst : st.1.toNetwork.Consistent) (h : NodeHandle)
    (x : GraphNode) (hx : (op.apply st).1.node? h = some x) (hnone : x.dependencies = [])
    (halone : st.1.Alone h) : (op.apply st).1.Alone h := by
  have hafter := apply_consistent op st hst
  -- the order stays whenever the paths do
  have hsame : (op.apply st).1.paths = st.1.paths → (op.apply st).1.order = st.1.order →
      (op.apply st).1.Alone h := by
    intro hpaths horder ps i hps hi
    refine halone ps i (hpaths ▸ hps) ?_
    unfold Network.indexOf at hi ⊢
    rw [← horder]
    exact hi
  have hwired : (op.apply st).1.wiring.unlinked = st.1.wiring.unlinked →
      (op.apply st).1.order = st.1.order := by
    intro hwiring
    have horder : (op.apply st).1.wiring.unlinked.order = st.1.wiring.unlinked.order := by
      rw [hwiring]
    exact horder
  cases effect_apply op st with
  | drop hfresh =>
    intro ps i hps
    rw [hfresh.paths] at hps
    cases hps
  | keep hpaths _ _ hwiring =>
    refine hsame hpaths ?_
    rcases hwiring with ⟨slot, v, rfl, _⟩ | hwiring
    · exact (st.1.setConstant_keeps slot v st.2).network.order
    · exact hwired hwiring
  | fill _ ps _ _ hpaths hfound _ _ =>
    intro ps' i hps' hi
    rw [hpaths] at hps'
    cases hps'
    exact path_of_found _ hafter.sound ps hfound h x hx hnone i hi
  | reuse _ ps _ hknown hpaths _ hwiring => exact hsame (hpaths.trans hknown.symm) (hwired hwiring)

/-- What holds while the placeholder of a saved node is in the graph. -/
structure Houses (g : Graph) (h : NodeHandle) (d : NodeData) : Prop where
  consistent : g.toNetwork.Consistent
  node : g.node? h = some (.placeholder d)
  alone : g.Alone h

theorem Houses.apply {st : State} {h : NodeHandle} {d : NodeData} (hst : st.1.Houses h d)
    (op : Operation) (hop : op ≠ .removeNode h) :
    (op.apply st).1.Houses h (d.without (op.removed st)) := by
  have hnode := apply_node? op st hst.consistent.sound h _ hst.node (GraphNode.bare_placeholder d)
    hop
  exact ⟨apply_consistent op st hst.consistent, hnode,
    apply_alone op st hst.consistent h _ hnode rfl hst.alone⟩

theorem Houses.run {st : State} {h : NodeHandle} {d : NodeData} (hst : st.1.Houses h d)
    (ops : List Operation) (hops : ∀ op ∈ ops, op ≠ .removeNode h) :
    (run ops st).1.Houses h (d.without (removedGuids ops st)) := by
  induction ops generalizing st d with
  | nil =>
    show st.1.Houses h (d.without [])
    rw [d.without_nil]
    exact hst
  | cons op rest ih =>
    have hrest := ih (hst.apply op (hops op List.mem_cons_self))
      fun op' hop' => hops op' (List.mem_cons_of_mem op hop')
    rw [d.without_append] at hrest
    exact hrest

/-! ## Section 4: Loading -/

/-- What the registry cannot resolve is added as a placeholder. -/
theorem addNode_houses (st : State) (hst : st.1.toNetwork.Consistent) (registry : Registry)
    (d : NodeData) (e : GraphError) (hrejected : registry.tryResolve d = .error e)
    (hguid : d.guid ≠ "") (hunused : st.1.handleOf d.guid = none) :
    (Operation.apply (.addNode registry d) st).1.Houses (st.1.addNode registry d st.2).1.1 d := by
  have hafter := apply_consistent (.addNode registry d) st hst
  obtain ⟨g, s⟩ := st
  have hresolve : registry.resolve d = .placeholder d := by
    unfold Registry.resolve
    rw [hrejected]
  obtain ⟨t, hadd⟩ : ∃ t, g.addNode registry d s = g.insert (.placeholder d) t := by
    unfold addNode
    rw [hresolve]
    exact ⟨_, rfl⟩
  refine ⟨hafter, ?_, ?_⟩
  · show (g.addNode registry d s).1.2.node? (g.addNode registry d s).1.1 = _
    rw [hadd, hst.sound.node?_insert _ (g.insert_ensured _ t).1, g.insert_handle, if_pos rfl]
    rcases g.ensureGuid_cases (.placeholder d) t with ⟨_, _, hensured⟩ | ⟨hempty | ⟨k, hk⟩, _⟩
    · rw [hensured]
    · exact absurd hempty hguid
    · exact absurd (hk.symm.trans hunused) (by simp)
  · intro ps i hps
    have hnone : (g.addNode registry d s).1.2.paths = none := (insert_fresh _ _ _).paths
    have hpaths : (g.addNode registry d s).1.2.paths = some ps := hps
    rw [hnone] at hpaths
    cases hpaths

/-- Slots are opened at array ports only. -/
theorem addIncomingSlots_node? (g : Graph) (h : NodeHandle) (x : GraphNode) (hx : g.node? h = some x)
    (hbare : x.Bare) (s : Store) : (g.addIncomingSlots s).1.node? h = some x := by
  have hlacking : ∀ m ∈ g.lacking, h ≠ m.handle := by
    intro m hm
    obtain ⟨_, _, _, c, y, p, _, _, _, hy, _, hp, _⟩ := g.exists_of_mem_lacking m hm
    exact g.ne_of_declared h x hx hbare m.handle y hy c.portName p hp
  have hrecorded : ∀ (missing : List MissingSlot) (k : Graph), (∀ m ∈ missing, h ≠ m.handle) →
      k.node? h = some x → (missing.foldl
        (fun g m => g.modifyRecords m.handle (recordSlot m.port m.index)) k).node? h = some x := by
    intro missing
    induction missing with
    | nil => exact fun _ _ hk => hk
    | cons m rest ih =>
      intro k hmissing hk
      refine ih _ (fun m' hm' => hmissing m' (List.mem_cons_of_mem m hm')) ?_
      rw [k.modifyRecords_node? h _ _ (hmissing m List.mem_cons_self), hk]
  have hlaid : ∀ (hs : List NodeHandle) (k : Graph) (t : Store), k.node? h = some x →
      (k.layOutAll hs t).1.node? h = some x := by
    intro hs
    induction hs with
    | nil => exact fun _ _ hk => hk
    | cons i rest ih => exact fun k t hk => ih _ _ (k.layOut_node? h x hk hbare i t)
  exact hlaid _ _ _ (hrecorded g.lacking g hlacking hx)

theorem insert_order (g : Graph) (x : GraphNode) (s : Store) :
    (g.insert x s).1.2.order = g.order ++ [(g.insert x s).1.1] := by
  rw [g.insert_handle, (g.insert_ensured x s).2.1]

/-- Nodes are listed in the order in which they are added. -/
theorem order_addNodes (registry : Registry) (nodes : List NodeData) (st : State) :
    ∃ handles, handles.length = nodes.length ∧
      (run (nodes.map (.addNode registry)) st).1.order = st.1.order ++ handles := by
  induction nodes generalizing st with
  | nil => exact ⟨[], rfl, (List.append_nil _).symm⟩
  | cons d rest ih =>
    obtain ⟨handles, hlength, horder⟩ := ih (Operation.apply (.addNode registry d) st)
    obtain ⟨h, hadded⟩ : ∃ h, (Operation.apply (.addNode registry d) st).1.order
        = st.1.order ++ [h] := ⟨_, st.1.insert_order _ _⟩
    refine ⟨h :: handles, by rw [List.length_cons, List.length_cons, hlength], ?_⟩
    show (run (rest.map (.addNode registry)) (Operation.apply (.addNode registry d) st)).1.order = _
    rw [horder, hadded, List.append_assoc]
    rfl

theorem removedGuids_addNodes (registry : Registry) (nodes : List NodeData) (st : State) :
    removedGuids (nodes.map (.addNode registry)) st = [] := by
  induction nodes generalizing st with
  | nil => rfl
  | cons d rest ih => exact ih _

/-- The first nodes of a saved graph, while it is hydrated. -/
def loading (registry : Registry) (data : GraphData) (s : Store) (nodes : List NodeData) : State :=
  run (nodes.map (.addNode registry)) (create data.name s)

theorem loading_consistent (registry : Registry) (data : GraphData) (s : Store)
    (nodes : List NodeData) : (loading registry data s nodes).1.toNetwork.Consistent :=
  run_consistent _ _ (create_consistent data.name s)

theorem loading_eq (registry : Registry) (d : NodeData) (data : GraphData) (s : Store)
    (before after : List NodeData) (hnodes : data.nodes = before ++ d :: after) :
    loading registry data s data.nodes = run (after.map (.addNode registry))
      (Operation.apply (.addNode registry d) (loading registry data s before)) := by
  unfold loading
  rw [hnodes, List.map_append, run_append]
  rfl

/-- A saved node gets the handle at its position. -/
theorem handleAt_hydrated (registry : Registry) (d : NodeData) (data : GraphData) (s : Store)
    (before after : List NodeData) (hnodes : data.nodes = before ++ d :: after) :
    (hydrated registry data s).1.handleAt before.length =
      some ((loading registry data s before).1.addNode registry d
        (loading registry data s before).2).1.1 := by
  obtain ⟨firsts, hlength, hfirsts⟩ := order_addNodes registry before (create data.name s)
  obtain ⟨rest, _, hrest⟩ := order_addNodes registry after
    (Operation.apply (.addNode registry d) (loading registry data s before))
  have hnext : (Operation.apply (.addNode registry d) (loading registry data s before)).1.order
      = (loading registry data s before).1.order ++ [_] :=
    (loading registry data s before).1.insert_order _ _
  have hbefore : (loading registry data s before).1.order = firsts := hfirsts
  have hkeeps := (ofData_keeps registry data s).network.order
  rw [← run_addNodes] at hkeeps
  have horder : (hydrated registry data s).1.order = (loading registry data s data.nodes).1.order :=
    hkeeps
  unfold Network.handleAt
  rw [horder, loading_eq registry d data s before after hnodes, hrest, hnext, hbefore, ← hlength,
    List.append_assoc, List.getElem?_append_right (Nat.le_refl _), Nat.sub_self]
  rfl

/-- After its nodes were added, hydrating a graph does not touch a node without ports. -/
theorem ofData_node? (registry : Registry) (data : GraphData) (s : Store) (h : NodeHandle)
    (x : GraphNode) (hx : (loading registry data s data.nodes).1.node? h = some x)
    (hbare : x.Bare) : (ofData registry data s).1.node? h = some x := by
  unfold loading at hx
  rw [run_addNodes] at hx
  obtain ⟨created, t, hcreate⟩ : ∃ created t, create data.name s = (created, t) := ⟨_, _, rfl⟩
  obtain ⟨placed, u, hadd⟩ : ∃ placed u, created.addNodes registry data.nodes t = (placed, u) :=
    ⟨_, _, rfl⟩
  obtain ⟨bound, v, hbind⟩ : ∃ bound v, placed.addVariables data.vars u = (bound, v) :=
    ⟨_, _, rfl⟩
  have hall : placeAll registry data s = bound.addIncomingSlots v := by
    unfold placeAll
    simp only [bind, StateT.bind, hcreate, hadd, hbind]
  have hnodes := (placed.addVariables_eq data.vars u).1
  rw [hcreate, hadd] at hx
  rw [hbind] at hnodes
  have hbound : bound.node? h = some x := by
    unfold Network.node? at hx ⊢
    rw [hnodes]
    exact hx
  rw [ofData_eq]
  show (placeAll registry data s).1.node? h = some x
  rw [hall]
  exact bound.addIncomingSlots_node? h x hbound hbare v

/-- How a saved node gets into a live graph; the handle that it is given, and the state then. -/
inductive Admits (registry : Registry) (d : NodeData) : Option NodeHandle → State → Prop where
  /-- It is added to a live graph that does not use its guid. -/
  | added (known : Registry) (data : GraphData) (s : Store) (ops : List Operation)
      (unused : (run ops (hydrated known data s)).1.handleOf d.guid = none) :
      Admits registry d
        (some ((run ops (hydrated known data s)).1.addNode registry d
          (run ops (hydrated known data s)).2).1.1)
        (run (ops ++ [.addNode registry d]) (hydrated known data s))
  /-- It is one of the nodes of a graph that is hydrated, and those before it do not use its
      guid. -/
  | loaded (data : GraphData) (s : Store) (before after : List NodeData)
      (nodes : data.nodes = before ++ d :: after)
      (unused : (loading registry data s before).1.handleOf d.guid = none) :
      Admits registry d ((hydrated registry data s).1.handleAt before.length)
        (hydrated registry data s)

theorem run_kept (ops : List Operation) (st : State) (hst : st.1.Kept) : (run ops st).1.Kept := by
  induction ops generalizing st with
  | nil => exact hst
  | cons op rest ih => exact ih (op.apply st) (apply_kept op st hst)

theorem Admits.kept {registry : Registry} {d : NodeData} {place : Option NodeHandle} {st : State}
    (hst : Admits registry d place st) : st.1.Kept := by
  cases hst with
  | added known data s ops _ => exact run_kept _ _ (kept_ofData known data s)
  | loaded data s _ _ _ _ => exact kept_ofData registry data s

/-- Either way it is a placeholder, if it cannot be resolved. -/
theorem Admits.houses {registry : Registry} {d : NodeData} {place : Option NodeHandle} {st : State}
    (hst : Admits registry d place st) (e : GraphError)
    (hrejected : registry.tryResolve d = .error e) (hguid : d.guid ≠ "") :
    ∃ h, place = some h ∧ st.1.Houses h d := by
  cases hst with
  | added known data s ops unused =>
    have hbefore := run_consistent ops _ (ofData_consistent known data s)
    have hadded := addNode_houses _ hbefore registry d e hrejected hguid unused
    refine ⟨_, rfl, ?_⟩
    rw [run_snoc]
    exact hadded
  | loaded data s before after nodes unused =>
    have hadded := addNode_houses (loading registry data s before)
      (loading_consistent registry data s before) registry d e hrejected hguid unused
    -- the nodes behind it are added, and none is removed
    have hrun := hadded.run (after.map (.addNode registry)) (by simp)
    rw [removedGuids_addNodes, d.without_nil,
      ← loading_eq registry d data s before after nodes] at hrun
    refine ⟨_, handleAt_hydrated registry d data s before after nodes,
      ofData_consistent registry data s,
      ofData_node? registry data s _ _ hrun.node (GraphNode.bare_placeholder d), fun ps i hps => ?_⟩
    have hnone : (hydrated registry data s).1.paths = none := (ofData_fresh registry data s).paths
    rw [hnone] at hps
    cases hps

end Graph

/-! ## Section 5: Running a placeholder -/

namespace Frame

variable (frame : Frame) (h : NodeHandle) (d : NodeData)
  (hnode : frame.graph.node? h = some (.placeholder d))

/-- The state after a node was counted, listed and announced, and nothing else happened. -/
def Passed (guid : String) (r r' : DispatchState) : Prop :=
  ∃ events, r' = { r with
    store := { r.store with events := events }
    steps := r.steps + 1
    trace := r.trace.push guid
    next := none }

include hnode

theorem invoke_placeholder (chain : Chain) (r : DispatchState) (hnext : r.next = none) :
    (∃ r', frame.invoke chain h r = .done (.ok ()) r' ∧ Passed d.guid r r') ∨
      ∃ limit, frame.engine.config.maxChainSteps = some limit ∧ limit ≤ r.steps ∧
        frame.invoke chain h r
          = .done (.error (.stepLimitExceeded limit)) { r with steps := r.steps + 1 } := by
  have hinvoke : frame.invoke chain h r = (do
      frame.count
      Exec.modify fun s => { s with trace := s.trace.push d.guid }
      frame.announce (.nodeStarted frame.dispatchId d.guid d.type)
      let result ← ((Site.mk frame h).execute chain (.placeholder (InvalidNode.ofData d))).attempt
      frame.conclude d.guid result : Exec Unit) r := by
    unfold invoke
    rw [hnode]
    rfl
  rcases frame.count_cases r with hcount | ⟨limit, hconfig, hlimit, hcount⟩
  · obtain ⟨started, hstarted⟩ := frame.announce_eq (.nodeStarted frame.dispatchId d.guid d.type)
      { r with steps := r.steps + 1, trace := r.trace.push d.guid }
    obtain ⟨ended, hended⟩ := frame.announce_eq (.nodeCompleted frame.dispatchId d.guid)
      { r with
        steps := r.steps + 1
        trace := r.trace.push d.guid
        store := { r.store with events := started } }
    have hrun := hinvoke
    simp only [bind, hcount, Process.bind, Exec.modify, hstarted, Exec.attempt, Site.execute, pure,
      Process.attempt, conclude] at hrun
    refine .inl ⟨_, hrun.trans hended, ended, ?_⟩
    rw [hnext]
  · have hrun := hinvoke
    simp only [bind, hcount, Process.bind] at hrun
    exact .inr ⟨limit, hconfig, Nat.le_of_lt_succ hlimit, hrun⟩

/-- A chain that comes to a placeholder runs it and ends there, unless that is one step too
    many. -/
theorem runChain_placeholder (hpath : frame.graph.dependencyPath h = .ok []) (fuel : Nat)
    (r : DispatchState) :
    (∃ r', Frame.runChain (fuel + 1) frame h r = .done (.ok ()) r' ∧ Passed d.guid r r') ∨
      ∃ limit, frame.engine.config.maxChainSteps = some limit ∧ limit ≤ r.steps ∧
        Frame.runChain (fuel + 1) frame h r
          = .done (.error (.stepLimitExceeded limit)) { r with steps := r.steps + 1, next := none } := by
  have hpathless : frame.runNode (Frame.runChain fuel) h r =
      (frame.invoke (Frame.runChain fuel) h { r with next := none }).bind fun _ s =>
        .done (.ok s.next) { s with next := none } := by
    unfold runNode
    rw [hpath]
    rfl
  rcases frame.invoke_placeholder h d hnode (Frame.runChain fuel) { r with next := none } rfl with
    ⟨_, hok, events, rfl⟩ | ⟨limit, hconfig, hlimit, herror⟩
  · rw [hok] at hpathless
    refine .inl ⟨_, ?_, events, rfl⟩
    show Process.bind (frame.runNode (Frame.runChain fuel) h r) _ = _
    rw [hpathless]
    rfl
  · rw [herror] at hpathless
    refine .inr ⟨limit, hconfig, hlimit, ?_⟩
    show Process.bind (frame.runNode (Frame.runChain fuel) h r) _ = _
    rw [hpathless]
    rfl

end Frame

/-! ## Section 6: Nothing is lost -/

namespace Graph

/-- The node of a handle stands for a saved one. -/
structure StandsFor (g : Graph) (h : NodeHandle) (d : NodeData) : Prop where
  /-- It is a placeholder with just this saved form. -/
  node : ∃ x, g.node? h = some x ∧ x.isPlaceholder = true ∧ ∀ vs, x.toData vs = d
  /-- The graph is saved with it, at the position of the node. -/
  saved : ∃ i, g.indexOf h = some i ∧ ∀ vs, (g.toData vs).nodes[i]? = some d
  /-- It is run on its own, without any other effect than events, and the chain ends with it;
      or there are no steps left, and not even that happens. -/
  chain : g.compiled = true → ∀ frame : Frame, frame.graph = g → ∀ fuel r,
    (∃ r', Frame.runChain (fuel + 1) frame h r = .done (.ok ()) r' ∧ Frame.Passed d.guid r r') ∨
      ∃ limit, frame.engine.config.maxChainSteps = some limit ∧ limit ≤ r.steps ∧
        Frame.runChain (fuel + 1) frame h r =
          .done (.error (.stepLimitExceeded limit)) { r with steps := r.steps + 1, next := none }

theorem Houses.standsFor {g : Graph} {h : NodeHandle} {d : NodeData} (hg : g.Houses h d)
    (hkept : g.Kept) : g.StandsFor h d := by
  obtain ⟨i, hi, hget⟩ := g.exists_indexOf hg.consistent.sound h _ hg.node
  refine ⟨⟨_, hg.node, rfl, fun vs => GraphNode.toData_placeholder d vs⟩, ⟨i, hi, fun vs => ?_⟩, ?_⟩
  · have hplaced := g.placed_getElem? hg.consistent.sound i h _ hget hg.node
    have hnodes : (g.toData vs).nodes = g.placed.map fun e => e.2.toData vs := by
      cases g
      rfl
    rw [hnodes, List.getElem?_map, hplaced]
    rfl
  · rintro hcompiled frame rfl fuel r
    obtain ⟨ps, hps⟩ := hkept.cached hcompiled
    have hpath : frame.graph.dependencyPath h = .ok [] := by
      unfold Network.dependencyPath
      simp only [hps, hi, hg.alone ps i hps hi]
      rfl
    exact frame.runChain_placeholder h d hg.node hpath fuel r

/-- **Main theorem: placeholders lose nothing.**  A saved node that the registry cannot resolve
    is a placeholder in the graph that it gets into.  Whatever is done then, short of removing
    it, it is saved as it was, but for the connections to nodes that were removed, and running
    it changes nothing and ends the chain. -/
theorem standsFor_of_run (registry : Registry) (d : NodeData) (e : GraphError)
    (hrejected : registry.tryResolve d = .error e) (hguid : d.guid ≠ "")
    (place : Option NodeHandle) (st : State) (hst : Admits registry d place st) :
    ∃ h, place = some h ∧ ∀ ops : List Operation, (∀ op ∈ ops, op ≠ .removeNode h) →
      (run ops st).1.StandsFor h (d.without (removedGuids ops st)) := by
  obtain ⟨h, hplace, hhouses⟩ := hst.houses e hrejected hguid
  refine ⟨h, hplace, fun ops hops => ?_⟩
  exact (hhouses.run ops hops).standsFor (run_kept ops st hst.kept)

/-- A node of no known type, with fields that are no JSON and connections to two nodes. -/
def lost : NodeData where
  guid := "lost"
  type := "Acme.Gone, Acme"
  genericArguments := ["int", "?"]
  position := ⟨2.5, -3⟩
  serializedData := "\x7bnot json"
  ports := [{ name := "out", connections := [⟨"go", "x", 0⟩, ⟨"sum", "a", 0⟩] },
    { name := "in", index := 4, value := some .null }]

/-- An entry in front of it and a sum behind it. -/
def haunted : GraphData where
  name := "haunted"
  nodes := [{ guid := "go", type := "Ceres.Flow.ExecutionEvent" }, lost,
    { guid := "sum", type := "Ceres.Math.Add" }]

/-- It is connected and set in vain, and another node is removed and added again. -/
theorem standsFor_of_run_haunted :
    let start := hydrated Registry.builtin haunted default
    let ops : List Operation := [.connect ⟨"lost", "out", 0⟩ ⟨"sum", "a", 0⟩,
      .connect ⟨"go", "next", 0⟩ ⟨"lost", "input", 0⟩, .setConstant ⟨"lost", "in", 4⟩ (.int 1),
      .removeNode ⟨2, 0⟩, .addNode Registry.builtin { guid := "sum", type := "Ceres.Math.Add" },
      .dispose, .compile .standard, .elsewhere (·.emit (.nodeMessage "1" "go" "hello"))]
    Registry.builtin.tryResolve lost = .error (.typeResolution "Acme.Gone, Acme") ∧
      start.1.handleAt 1 = some ⟨1, 0⟩ ∧ (run ops start).1.compiled = true ∧
      (run ops start).1.StandsFor ⟨1, 0⟩ { lost with
        ports := [{ name := "out", connections := [⟨"go", "x", 0⟩] },
          { name := "in", index := 4, value := some .null }] } := by
  intro start ops
  have hrejected : Registry.builtin.tryResolve lost = .error (.typeResolution "Acme.Gone, Acme") := by
    decide +kernel
  have hunused : (loading Registry.builtin haunted default [haunted.nodes[0]]).1.handleOf
      lost.guid = none := by decide +kernel
  have hat : start.1.handleAt 1 = some ⟨1, 0⟩ := by decide +kernel
  have hcompiled : (run ops start).1.compiled = true := by decide +kernel
  have hremoved : removedGuids ops start = ["sum"] := by decide +kernel
  have hops : ∀ op ∈ ops, op ≠ .removeNode ⟨1, 0⟩ := by simp [ops]
  have hkept : lost.without ["sum"] = { lost with
      ports := [{ name := "out", connections := [⟨"go", "x", 0⟩] },
        { name := "in", index := 4, value := some .null }] } := by
    simp [NodeData.without, PortData.without, lost]
  have hadmits : Admits Registry.builtin lost (start.1.handleAt 1) start :=
    .loaded haunted default [haunted.nodes[0]] [haunted.nodes[2]] rfl hunused
  clear_value start ops
  rw [hat] at hadmits
  obtain ⟨h, hplace, hstands⟩ :=
    standsFor_of_run Registry.builtin lost _ hrejected (by decide) _ start hadmits
  cases hplace
  have hlast := hstands ops hops
  rw [hremoved, hkept] at hlast
  exact ⟨hrejected, hat, hcompiled, hlast⟩

end Graph
end FlowGraph
