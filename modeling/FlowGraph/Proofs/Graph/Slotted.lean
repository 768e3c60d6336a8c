import FlowGraph.Proofs.Graph.Hosting
import FlowGraph.Proofs.Graph.Linked
import FlowGraph.Proofs.Graph.Records
import FlowGraph.Proofs.Graph.Saving

/-! # Slots of hosted graphs

    Whatever is done with a live graph, the slots of its nodes are those of a layout, apart
    from their links (`Graph.Hosted.slotted`).  So the slots of a port are numbered from zero
    on without a gap: if a slot is found by its index, it is one of the first as many as the
    port has (`GraphNode.Slotted.lt_portCount`).

    A node that declares no port name twice has the slots that its own records ask for
    (`GraphNode.Fitted`).  An edit that leaves the slots as they are only writes the record of a
    slot that is there, or of a port that is no array. -/

namespace FlowGraph

/-! ## Section 1: Slots of a node -/

namespace GraphNode

/-- The slots are those that some records ask for, up to their links. -/
def Slotted (x : GraphNode) : Prop :=
  ∃ records, x.ports.map Port.unlinked = Layout.portsOf records x.descriptor.ports

theorem LaidOut.slotted {x : GraphNode} (hx : x.LaidOut) : x.Slotted := by
  refine ⟨x.records, ?_⟩
  rw [hx, List.map_congr_left (portsOf_unlinked x.records x.descriptor.ports), List.map_id']

theorem Slotted.of_unlinked_eq {x y : GraphNode} (hx : x.Slotted) (h : y.unlinked = x.unlinked) :
    y.Slotted := by
  obtain ⟨records, hrecords⟩ := hx
  have hports : y.ports.map Port.unlinked = x.ports.map Port.unlinked := congrArg ports h
  have hdescriptor : y.descriptor = x.descriptor := congrArg (fun z => z.descriptor) h
  refine ⟨records, ?_⟩
  rw [hports, hdescriptor]
  exact hrecords

/-- The slots are those of a layout, and if no port name is declared twice, of the layout that
    the node's own records ask for. -/
structure Fitted (x : GraphNode) : Prop where
  slotted : x.Slotted
  own : (x.descriptor.ports.map (·.name)).Nodup → x.unlinked.LaidOut

theorem LaidOut.fitted {x : GraphNode} (hx : x.LaidOut) : x.Fitted := by
  refine ⟨hx.slotted, fun _ => ?_⟩
  show x.ports.map Port.unlinked = Layout.portsOf x.records x.descriptor.ports
  rw [hx, List.map_congr_left (portsOf_unlinked x.records x.descriptor.ports), List.map_id']

theorem fitted_laidOut (x : GraphNode) : x.laidOut.Fitted := LaidOut.fitted (x := x.laidOut) rfl

theorem Fitted.of_unlinked_eq {x y : GraphNode} (hx : x.Fitted) (h : y.unlinked = x.unlinked) :
    y.Fitted := by
  have hdescriptor : y.descriptor = x.descriptor := congrArg (fun z => z.descriptor) h
  refine ⟨hx.slotted.of_unlinked_eq h, fun hnames => ?_⟩
  rw [h]
  exact hx.own (hdescriptor ▸ hnames)

/-- Other records that ask for the same slots. -/
theorem Fitted.withRecords {x : GraphNode} (hx : x.Fitted) (records : List PortData)
    (h : (x.descriptor.ports.map (·.name)).Nodup → x.unlinked.LaidOut →
      Layout.portsOf records x.descriptor.ports = Layout.portsOf x.records x.descriptor.ports) :
    ({ x with records } : GraphNode).Fitted :=
  ⟨hx.slotted, fun hnames => (hx.own hnames).trans (h hnames (hx.own hnames)).symm⟩

/-- The record of a declared port is changed, where the port is no array or has the slot. -/
theorem Fitted.modifyRecord {x : GraphNode} (hx : x.Fitted) (name : String) (index : Nat)
    (f : PortData → PortData) (hf : ∀ r, (f r).name = r.name ∧ (f r).index = r.index)
    (d : PortDescriptor) (hd : x.descriptor.port? name = some d)
    (hslot : d.array = true → ∃ i, x.portIndex name index = some i) :
    ({ x with records := NodeData.modifyRecord name index f x.records } : GraphNode).Fitted := by
  refine hx.withRecords _ fun hnames hlaid => ?_
  refine x.portsOf_modifyRecord hnames name index f hf d hd fun harray => ?_
  obtain ⟨i, hi⟩ := hslot harray
  rw [← Network.portIndex_unlinked] at hi
  have hlt := (List.findIdx?_eq_some_iff_getElem.mp hi).1
  have hp := (x.unlinked.port?_eq_some_iff name index x.unlinked.ports[i]).mpr
    ⟨i, hi, List.getElem?_eq_getElem hlt⟩
  exact hasSlot_of_port? hlaid hnames name index _ hp d hd

end GraphNode

/-- A port that has a slot of an index has the slots before it too. -/
theorem Layout.lt_countP_portsOf (records : List PortData) (ds : List PortDescriptor)
    (d : PortDescriptor) (hd : d ∈ ds) (index : Nat) (hslot : HasSlot records d index) :
    index < (portsOf records ds).countP (·.name = d.name) := by
  induction ds with
  | nil => cases hd
  | cons first rest ih =>
    rw [portsOf_cons, List.countP_append]
    rcases List.mem_cons.mp hd with rfl | hd
    · have hall : ((List.range (if d.array then extent records d.name else 1)).map
          (Port.ofDescriptor d)).countP (·.name = d.name)
            = if d.array then extent records d.name else 1 := by
        rw [List.countP_map, List.countP_eq_length.mpr (fun _ _ => by simp [Port.ofDescriptor]),
          List.length_range]
      rw [hall]
      exact Nat.lt_add_right _ hslot
    · exact Nat.lt_add_left _ (ih hd)

/-- A slot that is found is one of the first as many as there are slots. -/
theorem GraphNode.Slotted.lt_portCount {x : GraphNode} (hx : x.Slotted) (name : String)
    (index i : Nat) (hi : x.portIndex name index = some i) : index < x.portCount name := by
  obtain ⟨records, hrecords⟩ := hx
  have hfound : ∃ p, (Layout.portsOf records x.descriptor.ports).find? (·.isSlot name index)
      = some p := by
    have hsome : (x.ports.find? (·.isSlot name index)).isSome = true := by
      rw [List.find?_isSome]
      obtain ⟨hlt, hslot, _⟩ := List.findIdx?_eq_some_iff_getElem.mp hi
      exact ⟨x.ports[i], List.getElem_mem hlt, hslot⟩
    obtain ⟨p, hp⟩ := Option.isSome_iff_exists.mp hsome
    rw [← hrecords, List.find?_map]
    have hsame : ((fun p : Port => p.isSlot name index) ∘ Port.unlinked)
        = fun p : Port => p.isSlot name index := rfl
    rw [hsame, hp]
    exact ⟨_, rfl⟩
  obtain ⟨p, hp⟩ := hfound
  obtain ⟨d, hd, rfl, hslot, _⟩ := Layout.exists_of_find?_portsOf _ _ name index p hp
  have hcount : x.portCount d.name
      = (Layout.portsOf records x.descriptor.ports).countP (·.name = d.name) := by
    rw [← hrecords, List.countP_map]
    rfl
  rw [hcount]
  exact Layout.lt_countP_portsOf records x.descriptor.ports d hd index hslot

/-! ## Section 2: Edits -/

namespace Network

/-- All nodes have the slots of a layout. -/
def Slotted (n : Network) : Prop := ∀ h x, n.node? h = some x → x.Slotted

/-- All nodes are fitted. -/
def Fitted (n : Network) : Prop := ∀ h x, n.node? h = some x → x.Fitted

variable {n m : Network}

theorem Fitted.of_nodes (hn : n.Fitted) (hnodes : m.nodes = n.nodes) : m.Fitted := by
  intro h x hx
  unfold node? at hx
  rw [hnodes] at hx
  exact hn h x hx

/-- The node of a handle is changed, and stays fitted. -/
theorem Fitted.modify (hn : n.Fitted) (h : NodeHandle) (f : GraphNode → GraphNode)
    (hnodes : m.nodes = n.nodes.modify h f)
    (hf : ∀ x, n.node? h = some x → x.Fitted → (f x).Fitted) : m.Fitted := by
  intro k y hy
  unfold node? at hy
  rw [hnodes, Arena.get?_modify] at hy
  split at hy
  · rename_i hk
    obtain ⟨x, hx, rfl⟩ := Option.map_eq_some_iff.mp hy
    subst hk
    exact hf x hx (hn k x hx)
  · exact hn k y hy

theorem Fitted.of_unlinked_eq (hn : n.Fitted) (heq : m.unlinked = n.unlinked) : m.Fitted := by
  intro h y hy
  obtain ⟨x, hx, hxy⟩ := node?_of_unlinked_eq heq.symm h y hy
  exact (hn h x hx).of_unlinked_eq hxy.symm

end Network

namespace Graph

variable {g : Graph}

/-- Whatever the records are, a node that is laid out fits them. -/
theorem layOut_fitted (hg : g.toNetwork.Fitted) (h : NodeHandle)
    (f : List PortData → List PortData) (s : Store) :
    ((g.modifyRecords h f).layOut h s).1.toNetwork.Fitted := by
  intro k y hy
  rw [(g.differs_layOut h f s).node] at hy
  obtain ⟨x, hx, rfl⟩ := Option.map_eq_some_iff.mp hy
  split
  · exact GraphNode.fitted_laidOut _
  · exact hg k x hx

theorem insert_fitted (hg : g.toNetwork.Fitted) (harena : g.nodes.WellFormed) (x : GraphNode)
    (hx : x.LaidOut) (s : Store) : (g.insert x s).1.2.toNetwork.Fitted := by
  obtain ⟨_, ⟨guid, rfl⟩, t, _, heq⟩ := g.insert_eq x s
  rw [heq]
  intro h y hy
  have hget : (g.nodes.insert { x with guid := guid }).2.get? h = some y := hy
  rw [Arena.get?_insert _ _ _ harena] at hget
  split at hget
  · cases hget
    exact GraphNode.LaidOut.fitted (x := { x with guid := guid }) hx
  · exact hg h y hget

theorem addNode_fitted (hg : g.toNetwork.Fitted) (harena : g.nodes.WellFormed)
    (registry : Registry) (data : NodeData) (s : Store) :
    (g.addNode registry data s).1.2.toNetwork.Fitted := by
  obtain ⟨x, t, heq, _, _, _, _, _, hx⟩ := g.addNode_eq registry data s
  rw [heq]
  exact insert_fitted hg harena x hx t

theorem addLive_fitted (hg : g.toNetwork.Fitted) (harena : g.nodes.WellFormed) (guid : String)
    (descriptor : NodeDescriptor) (behavior : Behavior) (s : Store) :
    (g.addLive guid descriptor behavior s).1.2.toNetwork.Fitted := by
  obtain ⟨x, t, heq, hx⟩ : ∃ x t, g.addLive guid descriptor behavior s = g.insert x t ∧
      x.LaidOut := ⟨_, _, rfl, rfl⟩
  rw [heq]
  exact insert_fitted hg harena x hx t

/-- The records of the other nodes lose connections, and stay those of their slots. -/
theorem removeNode_fitted (hg : g.toNetwork.Fitted) (vs : Variables) (h : NodeHandle) :
    (g.removeNode vs h).2.toNetwork.Fitted := by
  unfold removeNode
  cases hr : g.nodes.remove h with
  | none => exact hg
  | some r =>
    obtain ⟨x, nodes⟩ := r
    intro k y hy
    unfold Network.node? at hy
    dsimp only [invalidate] at hy
    rw [Arena.get?_map, (Arena.get?_remove g.nodes nodes h k x hr).2] at hy
    obtain ⟨z, hz, rfl⟩ := Option.map_eq_some_iff.mp hy
    split at hz
    · cases hz
    · exact (hg k z hz).withRecords _ fun _ _ => Layout.portsOf_map
        (fun r => { r with connections := r.connections.filter (·.nodeGuid ≠ x.guid) })
        (fun _ => ⟨rfl, rfl⟩) z.records z.descriptor.ports

theorem openSlot_fitted (hg : g.toNetwork.Fitted) (target : SlotRef) (s : Store) :
    (g.openSlot target s).1.toNetwork.Fitted := by
  rcases g.openSlot_cases target s with ⟨heq, _⟩ | ⟨k, _, _, _, _, _, heq⟩
  · rw [heq]
    exact hg
  · rw [heq]
    exact layOut_fitted hg k _ s

/-- An output that is an array is laid out, and the record of another one asks for nothing. -/
theorem recordConnection_fitted (hg : g.toNetwork.Fitted) (source target : SlotRef)
    (h : NodeHandle) (x : GraphNode) (d : PortDescriptor) (hc : g.Connects source target h x d)
    (s : Store) : (g.recordConnection h d source target s).1.toNetwork.Fitted := by
  unfold recordConnection
  cases harray : d.array with
  | true => exact layOut_fitted hg h _ s
  | false =>
    refine hg.modify h _ rfl fun y hy hfitted => ?_
    rw [hc.node] at hy
    cases hy
    exact hfitted.modifyRecord _ _ _ (addConnection_named _) d hc.port
      fun h => absurd (harray.symm.trans h) (by decide)

theorem connect_fitted (hg : g.toNetwork.Fitted) (source target : SlotRef) (s : Store)
    (g' : Graph) (hconnect : (g.connect source target s).1 = .ok g') : g'.toNetwork.Fitted := by
  obtain ⟨h, x, d, hc, rfl⟩ := g.exists_of_connect source target s g' hconnect
  have hrecorded := recordConnection_fitted hg source target h x d hc s
  exact (openSlot_fitted hrecorded target _).of_nodes rfl

/-- A node that lacks the slot is laid out, and another record asks for nothing. -/
theorem setConstant_fitted (hg : g.toNetwork.Fitted) (slot : SlotRef) (v : Value) (s : Store) :
    (g.setConstant slot v s).1.1.toNetwork.Fitted := by
  rcases g.setConstant_eq slot v s with ⟨e, heq⟩ | ⟨h, x, d, _, hx, hd, hresult⟩
  · rw [heq]
    exact hg
  · have hrecorded : (d.array = true → ∃ i, x.portIndex slot.port slot.index = some i) →
        (g.modifyRecords h (constantRecord slot v)).toNetwork.Fitted := by
      intro hslot
      refine hg.modify h _ rfl fun y hy hfitted => ?_
      rw [hx] at hy
      cases hy
      exact hfitted.modifyRecord _ _ _ (fun _ => ⟨rfl, rfl⟩) d hd hslot
    rcases hresult with ⟨i, hi, heq⟩ | ⟨_, _, heq⟩ | ⟨_, hscalar, e, heq⟩
    · rw [heq]
      exact hrecorded fun _ => ⟨i, hi⟩
    · rw [heq]
      exact layOut_fitted hg h _ s
    · rw [heq]
      exact hrecorded fun h => absurd (hscalar.symm.trans h) (by decide)

theorem compile_fitted (hg : g.toNetwork.Fitted) (conversions : Conversions) (s : Store) :
    (g.compile conversions s).1.1.toNetwork.Fitted := by
  have hlink : (g.link conversions).1.Fitted := hg.of_unlinked_eq (g.link_unlinked conversions)
  rcases g.compile_cases conversions s with ⟨_, _, heq⟩ | ⟨_, _, _, heq⟩ | ⟨_, _, heq, _⟩
  · rw [heq]
    exact hlink
  · rw [heq]
    exact hlink
  · rw [heq]
    exact hlink

/-! ## Section 3: Hosted graphs -/

theorem placeNodes_laidOut (registry : Registry) (data : GraphData) (s : Store) :
    ∀ h x, (placeNodes registry data s).1.node? h = some x → x.LaidOut :=
  placeNodes_all _ registry data s fun _ _ _ _ _ _ hx => hx

theorem ofData_laidOut (registry : Registry) (data : GraphData) (s : Store) :
    ∀ h x, (ofData registry data s).1.node? h = some x → x.LaidOut := by
  intro h y hy
  rw [ofData_eq, placeAll_eq] at hy
  have hdiffers := (placeNodes registry data s).1.differs_addIncomingSlots
    (placeNodes registry data s).2 (placeNodes_laidOut registry data s)
  have hnode := hdiffers.node h
  rw [show _ = some y from hy] at hnode
  obtain ⟨x, _, rfl⟩ := Option.map_eq_some_iff.mp hnode.symm
  rfl

theorem apply_fitted (op : Operation) (st : State)
    (hst : st.1.toNetwork.Consistent ∧ st.1.toNetwork.Fitted) :
    (op.apply st).1.toNetwork.Consistent ∧ (op.apply st).1.toNetwork.Fitted := by
  refine ⟨apply_consistent op st hst.1, ?_⟩
  obtain ⟨g, s⟩ := st
  obtain ⟨hconsistent, hg⟩ := hst
  have harena : g.nodes.WellFormed := hconsistent.sound.arena
  cases op with
  | addNode registry data => exact addNode_fitted hg harena registry data s
  | addLive guid descriptor behavior => exact addLive_fitted hg harena guid descriptor behavior s
  | removeNode h => exact removeNode_fitted hg s.vars h
  | connect source target =>
    unfold Operation.apply
    dsimp only
    split
    · rename_i g' s' heq
      exact connect_fitted hg source target s g' (by rw [heq])
    · exact hg
  | setConstant slot v => exact setConstant_fitted hg slot v s
  | addFunction name f => exact hg
  | addGroup group => exact hg
  | clearPaths => exact hg.of_nodes rfl
  | dispose => exact hg
  | compile conversions => exact compile_fitted hg conversions s
  | elsewhere work => exact hg

/-- In a hosted graph, and in all its functions, every node is fitted. -/
theorem Hosted.fitted {g : Graph} (hg : Hosted g) :
    g.All fun n => n.Consistent ∧ n.Fitted :=
  hg.all
    (fun registry data s => ⟨ofData_consistent registry data s,
      fun h x hx => (ofData_laidOut registry data s h x hx).fitted⟩)
    apply_fitted

/-- In a hosted graph, and in all its functions, every node has the slots of a layout. -/
theorem Hosted.slotted {g : Graph} (hg : Hosted g) : g.All Network.Slotted :=
  hg.fitted.mono fun _ hn h x hx => (hn.2 h x hx).slotted

end Graph
end FlowGraph
