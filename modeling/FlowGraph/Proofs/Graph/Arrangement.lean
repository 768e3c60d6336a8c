import FlowGraph.Proofs.Graph.Slotted

/-! # How slots are arranged

    A port that is no array has one slot, and an array port as many as the records of its
    node ask for: one more than the greatest index of such a record below the limit
    (`Layout.Reaches`).  The slots of a node that declares no port name twice stand port by
    port, those of each port from zero on without a gap (`GraphNode.InOrder`), whatever was
    saved and whatever was done since.

    Where a connection leads to a slot of an array port, the node at its end may have no record
    of the slot.  Hydrating sees to it that the slot is there (`Network.Received`). -/

namespace FlowGraph

/-! ## Section 1: How far records reach -/

namespace Layout

/-- The record counts for the slots of an array port: it is of the port, and below the limit. -/
def Counts (name : String) (r : PortData) : Prop := r.name = name ∧ r.index < maxArraySlots

/-- One more than the greatest index of the records that count, or zero if there are none. -/
def Reaches (records : List PortData) (name : String) (count : Nat) : Prop :=
  (count = 0 ∧ ∀ r ∈ records, ¬ Counts name r) ∨
    ∃ r ∈ records, Counts name r ∧ count = r.index + 1 ∧
      ∀ r' ∈ records, Counts name r' → r'.index ≤ r.index

theorem lt_extent_of_counts (records : List PortData) (name : String) (r : PortData)
    (hr : r ∈ records) (hcounts : Counts name r) : r.index < extent records name := by
  obtain ⟨rfl, hindex⟩ := hcounts
  exact lt_extent records r hr hindex

/-- The number of slots is the one that the records ask for. -/
theorem reaches_extent (records : List PortData) (name : String) :
    Reaches records name (extent records name) := by
  cases hextent : extent records name with
  | zero =>
    refine .inl ⟨rfl, fun r hr hcounts => ?_⟩
    have hlt := lt_extent_of_counts records name r hr hcounts
    omega
  | succ n =>
    obtain ⟨r, hr, hname, hindex, hle⟩ := exists_of_lt_extent records name n (by omega)
    have hlt := lt_extent_of_counts records name r hr ⟨hname, hindex⟩
    refine .inr ⟨r, hr, ⟨hname, hindex⟩, by omega, fun r' hr' hcounts => ?_⟩
    have hlt' := lt_extent_of_counts records name r' hr' hcounts
    omega

/-- How many slots a declared port has. -/
def countOf (records : List PortData) (d : PortDescriptor) : Nat :=
  if d.array then extent records d.name else 1

theorem portsOf_eq_flatMap (records : List PortData) (ports : List PortDescriptor) :
    portsOf records ports
      = ports.flatMap fun d => (List.range (countOf records d)).map (Port.ofDescriptor d) := by
  induction ports with
  | nil => rfl
  | cons d rest ih => rw [portsOf_cons, ih, List.flatMap_cons, countOf]

end Layout

/-! ## Section 2: Slots in order -/

/-- The name and the index of a slot. -/
def Port.key (p : Port) : String × Nat := (p.name, p.index)

namespace GraphNode

/-- The slots stand port by port as the ports are declared, as many of each as the node's own
    records ask for, and each has a name and an index of its own. -/
structure InOrder (x : GraphNode) (count : PortDescriptor → Nat) : Prop where
  scalar : ∀ d ∈ x.descriptor.ports, d.array = false → count d = 1
  array : ∀ d ∈ x.descriptor.ports, d.array = true → Layout.Reaches x.records d.name (count d)
  bounded : ∀ d ∈ x.descriptor.ports, count d ≤ maxArraySlots
  slots : x.ports.map Port.unlinked
    = x.descriptor.ports.flatMap fun d => (List.range (count d)).map (Port.ofDescriptor d)
  apart : (x.ports.map Port.key).Nodup

/-- Ports of distinct names, each with slots of distinct indices. -/
theorem nodup_keys (ports : List PortDescriptor) (hnames : (ports.map (·.name)).Nodup)
    (count : PortDescriptor → Nat) :
    ((ports.flatMap fun d => (List.range (count d)).map (Port.ofDescriptor d)).map
      Port.key).Nodup := by
  rw [List.map_flatMap, List.nodup_flatMap]
  constructor
  · intro d _
    rw [List.map_map]
    refine List.Nodup.map (fun i j hij => ?_) List.nodup_range
    exact congrArg Prod.snd hij
  · refine (List.pairwise_map.mp hnames).imp fun {d e} hne => ?_
    -- a common key would be of a common name
    intro key hd he
    simp only [List.map_map, List.mem_map] at hd he
    obtain ⟨i, _, rfl⟩ := hd
    obtain ⟨j, _, hkey⟩ := he
    exact hne (congrArg Prod.fst hkey).symm

theorem Fitted.inOrder {x : GraphNode} (hx : x.Fitted)
    (hnames : (x.descriptor.ports.map (·.name)).Nodup) :
    x.InOrder (Layout.countOf x.records) := by
  have hslots : x.ports.map Port.unlinked = x.descriptor.ports.flatMap fun d =>
      (List.range (Layout.countOf x.records d)).map (Port.ofDescriptor d) :=
    (hx.own hnames).trans (Layout.portsOf_eq_flatMap x.records x.descriptor.ports)
  refine ⟨fun d _ hscalar => ?_, fun d _ harray => ?_, fun d _ => ?_, hslots, ?_⟩
  · simp [Layout.countOf, hscalar]
  · rw [Layout.countOf, if_pos harray]
    exact Layout.reaches_extent x.records d.name
  · unfold Layout.countOf
    split
    · exact Layout.extent_le x.records d.name
    · decide
  · -- links do not show in the keys
    have hkeys : x.ports.map Port.key = (x.ports.map Port.unlinked).map Port.key := by
      rw [List.map_map]
      rfl
    rw [hkeys, hslots]
    exact nodup_keys x.descriptor.ports hnames _

/-- A node that is laid out has the slots of each declared port. -/
theorem isSome_port?_laidOut (x : GraphNode) (d : PortDescriptor) (hd : d ∈ x.descriptor.ports)
    (index : Nat) (hslot : Layout.HasSlot x.records d index) :
    (x.laidOut.port? d.name index).isSome = true := by
  rw [port?_eq_find?, List.find?_isSome]
  refine ⟨Port.ofDescriptor d index, ?_, by simp [Port.isSlot, Port.ofDescriptor]⟩
  show Port.ofDescriptor d index ∈ Layout.portsOf x.records x.descriptor.ports
  rw [Layout.portsOf_eq_flatMap]
  exact List.mem_flatMap.mpr ⟨d, hd, List.mem_map_of_mem (List.mem_range.mpr hslot)⟩

/-- More records leave the slots where they are. -/
theorem isSome_port?_append {x : GraphNode} (hx : x.LaidOut) (more : List PortData)
    (name : String) (index : Nat) (hsome : (x.port? name index).isSome = true) :
    ((({ x with records := x.records ++ more } : GraphNode).laidOut).port? name
      index).isSome = true := by
  obtain ⟨p, hp⟩ := Option.isSome_iff_exists.mp hsome
  obtain ⟨d, hd, rfl, hslot, _⟩ := exists_of_port? hx name index p hp
  exact isSome_port?_laidOut { x with records := x.records ++ more } d hd index (hslot.append more)

end GraphNode

/-! ## Section 3: Slots for connections -/

/-- Every recorded connection to an array port of a node has its slot, if it is below the
    limit. -/
def Network.Received (n : Network) : Prop :=
  ∀ h x, n.node? h = some x → ∀ r ∈ x.records, ∀ c ∈ r.connections,
    ∀ k y, n.handleOf c.nodeGuid = some k → n.node? k = some y →
      y.descriptor.isArray c.portName = true → c.portIndex < maxArraySlots →
        (y.port? c.portName c.portIndex).isSome = true

namespace Graph

theorem addIncomingSlots_received (g : Graph) (s : Store)
    (hlaid : ∀ h x, g.node? h = some x → x.LaidOut) :
    (g.addIncomingSlots s).1.toNetwork.Received := by
  have hdiffers := g.differs_addIncomingSlots s hlaid
  intro h x' hx' r hr c hc k y' hk hy' harray hindex
  rw [hdiffers.handleOf fun _ _ => rfl] at hk
  rw [hdiffers.node] at hx' hy'
  obtain ⟨x, hx, rfl⟩ := Option.map_eq_some_iff.mp hx'
  obtain ⟨y, hy, rfl⟩ := Option.map_eq_some_iff.mp hy'
  -- a record with a connection was there before
  have hr' : r ∈ x.records := by
    obtain ⟨opened, hopened, hempty⟩ := withSlots_eq_append g.lacking h x.records
    have hmem : r ∈ withSlots g.lacking h x.records := hr
    rw [hopened] at hmem
    exact mem_of_connected r hmem hempty (List.ne_nil_of_mem hc)
  have harray' : y.descriptor.isArray c.portName = true := harray
  cases hslot : y.port? c.portName c.portIndex with
  | some p =>
    obtain ⟨more, hmore, _⟩ := withSlots_eq_append g.lacking k y.records
    rw [hmore]
    exact GraphNode.isSome_port?_append (hlaid k y hy) more _ _ (by rw [hslot]; rfl)
  | none =>
    have hlacking := g.mem_lacking h x hx r hr' c hc k y hk hy harray' hslot hindex
    obtain ⟨r', hr', hname, hindex'⟩ := exists_mem_withSlots g.lacking _ hlacking y.records
    obtain ⟨d, hd, hdarray⟩ := (y.descriptor.isArray_eq_true_iff c.portName).mp harray'
    have hdname : d.name = c.portName := NodeDescriptor.name_of_port? hd
    have hrecorded := Layout.hasSlot_of_mem hdarray r' hr' (hname.trans hdname.symm)
      (hindex'.trans_lt hindex)
    rw [hindex'] at hrecorded
    rw [← hdname]
    exact GraphNode.isSome_port?_laidOut { y with records := withSlots g.lacking k y.records } d
      (List.mem_of_find?_eq_some hd) _ hrecorded

theorem ofData_received (registry : Registry) (data : GraphData) (s : Store) :
    (ofData registry data s).1.toNetwork.Received := by
  rw [ofData_eq, placeAll_eq]
  exact addIncomingSlots_received _ _ (placeNodes_laidOut registry data s)

/-- **Main theorem: slots are in order.**  In a graph that was hydrated and then edited, compiled
    and disposed in any way, and in its functions, every node that declares no port name twice
    has the slots that its own records ask for, in order.  A graph that was just hydrated has a
    slot for every connection to an array port, if it is below the limit. -/
theorem slots_inOrder :
    (∀ g, Hosted g → g.All fun n => ∀ h x, n.node? h = some x →
      (x.descriptor.ports.map (·.name)).Nodup → ∃ count, x.InOrder count) ∧
    ∀ registry data s, (ofData registry data s).1.All Network.Received := by
  refine ⟨fun g hg => hg.fitted.mono fun n hn h x hx hnames => ?_, fun registry data s => ?_⟩
  · exact ⟨_, (hn.2 h x hx).inOrder hnames⟩
  · exact ofData_all registry (ofData_received registry) data s

/-- A call with records of one argument and far beyond all of them, and a number that is connected
    to another argument. -/
def sparse : GraphData where
  name := "sparse"
  nodes := [
    { guid := "one", type := "Ceres.Values.Literal", genericArguments := ["int"],
      ports := [{ name := "value", connections := [⟨"call", "args", 3⟩] }] },
    { guid := "call", type := "Ceres.Functions.InvokeFunction",
      ports := [{ name := "args", index := 1, value := some (.int 5) },
        { name := "args", index := 18446744073709551615, value := some (.int 6) }] }]

theorem slots_inOrder_sparse :
    ∃ x count, (ofData .builtin sparse default).1.node? ⟨1, 0⟩ = some x ∧
      (x.descriptor.ports.map (·.name)).Nodup ∧ x.InOrder count ∧
      x.ports.map Port.key = [("input", 0), ("args", 0), ("args", 1), ("args", 2), ("args", 3),
        ("result", 0), ("next", 0)] ∧
      (ofData .builtin sparse default).1.toNetwork.Received := by
  have hnode : ((ofData .builtin sparse default).1.node? ⟨1, 0⟩).map (fun x =>
      (decide (x.descriptor.ports.map (·.name)).Nodup, x.ports.map Port.key)) = some (true,
        [("input", 0), ("args", 0), ("args", 1), ("args", 2), ("args", 3), ("result", 0),
          ("next", 0)]) := by decide +kernel
  obtain ⟨x, hx, heq⟩ := Option.map_eq_some_iff.mp hnode
  have hnames : (x.descriptor.ports.map (·.name)).Nodup :=
    of_decide_eq_true (congrArg Prod.fst heq)
  have hhosted := slots_inOrder.1 _ (.hydrated .builtin sparse default)
  obtain ⟨count, hcount⟩ := hhosted.network ⟨1, 0⟩ x hx hnames
  exact ⟨x, count, hx, hnames, hcount, congrArg Prod.snd heq,
    (slots_inOrder.2 .builtin sparse default).network⟩

end Graph
end FlowGraph
