import FlowGraph.Proofs.Graph.Reloading
import FlowGraph.Proofs.Graph.Repeated

/-! # Connecting a live graph

    A connection is recorded at a live graph, or at the saved graph that it is hydrated from.
    Records and slots are not added in the same order then: hydrating opens slots for all
    connections at the end, and a saved graph records a connection twice where a live one
    does not.  But the nodes have the same connections, and their array ports reach equally
    far: to the last slot that is recorded or connected (`GraphNode.Hydrates`).  Nothing else
    is seen of the records, so that both graphs are compiled alike
    (`Graph.compiledView_connected`).

    A live output that is no array port is not laid out anew.  So an array port of the same
    name, which a node type must not declare, has another length (`Graph.connected_shadows`). -/

namespace FlowGraph

/-! ## Section 1: How far array ports reach -/

namespace Layout

/-- The records ask for a slot below the limit. -/
def Asks (records : List PortData) (name : String) (index : Nat) : Prop :=
  index < maxArraySlots ∧ ∃ r ∈ records, r.name = name ∧ r.index = index

theorem lt_extent_iff (records : List PortData) (name : String) (i : Nat) :
    i < extent records name ↔ ∃ j, i ≤ j ∧ Asks records name j := by
  constructor
  · intro h
    obtain ⟨r, hr, hname, hindex, hle⟩ := exists_of_lt_extent records name i h
    exact ⟨r.index, hle, hindex, r, hr, hname, rfl⟩
  · rintro ⟨_, hle, hindex, r, hr, rfl, rfl⟩
    exact hle.trans_lt (lt_extent records r hr hindex)

theorem asks_append (records more : List PortData) (name : String) (index : Nat) :
    Asks (records ++ more) name index ↔ Asks records name index ∨ Asks more name index := by
  unfold Asks
  simp only [List.mem_append, or_and_right, exists_or, and_or_left]

theorem asks_singleton (r : PortData) (name : String) (index : Nat) :
    Asks [r] name index ↔ index < maxArraySlots ∧ r.name = name ∧ r.index = index := by
  simp [Asks]

/-- Changing the record of a slot asks for that slot, and for nothing else. -/
theorem asks_modifyRecord (name : String) (index : Nat) (f : PortData → PortData)
    (hf : ∀ r, (f r).name = r.name ∧ (f r).index = r.index) (records : List PortData)
    (name' : String) (index' : Nat) :
    Asks (NodeData.modifyRecord name index f records) name' index' ↔
      Asks records name' index' ∨ Asks [{ name, index }] name' index' := by
  induction records with
  | nil =>
    show Asks [f { name, index }] name' index' ↔ _
    rw [asks_singleton, asks_singleton, (hf _).1, (hf _).2]
    simp [Asks]
  | cons first rest ih =>
    have hcons : ∀ (r : PortData) (rs : List PortData), Asks (r :: rs) name' index' ↔
        Asks [r] name' index' ∨ Asks rs name' index' := fun r rs => asks_append [r] rs name' index'
    unfold NodeData.modifyRecord
    split
    · rename_i hfor
      simp only [PortData.isFor, Bool.and_eq_true, decide_eq_true_eq] at hfor
      rw [hcons, hcons first rest, asks_singleton, asks_singleton, asks_singleton, (hf _).1,
        (hf _).2, hfor.1, hfor.2]
      tauto
    · rw [hcons, hcons first rest, ih, or_assoc]

end Layout

open Layout

namespace NodeData

/-- A connection leads to a slot of an array port of a node.  No other port of the name has the
    slot. -/
def Wants (registry : Registry) (nodes : List NodeData) (d : NodeData) (port : String)
    (index : Nat) : Prop :=
  (∃ e ∈ nodes, ∃ r ∈ e.ports, (⟨d.guid, port, index⟩ : PortConnection) ∈ r.connections) ∧
    (registry.resolve d).descriptor.isArray port = true ∧ index < maxArraySlots ∧
    ∀ q ∈ (registry.resolve d).descriptor.ports, q.name = port → q.array = false → index ≠ 0

end NodeData

/-- The records as linking sees them, without repetitions. -/
def tidyRecords (records : List PortData) : List PortData :=
  (connected records).map PortData.pruned

theorem tidyRecords_append (records more : List PortData) :
    tidyRecords (records ++ more) = tidyRecords records ++ tidyRecords more := by
  unfold tidyRecords connected
  rw [List.filter_append, List.map_append, List.map_append]

theorem tidyRecords_of_unconnected (records : List PortData)
    (h : ∀ r ∈ records, r.connections = []) : tidyRecords records = [] := by
  unfold tidyRecords connected
  rw [List.filter_eq_nil_iff.mpr fun r hr => by simp [h r hr]]
  rfl

theorem tidyRecords_singleton (r : PortData) (h : r.connections ≠ []) :
    tidyRecords [r] = [({ r with value := none } : PortData).pruned] := by
  simp [tidyRecords, connected, h]

/-! ## Section 2: Nodes of a saved graph -/

/-- A live node has the guid and the connections of a saved one and is of its type.  Its array
    ports reach to the last slot that is recorded or connected. -/
structure GraphNode.Hydrates (registry : Registry) (nodes : List NodeData) (d : NodeData)
    (x : GraphNode) : Prop where
  guid : x.guid = d.guid
  descriptor : x.descriptor = (registry.resolve d).descriptor
  records : tidyRecords x.records = tidyRecords d.ports
  laidOut : x.LaidOut
  reach : ∀ name i, i < extent x.records name ↔
    ∃ j, i ≤ j ∧ (Asks d.ports name j ∨ NodeData.Wants registry nodes d name j)

/-- A network that was not compiled has the nodes of a saved graph, in their order. -/
structure Network.Hydrates (registry : Registry) (data : GraphData) (n : Network) : Prop where
  sound : n.Sound
  distinct : n.Distinct
  nodes : List.Forall₂ (fun d e => e.2.Hydrates registry data.nodes d) data.nodes n.placed
  paths : n.paths = none

/-- Nodes of the same saved one have the same slots. -/
theorem GraphNode.Hydrates.matches {registry : Registry} {nodes : List NodeData}
    {R : NodeHandle → NodeHandle → Prop} {d : NodeData} {x y : GraphNode}
    (hx : x.Hydrates registry nodes d) (hy : y.Hydrates registry nodes d) :
    x.wiring.pruned.unlinked.Matches R y.wiring.pruned.unlinked := by
  have hdescriptor := hy.descriptor.trans hx.descriptor.symm
  have hextent : ∀ name, extent y.records name = extent x.records name := by
    intro name
    refine eq_of_forall_lt_iff fun i => ?_
    rw [hx.reach, hy.reach]
  have hports : y.ports = x.ports := by
    rw [hy.laidOut, hx.laidOut, hdescriptor]
    exact portsOf_congr _ _ _ fun q _ _ => hextent q.name
  refine ⟨hy.guid.trans hx.guid.symm, hdescriptor, hy.records.trans hx.records.symm, ?_, .nil⟩
  show List.Forall₂ _ (x.ports.map Port.unlinked) (y.ports.map Port.unlinked)
  rw [hports, List.forall₂_same]
  intro p hp
  obtain ⟨q, _, rfl⟩ := List.mem_map.mp hp
  exact ⟨rfl, .none, .none⟩

namespace Network

variable {registry : Registry} {data : GraphData} {n m : Network}

theorem differs_tidied (n : Network) : n.Differs n.tidied fun _ x => x.wiring.pruned := by
  have hwiring : n.Differs n.wiring fun _ => GraphNode.wiring := ⟨rfl, n.node?_wiring⟩
  exact hwiring.trans n.wiring.differs_pruned

theorem tidied_sound (hn : n.Sound) : n.tidied.Sound := by
  refine hn.congr (Arena.map_wellFormed _ _ (Arena.map_wellFormed _ _ hn.arena)) rfl fun h => ?_
  rw [n.differs_tidied.node]
  cases n.node? h with
  | none => simp
  | some x => simp

theorem tidied_distinct (hn : n.Distinct) : n.tidied.Distinct := by
  intro h k x' y' hx' hy' hguid
  rw [n.differs_tidied.node] at hx' hy'
  obtain ⟨x, hx, rfl⟩ := Option.map_eq_some_iff.mp hx'
  obtain ⟨y, hy, rfl⟩ := Option.map_eq_some_iff.mp hy'
  exact hn h k x y hx hy hguid

/-- Networks of the same saved graph are alike, up to what linking does not see. -/
theorem Hydrates.alike (hn : n.Hydrates registry data) (hm : m.Hydrates registry data) :
    n.tidied.Alike m.tidied := by
  refine ⟨?_, ⟨tidied_sound hn.sound, tidied_sound hm.sound⟩,
    ⟨tidied_distinct hn.distinct, tidied_distinct hm.distinct⟩, ⟨rfl, rfl⟩⟩
  unfold Matches
  rw [n.tidied.differs_unlinked.placed, m.tidied.differs_unlinked.placed,
    n.differs_tidied.placed, m.differs_tidied.placed]
  simp only [List.forall₂_map_left_iff, List.forall₂_map_right_iff]
  refine (twins_of_forall₂ hn.sound hm.sound hn.nodes hm.nodes).imp ?_
  rintro e f ⟨htwins, d, hde, hdf⟩
  exact ⟨htwins, hde.matches hdf⟩

end Network

/-! ## Section 3: Hydrating -/

namespace GraphNode

variable {x : GraphNode} (hx : x.LaidOut) (name : String) (index : Nat)

include hx

/-- A port that is no array has its slot in any case. -/
theorem ne_zero_of_lacking (hnone : x.port? name index = none) :
    ∀ q ∈ x.descriptor.ports, q.name = name → q.array = false → index ≠ 0 := by
  rintro q hq rfl hscalar rfl
  rw [port?_eq_find?, List.find?_eq_none] at hnone
  refine hnone (Port.ofDescriptor q 0) ?_ (by simp [Port.isSlot, Port.ofDescriptor])
  rw [hx]
  refine List.mem_map.mpr ⟨(q, 0), List.mem_flatMap.mpr ⟨q, hq, ?_⟩, rfl⟩
  simp [slotsOf, hscalar]

/-- Else a slot that is there is one of an array port. -/
theorem lt_extent_of_port? (p : Port) (hp : x.port? name index = some p)
    (hother : ∀ q ∈ x.descriptor.ports, q.name = name → q.array = false → index ≠ 0) :
    index < extent x.records name := by
  obtain ⟨q, hq, rfl, hslot, _⟩ := exists_of_port? hx name index p hp
  unfold HasSlot at hslot
  cases harray : q.array with
  | true => rwa [if_pos harray] at hslot
  | false =>
    simp only [harray] at hslot
    exact absurd (Nat.lt_one_iff.mp hslot) (hother q hq rfl harray)

end GraphNode

namespace Graph

open Network

theorem asks_withSlots (missing : List MissingSlot) (h : NodeHandle) (records : List PortData)
    (name : String) (index : Nat) : Asks (withSlots missing h records) name index ↔
      Asks records name index ∨ index < maxArraySlots ∧ ⟨h, name, index⟩ ∈ missing := by
  obtain ⟨opened, heq, hopened⟩ := withSlots_opened missing h records
  constructor
  · rw [heq, asks_append]
    rintro (hold | ⟨hindex, r, hr, rfl, rfl⟩)
    · exact .inl hold
    · obtain ⟨m, hm, rfl, rfl⟩ := hopened r hr
      exact .inr ⟨hindex, hm⟩
  · rintro (hold | ⟨hindex, hm⟩)
    · rw [heq, asks_append]
      exact .inl hold
    · exact ⟨hindex, exists_mem_withSlots missing _ hm records⟩

/-- Slots of a node are lacking if they are connected, belong to an array port and are not
    there. -/
theorem mem_lacking_iff (g : Graph) (hdistinct : g.toNetwork.Distinct) (h : NodeHandle)
    (x : GraphNode) (hx : g.node? h = some x) (name : String) (index : Nat) :
    ⟨h, name, index⟩ ∈ g.lacking ↔
      (∃ k y, g.node? k = some y ∧ ∃ r ∈ y.records,
        (⟨x.guid, name, index⟩ : PortConnection) ∈ r.connections) ∧
      x.descriptor.isArray name = true ∧ index < maxArraySlots ∧ x.port? name index = none := by
  constructor
  · intro hm
    obtain ⟨k, y, r, c, z, p, hy, hr, hc, hz, hguid, hp, harray, hslot, hindex, hname, hsame⟩ :=
      g.exists_of_mem_lacking _ hm
    have hzx : z = x := Option.some.inj (hz.symm.trans hx)
    subst hzx
    obtain ⟨guid, port, i⟩ := c
    simp only at hguid hp hslot hindex hname hsame
    subst hguid hname hsame
    have hisArray := (NodeDescriptor.isArray_eq_true_iff _ _).mpr ⟨p, hp, harray⟩
    exact ⟨⟨k, y, hy, r, hr, hc⟩, hisArray, hindex, hslot⟩
  · rintro ⟨⟨k, y, hy, r, hr, hc⟩, harray, hindex, hslot⟩
    exact g.mem_lacking k y hy r hr _ hc h x (hdistinct.handleOf h x hx) hx harray hslot hindex

/-- Hydrating a saved graph with guids of its own gives its nodes. -/
theorem placeAll_hydrates (registry : Registry) (data : GraphData) (s : Store)
    (hnamed : data.Named) : (placeAll registry data s).1.toNetwork.Hydrates registry data := by
  obtain ⟨_, hnodes, _⟩ := placeNodes_restores registry data s hnamed.nodup hnamed.nonempty
  have hplaced := placeNodes_carries registry data s hnamed.nodup fun d hd hnone =>
    absurd hnone (hnamed.nonempty d hd)
  obtain ⟨hcarries, _⟩ := placeAll_carries registry data s hnamed.nodup fun d hd hnone =>
    absurd hnone (hnamed.nonempty d hd)
  have hpaths := (ofData_fresh registry data s).paths
  rw [ofData_eq] at hpaths
  refine ⟨hcarries.sound, hcarries.distinct hnamed.nodup, ?_, hpaths⟩
  have hdistinct := hplaced.distinct hnamed.nodup
  rw [placeAll_eq]
  dsimp only
  rw [(differs_addIncomingSlots _ _ hplaced.laidOut).placed, List.forall₂_map_right_iff]
  obtain ⟨g, hg⟩ : ∃ g, (placeNodes registry data s).1 = g := ⟨_, rfl⟩
  rw [hg] at hnodes hplaced hdistinct ⊢
  -- what is connected at the live nodes is what the saved ones record
  have hconnected : ∀ c : PortConnection,
      (∃ k y, g.node? k = some y ∧ ∃ r ∈ y.records, c ∈ r.connections) ↔
        ∃ e ∈ data.nodes, ∃ r ∈ e.ports, c ∈ r.connections := by
    intro c
    constructor
    · rintro ⟨k, y, hy, r, hr, hc⟩
      obtain ⟨i, hi⟩ := List.mem_iff_getElem?.mp ((g.mem_placed_iff hplaced.sound k y).mpr hy)
      obtain ⟨d, hd, _, hrecords⟩ := exists_left_of_forall₂ hnodes i (k, y) hi
      exact ⟨d, List.mem_of_getElem? hd, r, hrecords ▸ hr, hc⟩
    · rintro ⟨d, hd, r, hr, hc⟩
      obtain ⟨i, hi⟩ := List.mem_iff_getElem?.mp hd
      obtain ⟨⟨k, y⟩, hy, _, hrecords⟩ := exists_right_of_forall₂ hnodes i d hi
      exact ⟨k, y, g.node?_of_mem_placed k y (List.mem_of_getElem? hy), r, hrecords.symm ▸ hr, hc⟩
  refine forall₂_of_getElem? hnodes.length_eq fun i d e hd he => ?_
  obtain ⟨e', he', hrestores, hrecords⟩ := exists_right_of_forall₂ hnodes i d hd
  rw [he] at he'
  cases he'
  have hx := g.node?_of_mem_placed e.1 e.2 (List.mem_of_getElem? he)
  have hlaid := hplaced.laidOut e.1 e.2 hx
  refine ⟨hrestores.guid, hrestores.descriptor, ?_, rfl, fun name index => ?_⟩
  · obtain ⟨opened, heq, hnone⟩ := withSlots_eq_append g.lacking e.1 e.2.records
    show tidyRecords (withSlots g.lacking e.1 e.2.records) = _
    rw [heq, tidyRecords_append, tidyRecords_of_unconnected opened hnone, List.append_nil, hrecords]
  · show index < extent (withSlots g.lacking e.1 e.2.records) name ↔ _
    rw [lt_extent_iff]
    simp only [asks_withSlots, g.mem_lacking_iff hdistinct e.1 e.2 hx, hconnected, hrestores.guid,
      hrecords]
    constructor
    · rintro ⟨j, hle, hold | ⟨_, hwanted, harray, hindex, hslot⟩⟩
      · exact ⟨j, hle, .inl hold⟩
      · rw [hrestores.descriptor] at harray
        refine ⟨j, hle, .inr ⟨hwanted, harray, hindex, ?_⟩⟩
        rw [← hrestores.descriptor]
        exact GraphNode.ne_zero_of_lacking hlaid name j hslot
    · rintro ⟨j, hle, hold | ⟨hwanted, harray, hindex, hother⟩⟩
      · exact ⟨j, hle, .inl hold⟩
      · rw [← hrestores.descriptor] at harray hother
        cases hslot : e.2.port? name j with
        | none => exact ⟨j, hle, .inr ⟨hindex, hwanted, harray, hindex, hslot⟩⟩
        | some p =>
          have hreached := GraphNode.lt_extent_of_port? hlaid name j p hslot hother
          rw [hrecords, lt_extent_iff] at hreached
          obtain ⟨j', hle', hold⟩ := hreached
          exact ⟨j', hle.trans hle', .inl hold⟩

end Graph

/-! ## Section 4: One more connection -/

/-- A connection is recorded behind those of a record. -/
def pushConnection (c : PortConnection) (r : PortData) : PortData :=
  { r with connections := r.connections ++ [c] }

/-- It does not matter whether it is there already. -/
theorem pruned_addConnection (c : PortConnection) (r : PortData) :
    (Graph.addConnection c r).pruned = (pushConnection c r).pruned := by
  unfold Graph.addConnection pushConnection PortData.pruned
  split
  · rename_i hc
    have hmem : c ∈ r.connections.foldl addNew [] :=
      (mem_foldl_addNew _ c).mpr (List.contains_iff_mem.mp hc)
    simp only [List.foldl_append, List.foldl_cons, List.foldl_nil, addNew_of_mem _ c hmem]
  · rfl

theorem addConnection_ne_nil (c : PortConnection) (r : PortData) :
    (Graph.addConnection c r).connections ≠ [] := by
  unfold Graph.addConnection
  split
  · rename_i hc
    exact List.ne_nil_of_mem (List.contains_iff_mem.mp hc)
  · simp

theorem tidyRecords_modifyRecord (name : String) (index : Nat) (c : PortConnection)
    (records opened : List PortData) (hopened : ∀ r ∈ opened, r.connections = []) :
    tidyRecords (NodeData.modifyRecord name index (Graph.addConnection c) (records ++ opened))
      = tidyRecords (NodeData.modifyRecord name index (pushConnection c) records) := by
  have hcons : ∀ (r : PortData) (rs : List PortData),
      tidyRecords (r :: rs) = tidyRecords [r] ++ tidyRecords rs :=
    fun r rs => tidyRecords_append [r] rs
  have hchanged : ∀ r : PortData,
      tidyRecords [Graph.addConnection c r] = tidyRecords [pushConnection c r] := by
    intro r
    rw [tidyRecords_singleton _ (addConnection_ne_nil c r),
      tidyRecords_singleton (pushConnection c r) (by simp [pushConnection])]
    have hpruned := congrArg (fun r : PortData => ({ r with value := none } : PortData))
      (pruned_addConnection c r)
    exact congrArg (fun r => [r]) hpruned
  induction records with
  | nil =>
    -- the record is one of an opened slot, or a new one
    rw [List.nil_append]
    show _ = tidyRecords [pushConnection c { name, index }]
    induction opened with
    | nil => exact hchanged _
    | cons r rest ih =>
      have hr := hopened r List.mem_cons_self
      have hrest := fun r' hr' => hopened r' (List.mem_cons_of_mem r hr')
      unfold NodeData.modifyRecord
      split
      · rename_i hfor
        simp only [PortData.isFor, Bool.and_eq_true, decide_eq_true_eq] at hfor
        rw [hcons, tidyRecords_of_unconnected rest hrest, List.append_nil, hchanged,
          tidyRecords_singleton _ (by simp [pushConnection]),
          tidyRecords_singleton _ (by simp [pushConnection])]
        unfold pushConnection
        simp only [hr, hfor.1, hfor.2]
      · rw [hcons, tidyRecords_of_unconnected [r] fun r' hr' => by rwa [List.mem_singleton.mp hr'],
          List.nil_append, ih hrest]
  | cons r rest ih =>
    rw [List.cons_append]
    unfold NodeData.modifyRecord
    split
    · rw [hcons, hcons (pushConnection c r), hchanged, tidyRecords_append,
        tidyRecords_of_unconnected opened hopened, List.append_nil]
    · rw [hcons r (NodeData.modifyRecord name index (Graph.addConnection c) (rest ++ opened)),
        hcons r (NodeData.modifyRecord name index (pushConnection c) rest), ih]

theorem connections_modifyRecord (name : String) (index : Nat) (c c' : PortConnection)
    (records : List PortData) :
    (∃ r ∈ NodeData.modifyRecord name index (pushConnection c) records, c' ∈ r.connections) ↔
      (∃ r ∈ records, c' ∈ r.connections) ∨ c' = c := by
  induction records with
  | nil => simp [NodeData.modifyRecord, pushConnection]
  | cons r rest ih =>
    unfold NodeData.modifyRecord
    split
    · simp only [List.exists_mem_cons_iff, pushConnection, List.mem_append, List.mem_singleton]
      exact or_right_comm
    · rw [List.exists_mem_cons_iff, List.exists_mem_cons_iff, ih, or_assoc]

/-- How a node type is resolved does not depend on the records. -/
theorem Registry.resolve_descriptor_ports (registry : Registry) (d : NodeData)
    (ports : List PortData) :
    (registry.resolve { d with ports }).descriptor = (registry.resolve d).descriptor := by
  have htry : registry.tryResolve { d with ports } = registry.tryResolve d := rfl
  unfold Registry.resolve
  rw [htry]
  cases registry.tryResolve d with
  | ok resolved => rfl
  | error e => rfl

/-- A saved node with one more connection, if it is the source. -/
def NodeData.connect (source target : SlotRef) (d : NodeData) : NodeData :=
  if d.guid = source.guid then
    d.modifyPort source.port source.index (pushConnection ⟨target.guid, target.port, target.index⟩)
  else d

namespace NodeData

variable (source target : SlotRef) (d : NodeData)

theorem connect_guid : (d.connect source target).guid = d.guid := by
  unfold connect
  split <;> rfl

theorem connect_descriptor (registry : Registry) :
    (registry.resolve (d.connect source target)).descriptor = (registry.resolve d).descriptor := by
  unfold connect
  split
  · exact registry.resolve_descriptor_ports d _
  · rfl

theorem connect_asks (name : String) (index : Nat) :
    Asks (d.connect source target).ports name index ↔ Asks d.ports name index ∨
      d.guid = source.guid ∧ Asks [{ name := source.port, index := source.index }] name index := by
  unfold connect
  split
  · rename_i h
    refine (asks_modifyRecord source.port source.index
      (pushConnection ⟨target.guid, target.port, target.index⟩) (fun _ => ⟨rfl, rfl⟩) d.ports name
      index).trans ?_
    simp only [h, true_and]
  · rename_i h
    simp only [h, false_and, or_false]

end NodeData

/-- The slot at the end of the new connection is wanted, and the others as before. -/
theorem NodeData.connect_wants (registry : Registry) (source target : SlotRef)
    (nodes : List NodeData) (hsource : ∃ e ∈ nodes, e.guid = source.guid) (d : NodeData)
    (name : String) (index : Nat) :
    Wants registry (nodes.map (connect source target)) d name index ↔
      Wants registry nodes d name index ∨ (d.guid = target.guid ∧ name = target.port ∧
        index = target.index) ∧ (registry.resolve d).descriptor.isArray name = true ∧
        index < maxArraySlots ∧ ∀ q ∈ (registry.resolve d).descriptor.ports, q.name = name →
          q.array = false → index ≠ 0 := by
  obtain ⟨c, hc⟩ : ∃ c : PortConnection, c = ⟨target.guid, target.port, target.index⟩ := ⟨_, rfl⟩
  have hconnections : ∀ c' : PortConnection,
      (∃ e ∈ nodes.map (connect source target), ∃ r ∈ e.ports, c' ∈ r.connections) ↔
        (∃ e ∈ nodes, ∃ r ∈ e.ports, c' ∈ r.connections) ∨ c' = c := by
    intro c'
    have hnode : ∀ e : NodeData, (∃ r ∈ (e.connect source target).ports, c' ∈ r.connections) ↔
        (∃ r ∈ e.ports, c' ∈ r.connections) ∨ e.guid = source.guid ∧ c' = c := by
      intro e
      unfold connect
      split
      · rename_i he
        simp only [he, true_and, hc]
        exact connections_modifyRecord source.port source.index _ c' e.ports
      · rename_i he
        simp only [he, false_and, or_false]
    simp only [List.mem_map, exists_exists_and_eq_and, hnode]
    constructor
    · rintro ⟨e, he, hold | ⟨_, hnew⟩⟩
      · exact .inl ⟨e, he, hold⟩
      · exact .inr hnew
    · rintro (⟨e, he, hold⟩ | hnew)
      · exact ⟨e, he, .inl hold⟩
      · obtain ⟨e, he, hguid⟩ := hsource
        exact ⟨e, he, .inr ⟨hguid, hnew⟩⟩
  unfold Wants
  rw [hconnections, hc, PortConnection.mk.injEq, or_and_right]

/-! ### What it does to a node -/

/-- The node with other records, laid out anew. -/
def GraphNode.rerecorded (x : GraphNode) (f : List PortData → List PortData) : GraphNode :=
  ({ x with records := f x.records } : GraphNode).laidOut

/-- A node after a connection was recorded at its source. -/
def GraphNode.recording (source target : SlotRef) (x : GraphNode) : GraphNode :=
  if x.guid = source.guid then
    x.rerecorded (NodeData.modifyRecord source.port source.index
      (Graph.addConnection ⟨target.guid, target.port, target.index⟩))
  else x

/-- A node after the slot of a connection was opened at its target. -/
def GraphNode.opening (target : SlotRef) (x : GraphNode) : GraphNode :=
  if x.guid = target.guid ∧ x.descriptor.isArray target.port = true ∧
      x.port? target.port target.index = none then
    x.rerecorded (· ++ [{ name := target.port, index := target.index }])
  else x

namespace GraphNode.Hydrates

variable {registry : Registry} {nodes : List NodeData} {d : NodeData} {x : GraphNode}

/-- The source records the connection. -/
theorem recorded (hx : x.Hydrates registry nodes d) (source target : SlotRef)
    (hrecords : ∃ opened, x.records = d.ports ++ opened ∧ ∀ r ∈ opened, r.connections = []) :
    (x.recording source target).Hydrates registry nodes (d.connect source target) := by
  have hwants : ∀ name index, NodeData.Wants registry nodes (d.connect source target) name index ↔
      NodeData.Wants registry nodes d name index := by
    intro name index
    unfold NodeData.Wants
    rw [d.connect_guid, d.connect_descriptor]
  have hguid := hx.guid.trans (d.connect_guid source target).symm
  have hdescriptor := hx.descriptor.trans (d.connect_descriptor source target registry).symm
  have hasks := d.connect_asks source target
  obtain ⟨c, hc⟩ : ∃ c : PortConnection, c = ⟨target.guid, target.port, target.index⟩ := ⟨_, rfl⟩
  unfold GraphNode.recording
  rw [← hc, hx.guid]
  split
  · rename_i hsource
    refine ⟨hguid, hdescriptor, ?_, rfl, fun name i => ?_⟩
    · obtain ⟨opened, heq, hopened⟩ := hrecords
      show tidyRecords (NodeData.modifyRecord source.port source.index (Graph.addConnection c)
        x.records) = _
      rw [heq, tidyRecords_modifyRecord _ _ _ _ opened hopened]
      unfold NodeData.connect
      rw [if_pos hsource, ← hc]
      rfl
    · show i < extent (NodeData.modifyRecord source.port source.index (Graph.addConnection c)
        x.records) name ↔ _
      have hold := hx.reach name i
      rw [lt_extent_iff] at hold ⊢
      simp only [asks_modifyRecord _ _ _ (addConnection_named c), hwants, hasks, hsource, true_and,
        and_or_left, exists_or] at hold ⊢
      rw [hold, or_right_comm]
  · rename_i hsource
    refine ⟨hguid, hdescriptor, ?_, hx.laidOut, fun name i => ?_⟩
    · unfold NodeData.connect
      rw [if_neg hsource]
      exact hx.records
    · simp only [hx.reach, hwants, hasks, hsource, false_and, or_false]

/-- The target opens the slot, if it is one of an array port and is not there. -/
theorem opened {nodes' : List NodeData} (hx : x.Hydrates registry nodes d) (target : SlotRef)
    (hwants : ∀ name index, NodeData.Wants registry nodes' d name index ↔
      NodeData.Wants registry nodes d name index ∨ (d.guid = target.guid ∧ name = target.port ∧
        index = target.index) ∧ (registry.resolve d).descriptor.isArray name = true ∧
        index < maxArraySlots ∧ ∀ q ∈ (registry.resolve d).descriptor.ports, q.name = name →
          q.array = false → index ≠ 0) :
    (x.opening target).Hydrates registry nodes' d := by
  have hreach : ∀ name i, (∃ j, i ≤ j ∧ (Asks d.ports name j ∨
      NodeData.Wants registry nodes' d name j)) ↔ i < extent x.records name ∨
        ∃ j, i ≤ j ∧ (d.guid = target.guid ∧ name = target.port ∧ j = target.index) ∧
          x.descriptor.isArray name = true ∧ j < maxArraySlots ∧
          ∀ q ∈ x.descriptor.ports, q.name = name → q.array = false → j ≠ 0 := by
    intro name i
    simp only [hx.reach, hwants, hx.descriptor, and_or_left, exists_or, or_assoc]
  unfold GraphNode.opening
  rw [hx.guid]
  split
  · rename_i hopens
    obtain ⟨hguid, harray, hnone⟩ := hopens
    refine ⟨hx.guid, hx.descriptor, ?_, rfl, fun name i => ?_⟩
    · show tidyRecords (x.records ++ [{ name := target.port, index := target.index }]) = _
      rw [tidyRecords_append, tidyRecords_of_unconnected [_] fun r hr => by
        rw [List.mem_singleton.mp hr], List.append_nil]
      exact hx.records
    · rw [hreach, lt_extent_iff x.records]
      show i < extent (x.records ++ [{ name := target.port, index := target.index }]) name ↔ _
      rw [lt_extent_iff]
      simp only [asks_append, and_or_left, exists_or, asks_singleton]
      refine or_congr_right (exists_congr fun j => and_congr_right fun _ => ?_)
      constructor
      · rintro ⟨hindex, rfl, rfl⟩
        exact ⟨⟨hguid, rfl, rfl⟩, harray, hindex,
          GraphNode.ne_zero_of_lacking hx.laidOut _ _ hnone⟩
      · rintro ⟨⟨_, rfl, rfl⟩, _, hindex, _⟩
        exact ⟨hindex, rfl, rfl⟩
  · rename_i hopens
    refine ⟨hx.guid, hx.descriptor, hx.records, hx.laidOut, fun name i => ?_⟩
    rw [hreach]
    refine ⟨.inl, ?_⟩
    rintro (hold | ⟨j, hle, ⟨hguid, rfl, rfl⟩, harray, _, hother⟩)
    · exact hold
    · -- the slot is there
      cases hslot : x.port? target.port target.index with
      | none => exact absurd ⟨hguid, harray, hslot⟩ hopens
      | some p => exact hle.trans_lt (GraphNode.lt_extent_of_port? hx.laidOut _ _ p hslot hother)

end GraphNode.Hydrates

/-- The first node of a guid is the only one. -/
theorem GraphData.modifyFirst_eq_map (guid : String) (f : NodeData → NodeData)
    (nodes : List NodeData) (hnodup : (nodes.map (·.guid)).Nodup) :
    GraphData.modifyFirst guid f nodes = nodes.map fun d => if d.guid = guid then f d else d := by
  induction nodes with
  | nil => rfl
  | cons d rest ih =>
    rw [List.map_cons, List.nodup_cons] at hnodup
    unfold modifyFirst
    by_cases hd : d.guid = guid
    · have hrest : rest.map (fun d => if d.guid = guid then f d else d) = rest := by
        refine (List.map_congr_left fun e he => ?_).trans (List.map_id rest)
        refine if_neg fun heq => hnodup.1 ?_
        rw [hd, ← heq]
        exact List.mem_map_of_mem he
      rw [if_pos hd, List.map_cons, if_pos hd, hrest]
    · rw [if_neg hd, List.map_cons, if_neg hd, ih hnodup.2]

theorem GraphData.connect_nodes (data : GraphData) (source target : SlotRef)
    (hnodup : (data.nodes.map (·.guid)).Nodup) :
    (data.connect source target).1.nodes = data.nodes.map (NodeData.connect source target) := by
  have hmap := modifyFirst_eq_map source.guid
    (fun n => n.modifyPort source.port source.index
      (pushConnection ⟨target.guid, target.port, target.index⟩)) data.nodes hnodup
  unfold connect node?
  cases hfind : data.nodes.find? (·.guid = source.guid) with
  | some _ => exact hmap
  | none =>
    refine ((List.map_congr_left fun d hd => ?_).trans (List.map_id _)).symm
    have hne := List.find?_eq_none.mp hfind d hd
    exact if_neg (by simpa using hne)

theorem GraphData.connect_functions (data : GraphData) (source target : SlotRef) :
    (data.connect source target).1.functions = data.functions := by
  unfold connect
  split <;> rfl

/-- The saved graph with the connection has the same guids and functions. -/
theorem GraphData.connect_named (data : GraphData) (source target : SlotRef)
    (hnamed : data.All GraphData.Named) :
    (data.connect source target).1.All GraphData.Named := by
  cases hnamed with
  | intro _ network functions =>
    have hguids : (data.connect source target).1.nodes.map (·.guid) = data.nodes.map (·.guid) := by
      rw [data.connect_nodes source target network.nodup, List.map_map]
      exact List.map_congr_left fun d _ => d.connect_guid source target
    refine .intro _ ⟨hguids ▸ network.nodup, fun d hd hempty => ?_⟩ fun f hf =>
      functions f (data.connect_functions source target ▸ hf)
    have hmem : d.guid ∈ data.nodes.map (·.guid) := hguids ▸ List.mem_map_of_mem hd
    obtain ⟨e, he, hguid⟩ := List.mem_map.mp hmem
    exact network.nonempty e he (hguid.trans hempty)

/-! ## Section 5: Connecting a live graph -/

/-- All declared ports of a name are arrays, or none of them is. -/
def NodeDescriptor.AgreesOn (d : NodeDescriptor) (name : String) : Prop :=
  ∀ p ∈ d.ports, ∀ q ∈ d.ports, p.name = name → q.name = name → p.array = q.array

theorem Network.Differs.congr {n m : Network} {f f' : NodeHandle → GraphNode → GraphNode}
    (h : n.Differs m f) (hf : ∀ k x, n.node? k = some x → f k x = f' k x) : n.Differs m f' := by
  refine ⟨h.order, fun k => (h.node k).trans ?_⟩
  cases hx : n.node? k with
  | none => rfl
  | some x => rw [Option.map_some, Option.map_some, hf k x hx]

theorem Network.Distinct.differs {n m : Network} {f : GraphNode → GraphNode} (hn : n.Distinct)
    (h : n.Differs m fun _ => f) (hguid : ∀ x, (f x).guid = x.guid) : m.Distinct := by
  intro j k x' y' hx' hy' hsame
  rw [h.node] at hx' hy'
  obtain ⟨x, hx, rfl⟩ := Option.map_eq_some_iff.mp hx'
  obtain ⟨y, hy, rfl⟩ := Option.map_eq_some_iff.mp hy'
  rw [hguid, hguid] at hsame
  exact hn j k x y hx hy hsame

/-- In place of a node, all nodes of its guid can be changed. -/
theorem Network.Distinct.handle_iff {n : Network} (hn : n.Distinct) (guid : String)
    (h k : NodeHandle) (x : GraphNode) (hh : n.handleOf guid = some h)
    (hx : n.node? k = some x) : k = h ↔ x.guid = guid := by
  obtain ⟨y, hy, rfl⟩ := n.exists_of_handleOf guid h hh
  constructor
  · rintro rfl
    rw [Option.some.inj (hx.symm.trans hy)]
  · exact fun hguid => hn k h x y hx hy hguid

namespace Graph

open Network

theorem differs_openSlot (g : Graph) (target : SlotRef) (s : Store)
    (hdistinct : g.toNetwork.Distinct) : g.toNetwork.Differs (g.openSlot target s).1.toNetwork
      fun _ x => x.opening target := by
  rcases g.openSlot_cases target s with ⟨heq, hthere⟩ | ⟨h, y, hh, hy, harray, hnone, heq⟩
  · rw [heq]
    have hsame : g.toNetwork.Differs g.toNetwork fun _ x => x :=
      ⟨rfl, fun k => by rw [Option.map_id']⟩
    refine hsame.congr fun k x hx => (if_neg ?_).symm
    rintro ⟨hguid, harray, hnone⟩
    have hsome := hthere k x (hguid ▸ hdistinct.handleOf k x hx) hx harray
    rw [hnone] at hsome
    cases hsome
  · rw [heq]
    refine (g.differs_layOut h _ s).congr fun k x hx => ?_
    by_cases hk : k = h
    · obtain rfl : x = y := Option.some.inj (hx.symm.trans (hk ▸ hy))
      have hguid := (hdistinct.handle_iff _ h k x hh hx).mp hk
      rw [if_pos hk]
      exact (if_pos ⟨hguid, harray, hnone⟩).symm
    · rw [if_neg hk]
      exact (if_neg fun hall => hk ((hdistinct.handle_iff _ h k x hh hx).mpr hall.1)).symm

/-- A connection is recorded at its source, which is laid out anew. -/
theorem differs_recordConnection (g : Graph) (source target : SlotRef) (h : NodeHandle)
    (x : GraphNode) (d : PortDescriptor) (s : Store) (hc : g.Connects source target h x d)
    (hlaid : x.LaidOut) (hdistinct : g.toNetwork.Distinct)
    (hagrees : x.descriptor.AgreesOn source.port) :
    g.toNetwork.Differs (g.recordConnection h d source target s).1.toNetwork
      fun _ x => x.recording source target := by
  have hrecorded : ∀ (k : Graph) (f : GraphNode → GraphNode),
      g.toNetwork.Differs k.toNetwork (fun j y => if j = h then f y else y) →
      f x = x.rerecorded (connectionRecord source target) →
      g.toNetwork.Differs k.toNetwork fun _ x => x.recording source target := by
    intro k f hk hsame
    refine hk.congr fun j y hy => ?_
    have hiff := hdistinct.handle_iff _ h j y hc.handle hy
    unfold GraphNode.recording
    by_cases hj : j = h
    · have hyx : y = x := Option.some.inj (hy.symm.trans (hj ▸ hc.node))
      rw [if_pos hj, if_pos (hiff.mp hj), hyx, hsame]
      rfl
    · rw [if_neg hj, if_neg fun heq => hj (hiff.mpr heq)]
  unfold recordConnection
  cases harray : d.array with
  | true => exact hrecorded _ _ (g.differs_layOut h _ s) rfl
  | false =>
    -- the record is of no array port
    have hports : Layout.portsOf (connectionRecord source target x.records) x.descriptor.ports
        = Layout.portsOf x.records x.descriptor.ports := by
      refine portsOf_modifyRecord _ _ _ (addConnection_named _) _ _ fun e he hname hearray => ?_
      have hsame := hagrees d (List.mem_of_find?_eq_some hc.port) e he
        (NodeDescriptor.name_of_port? hc.port) hname
      rw [harray, hearray] at hsame
      cases hsame
    have hlaid' : ({ x with records := connectionRecord source target x.records } :
        GraphNode).LaidOut := hlaid.trans hports.symm
    exact hrecorded _ _ (g.differs_modifyRecords h _) hlaid'.laidOut_eq.symm

/-- Then its slot is opened. -/
theorem connect_differs (g : Graph) (source target : SlotRef) (s : Store) (g' : Graph)
    (hconnect : (g.connect source target s).1 = .ok g')
    (hlaid : ∀ h x, g.node? h = some x → x.LaidOut) (hdistinct : g.toNetwork.Distinct)
    (hagrees : ∀ h x, g.node? h = some x → x.guid = source.guid →
      x.descriptor.AgreesOn source.port) :
    (∃ h x, g.node? h = some x ∧ x.guid = source.guid) ∧
      g.toNetwork.Differs g'.toNetwork fun _ x => (x.recording source target).opening target := by
  obtain ⟨h, x, d, hc, rfl⟩ := g.exists_of_connect source target s g' hconnect
  have hguid : x.guid = source.guid :=
    (hdistinct.handle_iff _ h h x hc.handle hc.node).mp rfl
  have hguids : ∀ x : GraphNode, (x.recording source target).guid = x.guid := by
    intro x
    unfold GraphNode.recording
    split <;> rfl
  have hrecorded := g.differs_recordConnection source target h x d s hc (hlaid h x hc.node)
    hdistinct (hagrees h x hc.node hguid)
  have hopened := differs_openSlot _ target (g.recordConnection h d source target s).2
    (hdistinct.differs hrecorded hguids)
  have hboth := hrecorded.trans hopened
  exact ⟨⟨h, x, hc.node, hguid⟩, hboth.order, hboth.node⟩

/-- A graph of saved nodes that a connection is recorded at is one of the saved nodes with the
    connection. -/
theorem connect_hydrates {registry : Registry} {data : GraphData} (hnamed : data.Named) (g : Graph)
    (hg : g.toNetwork.Hydrates registry data) (hcarries : g.toNetwork.Carries registry data.nodes)
    (source target : SlotRef) (s : Store) (g' : Graph)
    (hconnect : (g.connect source target s).1 = .ok g')
    (hagrees : ∀ d ∈ data.nodes, d.guid = source.guid →
      (registry.resolve d).descriptor.AgreesOn source.port) :
    g'.toNetwork.Hydrates registry (data.connect source target).1 := by
  -- a live node, with the saved one that it is of
  have hsaved : ∀ h x, g.node? h = some x → ∃ d ∈ data.nodes, x.Hydrates registry data.nodes d := by
    intro h x hx
    obtain ⟨i, hi⟩ := List.mem_iff_getElem?.mp ((g.mem_placed_iff hg.sound h x).mpr hx)
    obtain ⟨d, hd, hdx⟩ := exists_left_of_forall₂ hg.nodes i (h, x) hi
    exact ⟨d, List.mem_of_getElem? hd, hdx⟩
  obtain ⟨⟨h, x, hx, hsource⟩, hdiffers⟩ := g.connect_differs source target s g' hconnect
    hcarries.laidOut hg.distinct fun h x hx hguid => by
      obtain ⟨d, hd, hdx⟩ := hsaved h x hx
      rw [hdx.descriptor]
      exact hagrees d hd (hdx.guid.symm.trans hguid)
  obtain ⟨k, hk, rfl⟩ := g.connect_invalidates source target s g' hconnect
  have hguids : ∀ x : GraphNode, ((x.recording source target).opening target).guid = x.guid := by
    intro x
    unfold GraphNode.opening GraphNode.recording
    repeat' split
    all_goals rfl
  have hkept := hk.network.trans (l := k.invalidate.toNetwork) (.of_nodes rfl rfl)
  refine ⟨hkept.sound hg.sound, hg.distinct.differs hdiffers hguids, ?_, rfl⟩
  have hsource' : ∃ e ∈ data.nodes, e.guid = source.guid := by
    obtain ⟨d, hd, hdx⟩ := hsaved h x hx
    exact ⟨d, hd, hdx.guid.symm.trans hsource⟩
  rw [data.connect_nodes source target hnamed.nodup, hdiffers.placed, List.forall₂_map_left_iff,
    List.forall₂_map_right_iff]
  refine forall₂_of_getElem? hg.nodes.length_eq fun i d e hd he => ?_
  obtain ⟨e', he', hde⟩ := exists_right_of_forall₂ hg.nodes i d hd
  obtain ⟨f', hf', hcarried⟩ := exists_right_of_forall₂ hcarries.nodes i d hd
  rw [he] at he' hf'
  cases he'
  cases hf'
  refine (hde.recorded source target hcarried.records).opened target fun name index => ?_
  have hwants := d.connect_wants registry source target data.nodes hsource' name index
  unfold NodeData.Wants at hwants ⊢
  rw [d.connect_guid, d.connect_descriptor]
  exact hwants

/-- Hydrating gives a network of the saved graph, also of those of its functions. -/
theorem ofData_hydrates (registry : Registry) (data : GraphData) (hnamed : data.All GraphData.Named)
    (s : Store) :
    (ofData registry data s).1.Represents (fun d n => n.Hydrates registry d) data :=
  represents_ofData registry s data
    (hnamed.mono fun d hd t _ => placeAll_hydrates registry d t hd) s (le_refl _)

/-- What is seen of the slots and the dependencies is settled by linking. -/
theorem compile_wires (g : Graph) (conversions : Conversions) (s : Store) :
    (g.compile conversions s).1.1.toNetwork.wires = (g.link conversions).1.wires := by
  rcases g.compile_cases conversions s with ⟨_, _, heq⟩ | ⟨_, _, _, heq⟩ | ⟨_, _, heq, _⟩
  · rw [heq]
  · rw [heq]
    rfl
  · rw [heq]

/-- **Main theorem: editing a live graph is authoring the saved one.**  A graph that is hydrated
    and then connected, and the one that is hydrated with the connection recorded, are compiled
    with the same result.  If it is a success, the graphs and their functions look the same; in
    any case the slots, links, control targets and dependencies of the nodes do.

    The source's type declares all ports of the output's name as arrays, or none. -/
theorem compiledView_connected (registry : Registry) (data : GraphData)
    (hnamed : data.All GraphData.Named) (source target : SlotRef) (s t : Store) (g : Graph)
    (hconnect : ((ofData registry data s).1.connect source target t).1 = .ok g)
    (hagrees : ∀ d ∈ data.nodes, d.guid = source.guid →
      (registry.resolve d).descriptor.AgreesOn source.port)
    (conversions : Conversions) (u v w : Store) :
    (ofData registry (data.connect source target).1 v).1.compiledView conversions w
        = g.compiledView conversions u ∧
      ((ofData registry (data.connect source target).1 v).1.compile conversions
          w).1.1.toNetwork.wires
        = (g.compile conversions u).1.1.toNetwork.wires := by
  have hnodes : data.Named := by
    cases hnamed with
    | intro _ network functions => exact network
  have hauthored := data.connect_named source target hnamed
  obtain ⟨hbefore, hlocals⟩ := (represents_iff data _).mp (ofData_hydrates registry data hnamed s)
  have hcarries := (placeAll_carries registry data s hnodes.nodup fun d hd hnone =>
    absurd hnone (hnodes.nonempty d hd)).1
  have hafter := connect_hydrates hnodes _ hbefore (by rw [ofData_eq]; exact hcarries) source
    target t g hconnect hagrees
  have hedited :
      g.Represents (fun d n => n.Hydrates registry d) (data.connect source target).1 := by
    refine (represents_iff _ g).mpr ⟨hafter, ?_⟩
    rw [data.connect_functions, connect_functions _ source target t g hconnect]
    exact hlocals
  have hloaded := ofData_hydrates registry _ hauthored v
  refine ⟨hedited.compiledView_congr hloaded conversions
    (fun d n m hn hm => findPaths_of_tidied (hn.alike hm) hn.paths hm.paths conversions) u w, ?_⟩
  rw [compile_wires, compile_wires]
  exact wires_of_tidied (hafter.alike ((represents_iff _ _).mp hloaded).1) conversions

/-! ### An argument, and a name with two outputs -/

/-- A number and a call, without connections. -/
def unconnected : GraphData where
  name := "unconnected"
  nodes := [numberNode [], { guid := "call", type := "Ceres.Functions.InvokeFunction" }]

theorem GraphData.named_of_functionless (data : GraphData) (hnamed : data.Named)
    (hfunctions : data.functions = []) : data.All GraphData.Named := by
  refine .intro data hnamed fun f hf => ?_
  rw [hfunctions] at hf
  cases hf

/-- What connecting gives, in case of success. -/
def connecting (registry : Registry) (data : GraphData) (source target : SlotRef) : Option Graph :=
  ((ofData registry data default).1.connect source target default).1.toOption

theorem compiledView_connected_argument :
    let source : SlotRef := ⟨"number", "value", 0⟩
    let target : SlotRef := ⟨"call", "args", 1⟩
    unconnected.All GraphData.Named ∧
      (∀ d ∈ unconnected.nodes, d.guid = source.guid →
        (Registry.builtin.resolve d).descriptor.AgreesOn source.port) ∧
      ∃ g, ((ofData .builtin unconnected default).1.connect source target default).1 = .ok g ∧
        (ofData .builtin (unconnected.connect source target).1 default).1.compiledView .standard
            default
          = g.compiledView .standard default ∧
        ((ofData .builtin (unconnected.connect source target).1 default).1.compile .standard
            default).1.1.toNetwork.wires
          = (g.compile .standard default).1.1.toNetwork.wires := by
  intro source target
  have hnamed : unconnected.All GraphData.Named :=
    GraphData.named_of_functionless _ ⟨by decide, by decide⟩ rfl
  have hagrees : ∀ d ∈ unconnected.nodes, d.guid = source.guid →
      (Registry.builtin.resolve d).descriptor.AgreesOn source.port := by
    unfold NodeDescriptor.AgreesOn
    decide +kernel
  cases hconnect : ((ofData .builtin unconnected default).1.connect source target default).1 with
  | error e =>
    have hok : (connecting .builtin unconnected source target).isSome = true := by decide +kernel
    unfold connecting at hok
    rw [hconnect] at hok
    cases hok
  | ok g =>
    exact ⟨hnamed, hagrees, g, rfl, compiledView_connected .builtin unconnected hnamed source target
      default default g hconnect hagrees .standard default default default⟩

/-- A type with an output and an array output of one name. -/
def shadowed : NodeType :=
  Builtin.dependency "Test" "Shadowed" "Shadowed" .value "Declares an output twice"
    [.output "x" .int, (PortDescriptor.output "x" .int).asArray] (.plain .add)

/-- A node of that type and one that takes a number. -/
def shadowing : GraphData where
  name := "shadowing"
  nodes := [{ guid := "two", type := "Test.Shadowed" }, { guid := "sum", type := "Ceres.Math.Add" }]

/-- The second slot of the array output is connected to the number.  A live output is not laid out
    anew, since the first one of its name is no array; so the slot is not there, and the number is
    not linked.  Hydrating has a slot for every record. -/
theorem connected_shadows :
    let registry := Registry.builtin.register shadowed
    let source : SlotRef := ⟨"two", "x", 1⟩
    let target : SlotRef := ⟨"sum", "a", 0⟩
    shadowing.All GraphData.Named ∧
      ∃ g, ((ofData registry shadowing default).1.connect source target default).1 = .ok g ∧
        (ofData registry (shadowing.connect source target).1 default).1.compiledView .standard
            default
          ≠ g.compiledView .standard default := by
  intro registry source target
  refine ⟨GraphData.named_of_functionless _ ⟨by decide, by decide⟩ rfl, ?_⟩
  -- the slots of the nodes, once compiled
  have hlive : (connecting registry shadowing source target).map
      (fun g => (g.compiledView .standard default).toOption.map slotNames)
      = some (some [[("x", 0)], [("a", 0), ("b", 0), ("result", 0)]]) := by
    decide +kernel
  have hsaved : ((ofData registry (shadowing.connect source target).1 default).1.compiledView
      .standard default).toOption.map slotNames
      = some [[("x", 0), ("x", 0), ("x", 1)], [("a", 0), ("b", 0), ("result", 0)]] := by
    decide +kernel
  unfold connecting at hlive
  cases hconnect : ((ofData registry shadowing default).1.connect source target default).1 with
  | error e =>
    rw [hconnect] at hlive
    cases hlive
  | ok g =>
    rw [hconnect] at hlive
    have hseen : (g.compiledView .standard default).toOption.map slotNames
        = some [[("x", 0)], [("a", 0), ("b", 0), ("result", 0)]] := Option.some.inj hlive
    refine ⟨g, rfl, fun hsame => ?_⟩
    rw [hsame, hseen] at hsaved
    revert hsaved
    decide

end Graph

end FlowGraph
