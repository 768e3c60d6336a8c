import FlowGraph.Proofs.Graph.Loading

/-! # What edits do to records

    Records of a node are added to, or lose connections.  Where a connection is recorded or
    a constant is set, the node has the slots that its records ask for afterwards, whether
    it was laid out anew or not (`Network.Rerecorded`): an edit lays a node out only if it
    can gain a slot.

    Of all edits only recording a connection adds one, and it opens the slot that the
    connection leads to (`Graph.connect_rerecords`). -/

namespace FlowGraph

/-! ## Section 1: Records and the slots that they ask for -/

namespace Layout

/-- A slot of an array port is one that a record asks for, or lies below such a one. -/
theorem exists_of_lt_extent (records : List PortData) (name : String) (i : Nat)
    (hi : i < extent records name) :
    ∃ r ∈ records, r.name = name ∧ r.index < maxArraySlots ∧ i ≤ r.index := by
  have hfold : ∀ n, i < records.foldl (widen name) n →
      i < n ∨ ∃ r ∈ records, r.name = name ∧ r.index < maxArraySlots ∧ i ≤ r.index := by
    clear hi
    induction records with
    | nil => exact fun n hn => .inl hn
    | cons first rest ih =>
      intro n hn
      rcases ih _ hn with hlt | ⟨r, hr, hasks⟩
      · unfold widen at hlt
        split at hlt
        · rename_i hfirst
          simp only [Bool.and_eq_true, decide_eq_true_eq] at hfirst
          rcases lt_max_iff.mp hlt with hlt | hlt
          · exact .inl hlt
          · exact .inr ⟨first, List.mem_cons_self, hfirst.1, hfirst.2, Nat.le_of_lt_succ hlt⟩
        · exact .inl hlt
      · exact .inr ⟨r, List.mem_cons_of_mem first hr, hasks⟩
  rcases hfold 0 hi with hnone | hsome
  · cases hnone
  · exact hsome

/-- Every slot that the first records are of, the second ones are of. -/
def Covers (records more : List PortData) : Prop :=
  ∀ r ∈ records, ∃ r' ∈ more, r'.name = r.name ∧ r'.index = r.index

theorem Covers.of_subset {records more : List PortData} (h : records ⊆ more) :
    Covers records more := fun r hr => ⟨r, h hr, rfl, rfl⟩

theorem Covers.trans {records more most : List PortData} (h : Covers records more)
    (h' : Covers more most) : Covers records most := by
  intro r hr
  obtain ⟨r', hr', hname, hindex⟩ := h r hr
  obtain ⟨r'', hr'', hname', hindex'⟩ := h' r' hr'
  exact ⟨r'', hr'', hname'.trans hname, hindex'.trans hindex⟩

theorem Covers.extent_le {records more : List PortData} (h : Covers records more) (name : String) :
    extent records name ≤ extent more name := by
  by_contra hlt
  obtain ⟨r, hr, rfl, hindex, hle⟩ := exists_of_lt_extent records name _ (Nat.lt_of_not_le hlt)
  obtain ⟨r', hr', hname, hindex'⟩ := h r hr
  have hslot := lt_extent more r' hr' (hindex'.trans_lt hindex)
  rw [hname, hindex'] at hslot
  exact absurd (hslot.trans_le hle) (lt_irrefl _)

theorem HasSlot.covers {records more : List PortData} {d : PortDescriptor} {index : Nat}
    (h : HasSlot records d index) (hcovers : Covers records more) : HasSlot more d index := by
  unfold HasSlot at h ⊢
  split at h
  · rename_i harray
    rw [if_pos harray]
    exact h.trans_le (hcovers.extent_le d.name)
  · rename_i harray
    rw [if_neg harray]
    exact h

/-- Only how far the array ports reach matters for the slots. -/
theorem portsOf_congr (records more : List PortData) (ports : List PortDescriptor)
    (h : ∀ d ∈ ports, d.array = true → extent more d.name = extent records d.name) :
    portsOf more ports = portsOf records ports := by
  induction ports with
  | nil => rfl
  | cons d rest ih =>
    have hsize : (if d.array then extent more d.name else 1)
        = if d.array then extent records d.name else 1 := by
      split
      · rename_i harray
        exact h d List.mem_cons_self harray
      · rfl
    rw [portsOf_cons, portsOf_cons, hsize,
      ih fun e he => h e (List.mem_cons_of_mem d he)]

/-- Records that stay those of their slots ask for the same slots. -/
theorem portsOf_map (keep : PortData → PortData)
    (hkeep : ∀ r, (keep r).name = r.name ∧ (keep r).index = r.index) (records : List PortData)
    (ports : List PortDescriptor) : portsOf (records.map keep) ports = portsOf records ports := by
  have hcovers : Covers records (records.map keep) := fun r hr =>
    ⟨keep r, List.mem_map_of_mem hr, hkeep r⟩
  have hcovers' : Covers (records.map keep) records := by
    intro r' hr'
    obtain ⟨r, hr, rfl⟩ := List.mem_map.mp hr'
    exact ⟨r, hr, (hkeep r).1.symm, (hkeep r).2.symm⟩
  exact portsOf_congr _ _ _ fun d _ _ =>
    le_antisymm (hcovers'.extent_le d.name) (hcovers.extent_le d.name)

end Layout

/-- Records are added to: slots stay, and connections are those of before and some new ones. -/
structure AddsTo (news : List PortConnection) (records more : List PortData) : Prop where
  covers : Layout.Covers records more
  connections : ∀ r ∈ more, ∀ c ∈ r.connections, (∃ r ∈ records, c ∈ r.connections) ∨ c ∈ news

namespace AddsTo

variable {news news' : List PortConnection} {records more most : List PortData}

theorem refl (records : List PortData) : AddsTo news records records :=
  ⟨.of_subset fun _ hr => hr, fun r hr _ hc => .inl ⟨r, hr, hc⟩⟩

theorem trans (h : AddsTo news records more) (h' : AddsTo news' more most) :
    AddsTo (news ++ news') records most := by
  refine ⟨h.covers.trans h'.covers, fun r hr c hc => ?_⟩
  rcases h'.connections r hr c hc with ⟨r', hr', hc'⟩ | hnew
  · rcases h.connections r' hr' c hc' with hold | hnew
    · exact .inl hold
    · exact .inr (List.mem_append_left _ hnew)
  · exact .inr (List.mem_append_right _ hnew)

theorem append (records opened : List PortData) (hopened : ∀ r ∈ opened, r.connections = []) :
    AddsTo [] records (records ++ opened) := by
  refine ⟨.of_subset (List.subset_append_left _ _), fun r hr c hc => .inl ⟨r, ?_, hc⟩⟩
  exact mem_of_connected r hr hopened (List.ne_nil_of_mem hc)

end AddsTo

/-! ### Changing the record of a slot -/

theorem mem_modifyRecord (name : String) (index : Nat) (f : PortData → PortData)
    (records : List PortData) (r' : PortData)
    (hr' : r' ∈ NodeData.modifyRecord name index f records) :
    r' ∈ records ∨ ∃ r, r.name = name ∧ r.index = index ∧
      (r ∈ records ∨ r = { name, index }) ∧ r' = f r := by
  induction records with
  | nil => exact .inr ⟨{ name, index }, rfl, rfl, .inr rfl, List.mem_singleton.mp hr'⟩
  | cons first rest ih =>
    unfold NodeData.modifyRecord at hr'
    split at hr'
    · rename_i hfor
      simp only [PortData.isFor, Bool.and_eq_true, decide_eq_true_eq] at hfor
      rcases List.mem_cons.mp hr' with rfl | hrest
      · exact .inr ⟨first, hfor.1, hfor.2, .inl List.mem_cons_self, rfl⟩
      · exact .inl (List.mem_cons_of_mem first hrest)
    · rcases List.mem_cons.mp hr' with rfl | hrest
      · exact .inl List.mem_cons_self
      · rcases ih hrest with hold | ⟨r, hname, hindex, hr | hr, heq⟩
        · exact .inl (List.mem_cons_of_mem first hold)
        · exact .inr ⟨r, hname, hindex, .inl (List.mem_cons_of_mem first hr), heq⟩
        · exact .inr ⟨r, hname, hindex, .inr hr, heq⟩

/-- A connection is added to the record of the same slot. -/
theorem addConnection_named (c : PortConnection) (r : PortData) :
    (Graph.addConnection c r).name = r.name ∧ (Graph.addConnection c r).index = r.index := by
  unfold Graph.addConnection
  split
  · exact ⟨rfl, rfl⟩
  · exact ⟨rfl, rfl⟩

section ModifyRecord

variable (name : String) (index : Nat) (f : PortData → PortData)
  (hf : ∀ r, (f r).name = r.name ∧ (f r).index = r.index)

include hf

theorem covers_modifyRecord (records : List PortData) :
    Layout.Covers records (NodeData.modifyRecord name index f records) := by
  induction records with
  | nil =>
    intro r hr
    cases hr
  | cons first rest ih =>
    intro r hr
    unfold NodeData.modifyRecord
    split
    · rcases List.mem_cons.mp hr with rfl | hr
      · exact ⟨f r, List.mem_cons_self, (hf r).1, (hf r).2⟩
      · exact ⟨r, List.mem_cons_of_mem _ hr, rfl, rfl⟩
    · rcases List.mem_cons.mp hr with rfl | hr
      · exact ⟨r, List.mem_cons_self, rfl, rfl⟩
      · obtain ⟨r', hr', hsame⟩ := ih r hr
        exact ⟨r', List.mem_cons_of_mem _ hr', hsame⟩

theorem modifyRecord_addsTo (news : List PortConnection)
    (hnews : ∀ r, ∀ c ∈ (f r).connections, c ∈ r.connections ∨ c ∈ news)
    (records : List PortData) :
    AddsTo news records (NodeData.modifyRecord name index f records) := by
  refine ⟨covers_modifyRecord name index f hf records, fun r' hr' c hc => ?_⟩
  rcases mem_modifyRecord name index f records r' hr' with hold | ⟨r, _, _, hr, rfl⟩
  · exact .inl ⟨r', hold, hc⟩
  · rcases hnews r c hc with hold | hnew
    · rcases hr with hr | rfl
      · exact .inl ⟨r, hr, hold⟩
      · cases hold
    · exact .inr hnew

/-- The record of a slot that is there, or of a port that is no array, opens no slot. -/
theorem portsOf_modifyRecord (records : List PortData) (ports : List PortDescriptor)
    (hslot : ∀ d ∈ ports, d.name = name → d.array = true → Layout.HasSlot records d index) :
    Layout.portsOf (NodeData.modifyRecord name index f records) ports
      = Layout.portsOf records ports := by
  refine Layout.portsOf_congr _ _ _ fun d hd harray => ?_
  refine le_antisymm ?_ ((covers_modifyRecord name index f hf records).extent_le d.name)
  by_contra hlt
  obtain ⟨r', hr', hname, hindex, hle⟩ :=
    Layout.exists_of_lt_extent _ _ _ (Nat.lt_of_not_le hlt)
  rcases mem_modifyRecord name index f records r' hr' with hold | ⟨r, rfl, rfl, _, rfl⟩
  · have hin := Layout.lt_extent records r' hold hindex
    rw [hname] at hin
    omega
  · -- the record that was changed is of a slot that was there
    have hin := hslot d hd (hname.symm.trans (hf r).1) harray
    unfold Layout.HasSlot at hin
    rw [if_pos harray] at hin
    rw [(hf r).2] at hle
    omega

end ModifyRecord

/-- A node declares the port of the record, which is no array or has the slot. -/
theorem GraphNode.portsOf_modifyRecord (x : GraphNode)
    (hnames : (x.descriptor.ports.map (·.name)).Nodup) (name : String) (index : Nat)
    (f : PortData → PortData) (hf : ∀ r, (f r).name = r.name ∧ (f r).index = r.index)
    (d : PortDescriptor) (hd : x.descriptor.port? name = some d)
    (hslot : d.array = true → Layout.HasSlot x.records d index) :
    Layout.portsOf (NodeData.modifyRecord name index f x.records) x.descriptor.ports
      = Layout.portsOf x.records x.descriptor.ports := by
  refine FlowGraph.portsOf_modifyRecord name index f hf _ _ fun e he hname harray => ?_
  -- no other port has its name
  have hdname : d.name = name := NodeDescriptor.name_of_port? hd
  obtain rfl := List.inj_on_of_nodup_map hnames he (List.mem_of_find?_eq_some hd)
    (hname.trans hdname.symm)
  exact hslot harray

/-! ## Section 2: Networks whose records were changed -/

namespace Network

variable {n m l : Network} {news news' : List PortConnection}

/-- Every node has the slots that its records ask for, and no two ports of one name. -/
def Arranged (n : Network) : Prop :=
  ∀ h x, n.node? h = some x → x.LaidOut ∧ (x.descriptor.ports.map (·.name)).Nodup

/-- Every node is one of before whose records were added to, with the slots that these ask for. -/
def Rerecorded (news : List PortConnection) (n m : Network) : Prop :=
  ∀ h y, m.node? h = some y → ∃ x records, n.node? h = some x ∧ AddsTo news x.records records ∧
    y = ({ x with records } : GraphNode).laidOut

theorem Arranged.rerecorded (hn : n.Arranged) (hm : n.Rerecorded news m) : m.Arranged := by
  intro h y hy
  obtain ⟨x, records, hx, _, rfl⟩ := hm h y hy
  exact ⟨rfl, (hn h x hx).2⟩

theorem Distinct.rerecorded (hn : n.Distinct) (hm : n.Rerecorded news m) : m.Distinct := by
  intro h k y z hy hz hguid
  obtain ⟨x, _, hx, _, rfl⟩ := hm h y hy
  obtain ⟨w, _, hw, _, rfl⟩ := hm k z hz
  exact hn h k x w hx hw hguid

theorem Rerecorded.trans (h : n.Rerecorded news m) (h' : m.Rerecorded news' l) :
    n.Rerecorded (news ++ news') l := by
  intro k z hz
  obtain ⟨y, records', hy, hadds', rfl⟩ := h' k z hz
  obtain ⟨x, records, hx, hadds, rfl⟩ := h k y hy
  exact ⟨x, records', hx, hadds.trans hadds', rfl⟩

theorem Rerecorded.of_differs {f : NodeHandle → GraphNode → GraphNode} (h : n.Differs m f)
    (hf : ∀ k x, n.node? k = some x → ∃ records, AddsTo news x.records records ∧
      f k x = ({ x with records } : GraphNode).laidOut) : n.Rerecorded news m := by
  intro k y hy
  rw [h.node] at hy
  obtain ⟨x, hx, rfl⟩ := Option.map_eq_some_iff.mp hy
  obtain ⟨records, hadds, heq⟩ := hf k x hx
  exact ⟨x, records, hx, hadds, heq⟩

/-- One node is changed, and the others stay as they are. -/
theorem Rerecorded.of_modify {f : GraphNode → GraphNode} {h : NodeHandle} (hn : n.Arranged)
    (hm : n.Differs m fun k x => if k = h then f x else x)
    (hf : ∀ x, n.node? h = some x → ∃ records, AddsTo news x.records records ∧
      f x = ({ x with records } : GraphNode).laidOut) : n.Rerecorded news m := by
  refine .of_differs hm fun k x hx => ?_
  by_cases hk : k = h
  · rw [if_pos hk]
    exact hf x (hk ▸ hx)
  · rw [if_neg hk]
    exact ⟨x.records, .refl _, (hn k x hx).1.laidOut_eq.symm⟩

/-- The nodes may stay as they are. -/
theorem Rerecorded.of_same (hn : n.Arranged) (hm : ∀ h, m.node? h = n.node? h) :
    n.Rerecorded [] m := by
  intro k x hx
  rw [hm] at hx
  exact ⟨x, x.records, hx, .refl _, (hn k x hx).1.laidOut_eq.symm⟩

/-- The slot that a connection leads to is there, if it is one of an array port, below the
    limit, and the node declares no name twice. -/
def OpenFor (n : Network) (c : PortConnection) : Prop :=
  ∀ k y, n.node? k = some y → y.guid = c.nodeGuid → (y.descriptor.ports.map (·.name)).Nodup →
    c.portIndex < maxArraySlots → ∀ d, y.descriptor.port? c.portName = some d → d.array = true →
      Layout.HasSlot y.records d c.portIndex

/-- Slots that were there stay. -/
theorem OpenFor.rerecorded {c : PortConnection} (hn : n.OpenFor c) (hm : n.Rerecorded news m) :
    m.OpenFor c := by
  intro k y hy hguid hnames hindex d hd harray
  obtain ⟨x, records, hx, hadds, rfl⟩ := hm k y hy
  exact (hn k x hx hguid hnames hindex d hd harray).covers hadds.covers

/-- If the slots of new connections were opened, all slots are. -/
theorem Opened.rerecorded (hn : n.Opened) (hm : n.Rerecorded news m)
    (hnews : ∀ c ∈ news, m.OpenFor c) : m.Opened := by
  intro h y hy r hr c hc
  obtain ⟨x, records, hx, hadds, rfl⟩ := hm h y hy
  rcases hadds.connections r hr c hc with ⟨r', hr', hc'⟩ | hnew
  · have hopen : n.OpenFor c := hn h x hx r' hr' c hc'
    exact hopen.rerecorded hm
  · exact hnews c hnew

end Network

/-! ## Section 3: Edits of records -/

namespace Graph

open Network

/-- Records of a node are changed, and then it is laid out anew. -/
theorem differs_layOut (g : Graph) (h : NodeHandle) (f : List PortData → List PortData)
    (s : Store) : g.toNetwork.Differs ((g.modifyRecords h f).layOut h s).1.toNetwork
      fun k x => if k = h then ({ x with records := f x.records } : GraphNode).laidOut else x := by
  have hlaid : (g.modifyRecords h f).toNetwork.Differs
      ((g.modifyRecords h f).layOut h s).1.toNetwork
      fun k x => if k = h then x.laidOut else x := by
    rw [layOut_graph]
    exact (g.modifyRecords h f).differs_modify h GraphNode.laidOut
  have hboth := (g.differs_modifyRecords h f).trans hlaid
  refine ⟨hboth.order, fun k => (hboth.node k).trans ?_⟩
  by_cases hk : k = h
  · simp only [if_pos hk]
  · simp only [if_neg hk]

theorem node?_layOut_self (g : Graph) (h : NodeHandle) (f : List PortData → List PortData)
    (s : Store) (x : GraphNode) (hx : g.node? h = some x) :
    ((g.modifyRecords h f).layOut h s).1.node? h
      = some ({ x with records := f x.records } : GraphNode).laidOut := by
  rw [(g.differs_layOut h f s).node, hx, Option.map_some, if_pos rfl]

theorem rerecorded_layOut (g : Graph) (h : NodeHandle) (f : List PortData → List PortData)
    (s : Store) (hg : g.toNetwork.Arranged) (news : List PortConnection)
    (hf : ∀ records, AddsTo news records (f records)) :
    Rerecorded news g.toNetwork ((g.modifyRecords h f).layOut h s).1.toNetwork :=
  .of_modify hg (g.differs_layOut h f s) fun x _ => ⟨f x.records, hf _, rfl⟩

/-- Records of a node are changed that ask for no other slots. -/
theorem rerecorded_modifyRecords (g : Graph) (h : NodeHandle)
    (f : List PortData → List PortData) (hg : g.toNetwork.Arranged) (news : List PortConnection)
    (hf : ∀ records, AddsTo news records (f records))
    (hports : ∀ x, g.node? h = some x → Layout.portsOf (f x.records) x.descriptor.ports
      = Layout.portsOf x.records x.descriptor.ports) :
    Rerecorded news g.toNetwork (g.modifyRecords h f).toNetwork := by
  refine .of_modify hg (g.differs_modifyRecords h f) fun x hx => ⟨f x.records, hf _, ?_⟩
  have hlaid : ({ x with records := f x.records } : GraphNode).LaidOut :=
    (hg h x hx).1.trans (hports x hx).symm
  exact hlaid.laidOut_eq.symm

/-- Opening a slot records it, if the node lacks it, and the slot is there then. -/
theorem openSlot_rerecords (g : Graph) (target : SlotRef) (s : Store)
    (hg : g.toNetwork.Arranged) (hdistinct : g.toNetwork.Distinct) :
    Rerecorded [] g.toNetwork (g.openSlot target s).1.toNetwork ∧
      (g.openSlot target s).1.toNetwork.OpenFor ⟨target.guid, target.port, target.index⟩ := by
  rcases g.openSlot_cases target s with ⟨heq, hthere⟩ | ⟨h, x, hh, _, _, _, heq⟩
  · rw [heq]
    refine ⟨.of_same hg fun _ => rfl, fun k y hy hguid hnames _ d hd harray => ?_⟩
    have hk := hdistinct.handleOf k y hy
    rw [show y.guid = target.guid from hguid] at hk
    obtain ⟨p, hp⟩ := Option.isSome_iff_exists.mp
      (hthere k y hk hy ((y.descriptor.isArray_eq_true_iff _).mpr ⟨d, hd, harray⟩))
    exact GraphNode.hasSlot_of_port? (hg k y hy).1 hnames _ _ p hp d hd
  · rw [heq]
    have hadds : ∀ records, AddsTo [] records
        (records ++ [{ name := target.port, index := target.index }]) := fun records =>
      .append records _ fun r hr => by rw [List.mem_singleton.mp hr]
    refine ⟨g.rerecorded_layOut h _ s hg [] hadds, fun k y hy hguid _ hindex d hd harray => ?_⟩
    rw [(g.differs_layOut h _ s).node] at hy
    obtain ⟨z, hz, rfl⟩ := Option.map_eq_some_iff.mp hy
    by_cases hk : k = h
    · rw [if_pos hk] at hd ⊢
      -- the slot was recorded
      exact Layout.hasSlot_of_mem harray { name := target.port, index := target.index }
        (List.mem_append_right z.records (List.mem_singleton_self _))
        (NodeDescriptor.name_of_port? hd).symm hindex
    · rw [if_neg hk] at hguid
      have hsame := hdistinct.handleOf k z hz
      rw [show z.guid = target.guid from hguid, hh] at hsame
      exact absurd (Option.some.inj hsame).symm hk

theorem connectionRecord_addsTo (source target : SlotRef) (records : List PortData) :
    AddsTo [⟨target.guid, target.port, target.index⟩] records
      (connectionRecord source target records) := by
  refine modifyRecord_addsTo _ _ _ (addConnection_named _) _ (fun r c hc => ?_) records
  unfold addConnection at hc
  split at hc
  · exact .inl hc
  · exact List.mem_append.mp hc

theorem recordConnection_rerecords (g : Graph) (source target : SlotRef) (h : NodeHandle)
    (x : GraphNode) (d : PortDescriptor) (s : Store) (hg : g.toNetwork.Arranged)
    (hc : g.Connects source target h x d) :
    Rerecorded [⟨target.guid, target.port, target.index⟩] g.toNetwork
      (g.recordConnection h d source target s).1.toNetwork := by
  have hadds := connectionRecord_addsTo source target
  unfold recordConnection
  cases harray : d.array with
  | true => exact g.rerecorded_layOut h _ s hg _ hadds
  | false =>
    refine g.rerecorded_modifyRecords h _ hg _ hadds fun y hy => ?_
    rw [hc.node] at hy
    cases hy
    exact GraphNode.portsOf_modifyRecord x (hg h x hc.node).2 _ _ _ (addConnection_named _) d hc.port
      fun h => absurd (harray.symm.trans h) (by decide)

/-- A connection is recorded at an output, and its slot is opened. -/
theorem connect_rerecords (g : Graph) (source target : SlotRef) (s : Store) (g' : Graph)
    (hg : g.toNetwork.Arranged) (hdistinct : g.toNetwork.Distinct)
    (hconnect : (g.connect source target s).1 = .ok g') :
    Rerecorded [⟨target.guid, target.port, target.index⟩] g.toNetwork g'.toNetwork ∧
      g'.toNetwork.OpenFor ⟨target.guid, target.port, target.index⟩ := by
  obtain ⟨h, x, d, hc, rfl⟩ := g.exists_of_connect source target s g' hconnect
  have hrecorded := g.recordConnection_rerecords source target h x d s hg hc
  obtain ⟨hopened, hopen⟩ := openSlot_rerecords _ target (g.recordConnection h d source target s).2
    (hg.rerecorded hrecorded) (hdistinct.rerecorded hrecorded)
  exact ⟨hrecorded.trans hopened, hopen⟩

/-- A constant is recorded, and its slot is there then. -/
theorem setConstant_rerecords (g : Graph) (slot : SlotRef) (v : Value) (s : Store)
    (hg : g.toNetwork.Arranged) :
    Rerecorded [] g.toNetwork (g.setConstant slot v s).1.1.toNetwork := by
  have hnamed : ∀ r : PortData, ({ r with value := some v.toJson } : PortData).name = r.name ∧
      ({ r with value := some v.toJson } : PortData).index = r.index := fun _ => ⟨rfl, rfl⟩
  have hadds : ∀ records, AddsTo [] records (constantRecord slot v records) :=
    modifyRecord_addsTo _ _ _ hnamed _ fun _ _ hc => .inl hc
  rcases g.setConstant_eq slot v s with ⟨e, heq⟩ | ⟨h, x, d, _, hx, hd, hresult⟩
  · rw [heq]
    exact .of_same hg fun _ => rfl
  · obtain ⟨hlaid, hnames⟩ := hg h x hx
    -- where the slot is there, or the port is no array, the slots stay
    have hsame : (d.array = true → Layout.HasSlot x.records d slot.index) →
        g.toNetwork.Rerecorded [] (g.modifyRecords h (constantRecord slot v)).toNetwork := by
      intro hslot
      refine g.rerecorded_modifyRecords h _ hg [] hadds fun y hy => ?_
      rw [hx] at hy
      cases hy
      exact x.portsOf_modifyRecord hnames _ _ _ hnamed d hd hslot
    rcases hresult with ⟨i, hi, heq⟩ | ⟨_, _, heq⟩ | ⟨_, hscalar, e, heq⟩
    · rw [heq]
      refine hsame fun _ => ?_
      have hlt := (List.findIdx?_eq_some_iff_getElem.mp hi).1
      have hp := (x.port?_eq_some_iff slot.port slot.index x.ports[i]).mpr
        ⟨i, hi, List.getElem?_eq_getElem hlt⟩
      exact GraphNode.hasSlot_of_port? hlaid hnames _ _ _ hp d hd
    · rw [heq]
      exact g.rerecorded_layOut h _ s hg [] hadds
    · rw [heq]
      exact hsame fun h => absurd (hscalar.symm.trans h) (by decide)

/-- Slots of incoming connections are recorded, where nodes lack them. -/
theorem addIncomingSlots_rerecords (g : Graph) (s : Store) (hg : g.toNetwork.Arranged) :
    Rerecorded [] g.toNetwork (g.addIncomingSlots s).1.toNetwork := by
  refine .of_differs (g.differs_addIncomingSlots s fun h x hx => (hg h x hx).1) fun h x _ => ?_
  obtain ⟨opened, hopened, hempty⟩ := withSlots_eq_append g.lacking h x.records
  exact ⟨_, hopened ▸ .append x.records opened hempty, rfl⟩

/-- Records lose the connections to a node that is removed, and the other nodes stay. -/
theorem removeNode_rerecords (g : Graph) (vs : Variables) (h : NodeHandle)
    (hg : g.toNetwork.Arranged) :
    Rerecorded [] g.toNetwork (g.removeNode vs h).2.toNetwork := by
  unfold removeNode
  cases hr : g.nodes.remove h with
  | none => exact .of_same hg fun _ => rfl
  | some r =>
    obtain ⟨removed, nodes⟩ := r
    obtain ⟨keep, hkeep⟩ : ∃ keep : PortData → PortData, keep = fun r =>
        { r with connections := r.connections.filter (·.nodeGuid ≠ removed.guid) } := ⟨_, rfl⟩
    intro k y hy
    have hy' : (nodes.map fun n => { n with records := n.records.map keep }).get? k = some y := by
      rw [hkeep]
      exact hy
    rw [Arena.get?_map, (Arena.get?_remove g.nodes nodes h k removed hr).2] at hy'
    obtain ⟨x, hx, rfl⟩ := Option.map_eq_some_iff.mp hy'
    have hlive : g.node? k = some x := by
      split at hx
      · cases hx
      · exact hx
    have hsame : ∀ r : PortData, (keep r).name = r.name ∧ (keep r).index = r.index := by
      rw [hkeep]
      exact fun _ => ⟨rfl, rfl⟩
    have hcovers : Layout.Covers x.records (x.records.map keep) := fun r hr =>
      ⟨keep r, List.mem_map_of_mem hr, hsame r⟩
    refine ⟨x, x.records.map keep, hlive, ⟨hcovers, fun r' hr' c hc => ?_⟩, ?_⟩
    · obtain ⟨r, hr, rfl⟩ := List.mem_map.mp hr'
      rw [hkeep] at hc
      exact .inl ⟨r, hr, (List.mem_filter.mp hc).1⟩
    · -- the records are of the same slots
      have hlaid : ({ x with records := x.records.map keep } : GraphNode).LaidOut :=
        (hg k x hlive).1.trans (Layout.portsOf_map keep hsame x.records x.descriptor.ports).symm
      exact hlaid.laidOut_eq.symm

end Graph

end FlowGraph
