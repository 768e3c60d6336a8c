import FlowGraph.Proofs.Graph.Records
import FlowGraph.Proofs.Graph.Saving

/-! # Graphs that are edited

    A graph is made empty or hydrated, and then edited: nodes are added and removed,
    connections and constants are recorded, groups and other edited graphs are added
    (`Graph.Edited`).  Guids that are made are new, and no type is redirected.

    Then guids stay distinct, and every node has the slots of its records and is one that the
    registry resolved (`Network.Tidy`).  If no node is added whose connections lead to slots
    that are not there, then all connections have their slots (`Edited.tidy`). -/

namespace FlowGraph

/-! ## Section 1: Made guids -/

theorem GraphError.number_inj {i j : Nat} (h : number i = number j) : i = j := by
  unfold number at h
  have hdigits := congrArg (Nat.ofDigitChars 10 · 0) (String.ofList_injective h)
  simpa using hdigits

/-- A guid is made once. -/
theorem Store.unmade_freshGuid (s : Store) : s.freshGuid.2.Unmade [s.freshGuid.1] := by
  intro t ht hmem
  have htext : "fresh-" ++ GraphError.number (t.guidsMade + 1)
      = "fresh-" ++ GraphError.number (s.guidsMade + 1) := List.mem_singleton.mp hmem
  have hlists := congrArg String.toList htext
  rw [String.toList_append, String.toList_append] at hlists
  have hsame := GraphError.number_inj (String.toList_injective (List.append_cancel_left hlists))
  have hlater : s.guidsMade + 1 ≤ t.guidsMade := ht
  omega

theorem Store.freshGuid_ne_empty (s : Store) : s.freshGuid.1 ≠ "" := by
  intro h
  have hlength := congrArg String.length h
  unfold freshGuid at hlength
  rw [String.length_append] at hlength
  simp at hlength

/-- None of the guids of the nodes is made from here on. -/
def Network.Guarded (n : Network) (s : Store) : Prop :=
  ∀ h x, n.node? h = some x → s.Unmade [x.guid]

theorem Network.Guarded.later {n : Network} {s t : Store} (hn : n.Guarded s)
    (hst : s.guidsMade ≤ t.guidsMade) : n.Guarded t :=
  fun h x hx => (hn h x hx).later hst

theorem Network.Guarded.rerecorded {n m : Network} {news : List PortConnection} {s : Store}
    (hn : n.Guarded s) (hm : n.Rerecorded news m) : m.Guarded s := by
  intro h y hy
  obtain ⟨x, _, hx, _, rfl⟩ := hm h y hy
  exact hn h x hx

/-! ## Section 2: Tidy networks -/

/-- Up to its guid, the node is what a saved one was resolved to, without a redirect. -/
def GraphNode.Resolved (registry : Registry) (x : GraphNode) : Prop :=
  ∃ d vs, ({ x with guid := d.guid } : GraphNode).Restores registry vs d ∧
    (registry.resolve d).redirectedFrom = none

/-- What holds of the networks of edited graphs. -/
structure Network.Tidy (registry : Registry) (n : Network) : Prop where
  consistent : n.Consistent
  distinct : n.Distinct
  arranged : n.Arranged
  named : ∀ h x, n.node? h = some x → x.guid ≠ ""
  resolved : ∀ h x, n.node? h = some x → x.Resolved registry
  paths : n.paths = none

namespace Network

variable {registry : Registry} {n m : Network}

theorem Tidy.rerecorded {news : List PortConnection} (hn : n.Tidy registry)
    (hm : n.Rerecorded news m) (hconsistent : m.Consistent) (hpaths : m.paths = none) :
    m.Tidy registry := by
  refine ⟨hconsistent, hn.distinct.rerecorded hm, hn.arranged.rerecorded hm, fun h y hy => ?_,
    fun h y hy => ?_, hpaths⟩
  · obtain ⟨x, _, hx, _, rfl⟩ := hm h y hy
    exact hn.named h x hx
  · obtain ⟨x, records, hx, _, rfl⟩ := hm h y hy
    obtain ⟨d, vs, hrestores, hkept⟩ := hn.resolved h x hx
    exact ⟨d, vs, hrestores.laidOut records, hkept⟩

/-- A new node with a guid of its own. -/
theorem Tidy.insert (hn : n.Tidy registry) (h : NodeHandle) (y : GraphNode)
    (hm : ∀ k, m.node? k = if k = h then some y else n.node? k)
    (hnew : n.handleOf y.guid = none) (hnamed : y.guid ≠ "") (hlaid : y.LaidOut)
    (hnames : (y.descriptor.ports.map (·.name)).Nodup) (hresolved : y.Resolved registry)
    (hconsistent : m.Consistent) (hpaths : m.paths = none) : m.Tidy registry := by
  -- a property of all nodes holds of the new one and of the others
  have hall : ∀ P : GraphNode → Prop, P y → (∀ k x, n.node? k = some x → P x) →
      ∀ k x, m.node? k = some x → P x := by
    intro P hy hold k x hx
    rw [hm] at hx
    split at hx
    · cases hx
      exact hy
    · exact hold k x hx
  have hother : ∀ k x, n.node? k = some x → x.guid ≠ y.guid := by
    intro k x hx hguid
    obtain ⟨j, hj⟩ := n.exists_handleOf k x hx
    rw [hguid, hnew] at hj
    cases hj
  refine ⟨hconsistent, fun j k x z hx hz hguid => ?_, hall _ ⟨hlaid, hnames⟩ hn.arranged,
    hall _ hnamed hn.named, hall _ hresolved hn.resolved, hpaths⟩
  rw [hm] at hx hz
  by_cases hj : j = h
  · by_cases hk : k = h
    · rw [hj, hk]
    · rw [if_pos hj] at hx
      rw [if_neg hk] at hz
      cases hx
      exact absurd hguid.symm (hother k z hz)
  · rw [if_neg hj] at hx
    by_cases hk : k = h
    · rw [if_pos hk] at hz
      cases hz
      exact absurd hguid (hother j x hx)
    · rw [if_neg hk] at hz
      exact hn.distinct j k x z hx hz hguid

end Network

/-! ## Section 3: Adding nodes -/

/-- No saved node is of a redirected type. -/
def GraphData.Unredirected (registry : Registry) (data : GraphData) : Prop :=
  ∀ d ∈ data.nodes, (registry.resolve d).redirectedFrom = none

namespace Graph

open Network

/-- The node that is inserted has a guid of its own, that is not made again. -/
theorem insert_guarded (g : Graph) (x : GraphNode) (s : Store) (hg : g.toNetwork.Sound)
    (hguarded : g.toNetwork.Guarded s) (hunmade : s.Unmade [x.guid]) :
    ∃ h guid, (∀ k, (g.insert x s).1.2.node? k
        = if k = h then some { x with guid } else g.node? k) ∧
      g.handleOf guid = none ∧ guid ≠ "" ∧
      (g.insert x s).1.2.toNetwork.Guarded (g.insert x s).2 := by
  obtain ⟨hnodes, _, hmade⟩ := g.insert_ensured x s
  have hget := fun k => hg.node?_insert (g.ensureGuid x s).1 hnodes k
  -- what was there keeps its guids, which are not made
  have hnode : ∀ guid, (g.ensureGuid x s).1 = { x with guid } → g.handleOf guid = none →
      guid ≠ "" → (g.insert x s).2.Unmade [guid] →
      ∃ h guid, (∀ k, (g.insert x s).1.2.node? k
          = if k = h then some { x with guid } else g.node? k) ∧
        g.handleOf guid = none ∧ guid ≠ "" ∧
        (g.insert x s).1.2.toNetwork.Guarded (g.insert x s).2 := by
    intro guid hensured hnew hsome hlast
    rw [hensured] at hget
    refine ⟨_, guid, hget, hnew, hsome, fun k z hz => ?_⟩
    rw [hget] at hz
    split at hz
    · cases hz
      exact hlast
    · exact (hguarded k z hz).later (g.insert_guidsMade x s)
  rcases g.ensureGuid_cases x s with ⟨hsome, hnew, hensured⟩ | ⟨_, hensured, hmade'⟩
  · exact hnode x.guid (by rw [hensured]) hnew hsome (hunmade.later (g.insert_guidsMade x s))
  · refine hnode _ hensured ?_ s.freshGuid_ne_empty ?_
    · cases hh : g.handleOf s.freshGuid.1 with
      | none => rfl
      | some k =>
        obtain ⟨z, hz, hguid⟩ := g.exists_of_handleOf _ k hh
        exact absurd (List.mem_singleton.mpr hguid.symm) (hguarded k z hz s (le_refl _))
    · refine s.unmade_freshGuid.later ?_
      rw [hmade, hmade']
      exact le_refl _

variable (registry : Registry) (hregistry : registry.DistinctPorts)

include hregistry

theorem addNode_tidy (g : Graph) (data : NodeData) (s : Store) (hg : g.toNetwork.Tidy registry)
    (hguarded : g.toNetwork.Guarded s) (hkept : (registry.resolve data).redirectedFrom = none)
    (hunmade : s.Unmade [data.guid]) :
    (g.addNode registry data s).1.2.toNetwork.Tidy registry ∧
      (g.addNode registry data s).1.2.toNetwork.Guarded (g.addNode registry data s).2 := by
  have hconsistent := g.addNode_consistent registry data s hg.consistent
  obtain ⟨x, t, heq, _, hx, _, hlaid, ht⟩ := g.addNode_restores registry data s
  rw [heq] at hconsistent ⊢
  obtain ⟨h, guid, hget, hnew, hnamed, hlast⟩ := g.insert_guarded x t hg.consistent.sound
    (hguarded.later ht.ge) (hx.guid ▸ hunmade.later ht.ge)
  refine ⟨?_, hlast⟩
  have hresolved : ({ x with guid } : GraphNode).Resolved registry :=
    ⟨data, t.vars, ⟨rfl, hx.position, hx.type, hx.genericArguments, hx.descriptor, hx.behavior,
      hx.invalid, hx.vars⟩, hkept⟩
  refine hg.insert h _ hget hnew hnamed hlaid ?_ hresolved hconsistent (g.insert_fresh x t).paths
  show (x.descriptor.ports.map _).Nodup
  rw [hx.descriptor]
  exact nodup_names registry hregistry data

theorem addNodes_tidy (g : Graph) (data : List NodeData) (s : Store)
    (hg : g.toNetwork.Tidy registry) (hguarded : g.toNetwork.Guarded s)
    (hkept : ∀ d ∈ data, (registry.resolve d).redirectedFrom = none)
    (hunmade : ∀ d ∈ data, s.Unmade [d.guid]) :
    (g.addNodes registry data s).1.toNetwork.Tidy registry ∧
      (g.addNodes registry data s).1.toNetwork.Guarded (g.addNodes registry data s).2 := by
  induction data generalizing g s with
  | nil => exact ⟨hg, hguarded⟩
  | cons d rest ih =>
    obtain ⟨hfirst, hlater⟩ := addNode_tidy registry hregistry g d s hg hguarded
      (hkept d List.mem_cons_self) (hunmade d List.mem_cons_self)
    have hmade := g.addNodes_guidsMade registry [d] s
    exact ih _ _ hfirst hlater (fun e he => hkept e (List.mem_cons_of_mem d he))
      fun e he => (hunmade e (List.mem_cons_of_mem d he)).later hmade

/-! ### Hydrating -/

omit hregistry in
theorem create_tidy (name : String) (s : Store) :
    ((create name s).1.toNetwork.Tidy registry ∧ (create name s).1.toNetwork.Opened) ∧
      (create name s).1.toNetwork.Guarded (create name s).2 := by
  -- there is no node yet
  have hnone : ∀ h x, (create name s).1.toNetwork.node? h ≠ some x := by simp [create_node?]
  exact ⟨⟨⟨create_consistent name s, fun h _ x _ hx => absurd hx (hnone h x),
    fun h x hx => absurd hx (hnone h x), fun h x hx => absurd hx (hnone h x),
    fun h x hx => absurd hx (hnone h x), rfl⟩, fun h x hx => absurd hx (hnone h x)⟩,
    fun h x hx => absurd hx (hnone h x)⟩

/-- A hydrated network is tidy, and every connection has its slot. -/
theorem placeAll_tidy (data : GraphData) (s : Store)
    (hkept : ∀ d ∈ data.nodes, (registry.resolve d).redirectedFrom = none)
    (hunmade : s.Unmade (data.nodes.map (·.guid))) :
    ((placeAll registry data s).1.toNetwork.Tidy registry ∧
      (placeAll registry data s).1.toNetwork.Opened) ∧
      (placeAll registry data s).1.toNetwork.Guarded (placeAll registry data s).2 := by
  obtain ⟨created, t, hcreate⟩ : ∃ created t, create data.name s = (created, t) := ⟨_, _, rfl⟩
  obtain ⟨placed, u, hadd⟩ : ∃ placed u, created.addNodes registry data.nodes t = (placed, u) :=
    ⟨_, _, rfl⟩
  obtain ⟨bound, v, hbind⟩ : ∃ bound v, placed.addVariables data.vars u = (bound, v) := ⟨_, _, rfl⟩
  have hall : placeAll registry data s = bound.addIncomingSlots v := by
    unfold placeAll
    simp only [bind, StateT.bind, hcreate, hadd, hbind]
  have hcreated := create_tidy registry data.name s
  rw [hcreate] at hcreated
  have ht : s.guidsMade ≤ t.guidsMade := by
    rw [show t = (create data.name s).2 by rw [hcreate]]
    exact le_refl s.guidsMade
  have hplaced := addNodes_tidy registry hregistry created data.nodes t hcreated.1.1 hcreated.2
    hkept fun d hd w hw hmem => hunmade w (ht.trans hw)
      (List.mem_singleton.mp hmem ▸ List.mem_map_of_mem hd)
  rw [hadd] at hplaced
  -- variables do not touch the nodes
  have hbound : bound.toNetwork.Tidy registry ∧ bound.toNetwork.Guarded v := by
    have hkeeps := placed.addVariables_keeps data.vars u
    obtain ⟨hnodes, _, hmade⟩ := placed.addVariables_eq data.vars u
    rw [hbind] at hkeeps hnodes hmade
    have hsame : Rerecorded [] placed.toNetwork bound.toNetwork := by
      refine .of_same hplaced.1.arranged fun h => ?_
      unfold node?
      rw [show bound.nodes = placed.nodes from hnodes]
    exact ⟨hplaced.1.rerecorded hsame (hkeeps.network.consistent hplaced.1.consistent)
      (hkeeps.paths.trans hplaced.1.paths), (hplaced.2.rerecorded hsame).later hmade.ge⟩
  have hkeeps := bound.addIncomingSlots_keeps v
  have hslots := bound.addIncomingSlots_rerecords v hbound.1.arranged
  have hmade : (bound.addIncomingSlots v).2.guidsMade = v.guidsMade := layOutAll_guidsMade _ _ _
  rw [hall]
  exact ⟨⟨hbound.1.rerecorded hslots (hkeeps.network.consistent hbound.1.consistent)
    (hkeeps.paths.trans hbound.1.paths), bound.addIncomingSlots_opened v
      (fun h x hx => (hbound.1.arranged h x hx).1) hbound.1.distinct⟩,
    (hbound.2.rerecorded hslots).later hmade.ge⟩

theorem ofData_tidy (data : GraphData) (s : Store) (hunmade : s.Unmade data.guids)
    (hkept : data.All (GraphData.Unredirected registry)) :
    (ofData registry data s).1.All (fun n => n.Tidy registry ∧ n.Opened) ∧
      (ofData registry data s).1.toNetwork.Guarded (ofData registry data s).2 := by
  have hall := hunmade.all.and hkept
  constructor
  · refine Represents.all (represents_ofData registry s data (hall.mono fun d hd t ht => ?_) s
      (le_refl _))
    exact (placeAll_tidy registry hregistry d t hd.2 (hd.1.later ht)).1
  · cases hall with
    | intro _ hd _ =>
      have hplaced := (placeAll_tidy registry hregistry data s hd.2 hd.1).2
      rw [ofData_eq]
      exact hplaced.later (functionsOfData_guidsMade registry data.functions _)

end Graph

/-! ## Section 4: Edited graphs -/

namespace Graph

open Network

/-- An edit, which adds no node of a redirected type or with a guid that is made later, and
    leaves the network in a state of some kind when it adds a node. -/
def Operation.Edits (registry : Registry) (P : Network → Prop) (st : State) : Operation → Prop
  | .addNode other data => other = registry ∧ (registry.resolve data).redirectedFrom = none ∧
      st.2.Unmade [data.guid] ∧ P (Operation.apply (.addNode registry data) st).1.toNetwork
  | .removeNode _ => True
  | .connect _ _ => True
  | .setConstant _ _ => True
  | .addGroup _ => True
  | _ => False

/-- A graph that was made or hydrated, and then edited.  Its functions are such graphs, and in
    between there may be other work on the store. -/
inductive Edited (registry : Registry) (P : Network → Prop) : State → Prop where
  | created (name : String) (s : Store) : Edited registry P (create name s)
  | hydrated (data : GraphData) (s : Store) (hunmade : s.Unmade data.guids)
      (hkept : data.All (GraphData.Unredirected registry)) :
      Edited registry P (ofData registry data s)
  | edit (op : Operation) (st : State) (hst : Edited registry P st)
      (hop : op.Edits registry P st) : Edited registry P (op.apply st)
  | addFunction (name : String) (f g : Graph) (s t : Store) (hg : Edited registry P (g, s))
      (hf : Edited registry P (f, t)) : Edited registry P (g.addFunction name f, s)
  | elsewhere (g : Graph) (s t : Store) (hg : Edited registry P (g, s))
      (hmade : s.guidsMade ≤ t.guidsMade) : Edited registry P (g, t)

theorem layOut_guidsMade (g : Graph) (h : NodeHandle) (s : Store) :
    (g.layOut h s).2.guidsMade = s.guidsMade := g.layOutAll_guidsMade [h] s

theorem openSlot_guidsMade (g : Graph) (target : SlotRef) (s : Store) :
    (g.openSlot target s).2.guidsMade = s.guidsMade := by
  rcases g.openSlot_cases target s with ⟨heq, _⟩ | ⟨k, _, _, _, _, _, heq⟩
  · rw [heq]
  · rw [heq]
    exact layOut_guidsMade _ k s

theorem recordConnection_guidsMade (g : Graph) (h : NodeHandle) (d : PortDescriptor)
    (source target : SlotRef) (s : Store) :
    (g.recordConnection h d source target s).2.guidsMade = s.guidsMade := by
  unfold recordConnection
  cases d.array with
  | true => exact layOut_guidsMade _ h s
  | false => rfl

theorem connect_guidsMade (g : Graph) (source target : SlotRef) (s : Store) :
    (g.connect source target s).2.guidsMade = s.guidsMade := by
  rcases g.connect_cases source target s with ⟨e, heq⟩ | ⟨h, x, d, hc⟩
  · rw [heq]
  · rw [hc.connect_eq s]
    exact (openSlot_guidsMade _ target _).trans (g.recordConnection_guidsMade h d source target s)

theorem setConstant_guidsMade (g : Graph) (slot : SlotRef) (v : Value) (s : Store) :
    (g.setConstant slot v s).2.guidsMade = s.guidsMade := by
  rcases g.setConstant_eq slot v s with ⟨e, heq⟩ | ⟨h, x, d, _, _, _, hresult⟩
  · rw [heq]
  · rcases hresult with ⟨i, _, heq⟩ | ⟨_, _, heq⟩ | ⟨_, _, e, heq⟩
    · rw [heq]
      rfl
    · rw [heq]
      exact layOut_guidsMade _ h s
    · rw [heq]

/-- An edit leaves the network tidy, with a slot for every connection. -/
theorem apply_tidy (registry : Registry) (hregistry : registry.DistinctPorts) (op : Operation)
    (st : State) (hop : op.Edits registry Network.Opened st) (htidy : st.1.toNetwork.Tidy registry)
    (hopened : st.1.toNetwork.Opened) (hguarded : st.1.toNetwork.Guarded st.2) :
    ((op.apply st).1.toNetwork.Tidy registry ∧ (op.apply st).1.toNetwork.Opened) ∧
      (op.apply st).1.toNetwork.Guarded (op.apply st).2 := by
  have hconsistent := apply_consistent op st htidy.consistent
  obtain ⟨g, s⟩ := st
  -- edits of records
  have hrecords : ∀ (m : Graph) (t : Store) (news : List PortConnection),
      g.toNetwork.Rerecorded news m.toNetwork → m.toNetwork.Consistent → m.paths = none →
      (∀ c ∈ news, m.toNetwork.OpenFor c) → t.guidsMade = s.guidsMade →
      (m.toNetwork.Tidy registry ∧ m.toNetwork.Opened) ∧ m.toNetwork.Guarded t := by
    intro m t news hm hconsistent hpaths hnews hmade
    exact ⟨⟨htidy.rerecorded hm hconsistent hpaths, hopened.rerecorded hm hnews⟩,
      (hguarded.rerecorded hm).later hmade.ge⟩
  cases op with
  | addNode other data =>
    obtain ⟨rfl, hkept, hunmade, hopen⟩ := hop
    obtain ⟨hadded, hlater⟩ := addNode_tidy other hregistry g data s htidy hguarded hkept hunmade
    exact ⟨⟨hadded, hopen⟩, hlater⟩
  | removeNode h =>
    refine hrecords _ _ [] (g.removeNode_rerecords s.vars h htidy.arranged) hconsistent ?_
      (List.forall_mem_nil _) rfl
    rcases g.removeNode_cases s.vars h with heq | ⟨hpaths, _⟩
    · exact (congrArg (fun k : Graph => k.paths) heq).trans htidy.paths
    · exact hpaths
  | connect source target =>
    obtain ⟨result, t, heq⟩ : ∃ result t, g.connect source target s = (result, t) := ⟨_, _, rfl⟩
    have hmade := g.connect_guidsMade source target s
    rw [heq] at hmade
    unfold Operation.apply at hconsistent ⊢
    dsimp only at hconsistent ⊢
    rw [heq] at hconsistent ⊢
    cases result with
    | error e => exact ⟨⟨htidy, hopened⟩, hguarded.later hmade.ge⟩
    | ok g' =>
      have hresult : (g.connect source target s).1 = .ok g' := by rw [heq]
      obtain ⟨hrecorded, hopen⟩ :=
        g.connect_rerecords source target s g' htidy.arranged htidy.distinct hresult
      obtain ⟨k, _, rfl⟩ := g.connect_invalidates source target s g' hresult
      refine hrecords _ t _ hrecorded hconsistent rfl (fun c hc => ?_) hmade
      rw [List.mem_singleton.mp hc]
      exact hopen
  | setConstant slot v =>
    exact hrecords _ _ [] (g.setConstant_rerecords slot v s htidy.arranged) hconsistent
      ((g.setConstant_keeps slot v s).paths.trans htidy.paths) (List.forall_mem_nil _)
      (g.setConstant_guidsMade slot v s)
  | addGroup group => exact ⟨⟨htidy, hopened⟩, hguarded⟩
  | addLive guid descriptor behavior => exact hop.elim
  | addFunction name f => exact hop.elim
  | clearPaths => exact hop.elim
  | dispose => exact hop.elim
  | compile conversions => exact hop.elim
  | elsewhere work => exact hop.elim

/-- The networks of an edited graph are tidy, and if adding a node never leaves a connection
    without its slot, every connection has its slot. -/
theorem Edited.tidy {registry : Registry} (hregistry : registry.DistinctPorts) {st : State}
    (hst : Edited registry Network.Opened st) :
    st.1.All (fun n => n.Tidy registry ∧ n.Opened) ∧ st.1.toNetwork.Guarded st.2 := by
  induction hst with
  | created name s =>
    obtain ⟨hnetwork, hguarded⟩ := create_tidy registry name s
    refine ⟨.intro _ hnetwork fun f hf => ?_, hguarded⟩
    cases hf
  | hydrated data s hunmade hkept => exact ofData_tidy registry hregistry data s hunmade hkept
  | edit op st _ hop ih =>
    obtain ⟨hall, hguarded⟩ := ih
    obtain ⟨hnetwork, hlater⟩ :=
      apply_tidy registry hregistry op st hop hall.network.1 hall.network.2 hguarded
    refine ⟨.intro _ hnetwork fun f hf => ?_, hlater⟩
    rcases apply_functions op st with ⟨_, rfl⟩ | ⟨_, _, rfl, _⟩ | hfunctions
    · exact hop.elim
    · exact hop.elim
    · exact hall.functions f (hfunctions ▸ hf)
  | addFunction name f g s t _ _ ih ih' =>
    refine ⟨.intro _ ih.1.network fun e he => ?_, ih.2⟩
    rcases List.mem_append.mp he with he | he
    · exact ih.1.functions e (List.mem_filter.mp he).1
    · rw [List.mem_singleton.mp he]
      exact ih'.1
  | elsewhere g s t _ hmade ih => exact ⟨ih.1, ih.2.later hmade⟩

end Graph

end FlowGraph
