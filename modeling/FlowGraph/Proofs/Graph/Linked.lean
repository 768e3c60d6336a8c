import FlowGraph.Proofs.Graph.Cache

/-! # Links of a compiled graph

    A graph is linked as recorded if linking it again changes nothing (`Linked`).  Then
    every link is that of a recorded connection: it starts at the output slot that the
    record names, and goes into the input slot that the connection names
    (`Linked.slots`).

    Compiling links a graph as recorded.  Edits that leave it compiled leave the links
    alone, except for a constant at a slot that its node lacks: the node is laid out anew,
    without its links (`linked_of_compiled`, `opened_unlinks`). -/

namespace FlowGraph

/-! ## Section 1: Linking again -/

namespace Arena

variable {α : Type}

/-- Two views that together determine an item together determine a slot. -/
theorem slot_eq_of_views (s t : Slot α) (f g : α → α)
    (hitem : ∀ x y, f x = f y → g x = g y → x = y)
    (hf : (⟨s.generation, s.item.map f⟩ : Slot α) = ⟨t.generation, t.item.map f⟩)
    (hg : (⟨s.generation, s.item.map g⟩ : Slot α) = ⟨t.generation, t.item.map g⟩) : s = t := by
  obtain ⟨generation, item⟩ := s
  obtain ⟨generation', item'⟩ := t
  simp only [Slot.mk.injEq] at hf hg
  obtain ⟨rfl, hf⟩ := hf
  cases item with
  | none =>
    cases item' with
    | none => rfl
    | some y => cases hf
  | some x =>
    cases item' with
    | none => cases hf
    | some y => rw [hitem x y (Option.some.inj hf) (Option.some.inj hg.2)]

theorem eq_of_views (a b : Arena α) (f g : α → α)
    (hitem : ∀ x y, f x = f y → g x = g y → x = y) (hf : a.map f = b.map f)
    (hg : a.map g = b.map g) : a = b := by
  have hfree : (a.map f).free = (b.map f).free := by rw [hf]
  have hsize : (a.map f).size = (b.map f).size := by rw [hf]
  have hslots : a.slots = b.slots := by
    apply Array.ext_getElem?
    intro i
    have hfi : (a.map f).slots[i]? = (b.map f).slots[i]? := by rw [hf]
    have hgi : (a.map g).slots[i]? = (b.map g).slots[i]? := by rw [hg]
    simp only [map, Array.getElem?_map] at hfi hgi
    generalize a.slots[i]? = s, b.slots[i]? = t at hfi hgi
    cases s with
    | none => exact (Option.map_eq_none_iff.mp hfi.symm).symm
    | some s =>
      obtain ⟨t, rfl, htf⟩ := Option.map_eq_some_iff.mp hfi.symm
      rw [slot_eq_of_views s t f g hitem htf.symm (Option.some.inj hgi)]
  cases a
  cases b
  exact congr (congr (congrArg Arena.mk hslots) hfree) hsize

end Arena

namespace Network

/-- Links, dependencies and constants together are the whole network. -/
theorem eq_of_wiring_unlinked (n m : Network) (hwiring : n.wiring = m.wiring)
    (hunlinked : n.unlinked = m.unlinked) : n = m := by
  have hnodes : n.nodes = m.nodes := by
    refine Arena.eq_of_views n.nodes m.nodes GraphNode.wiring GraphNode.unlinked ?_
      (congrArg Network.nodes hwiring) (congrArg Network.nodes hunlinked)
    -- the wiring leaves out records only, and those are there without links too
    intro x y hx hy
    have hrecords : x.unlinked.records = y.unlinked.records := by rw [hy]
    cases x
    cases y
    simp only [GraphNode.unlinked] at hrecords
    simp only [GraphNode.wiring, GraphNode.mk.injEq] at hx ⊢
    simp only [hx, hrecords, and_self]
  cases n
  cases m
  simp only [unlinked, Network.mk.injEq] at hunlinked hnodes ⊢
  simp only [hunlinked, hnodes, and_self]

/-- Linking again changes nothing: links and dependencies are as recorded. -/
def Linked (n : Network) (conversions : Conversions) : Prop := (n.link conversions).1 = n

theorem link_linked (n : Network) (conversions : Conversions) :
    (n.link conversions).1.Linked conversions := by
  unfold Linked
  rw [link_congr _ n conversions (n.link_unlinked conversions)]

/-- Constants and known paths do not matter. -/
theorem Linked.of_wiring {n m : Network} {conversions : Conversions} (hn : n.Linked conversions)
    (hwiring : m.wiring = n.wiring) : m.Linked conversions := by
  refine eq_of_wiring_unlinked _ m ?_ (m.link_unlinked conversions)
  calc (m.link conversions).1.wiring
      = (m.wiring.link conversions).1 := m.link_wiring conversions
    _ = (n.wiring.link conversions).1 := by rw [hwiring]
    _ = (n.link conversions).1.wiring := (n.link_wiring conversions).symm
    _ = m.wiring := by rw [hn, hwiring]

/-! ## Section 2: New links -/

/-- Changing one slot of a node changes the slot of one address. -/
theorem port?_modify (n m : Network) (b : PortAddress) (g : GraphNode → GraphNode)
    (f : Port → Port) (hnodes : m.nodes = n.nodes.modify b.node g)
    (hports : ∀ x, (g x).ports = x.ports.modify b.port f) (a : PortAddress) :
    m.port? a = if a = b then (n.port? a).map f else n.port? a := by
  unfold port? node?
  rw [hnodes, Arena.get?_modify]
  by_cases hnode : a.node = b.node
  · rw [if_pos hnode, ← hnode]
    cases n.nodes.get? a.node with
    | none => simp
    | some x =>
      simp only [Option.map_some, Option.bind_some, hports, List.getElem?_modify]
      by_cases hport : b.port = a.port
      · have hsame : a = b := by
          cases a
          cases b
          simp only at hnode hport
          rw [hnode, hport]
        simp [hsame]
      · rw [if_neg fun h => hport (congrArg PortAddress.port h).symm]
        simp [hport]
  · rw [if_neg hnode, if_neg fun h => hnode (congrArg PortAddress.node h)]

/-- A new link is added at its own slot, and nowhere else. -/
theorem makeLink_port (n : Network) (link : NewLink) (a : PortAddress) (q : Port)
    (hq : (n.makeLink link).port? a = some q) :
    ∃ p, n.port? a = some p ∧ (∀ l, q.link = some l → p.link = some l ∨ link = .data a l) ∧
      ∀ k, q.target = some k → p.target = some k ∨ link = .control a k := by
  cases link with
  | control source target =>
    rw [port?_modify n _ source _ _ rfl fun _ => rfl] at hq
    split at hq
    · rename_i hsource
      obtain ⟨p, hp, rfl⟩ := Option.map_eq_some_iff.mp hq
      refine ⟨p, hp, fun l hl => .inl hl, fun k hk => .inr ?_⟩
      rw [hsource, Option.some.inj hk]
    · exact ⟨q, hq, fun l hl => .inl hl, fun k hk => .inl hk⟩
  | data target link =>
    rw [port?_modify n _ target _ _ rfl (ports_linkInput target link)] at hq
    split at hq
    · rename_i htarget
      obtain ⟨p, hp, rfl⟩ := Option.map_eq_some_iff.mp hq
      refine ⟨p, hp, fun l hl => .inr ?_, fun k hk => .inl hk⟩
      rw [htarget, Option.some.inj hl]
    · exact ⟨q, hq, fun l hl => .inl hl, fun k hk => .inl hk⟩

/-- Links in a slot were there before, or are among the new ones. -/
theorem makeLinks_port (n : Network) (links : List NewLink) (a : PortAddress) (q : Port)
    (hq : (n.makeLinks links).1.port? a = some q) :
    ∃ p, n.port? a = some p ∧ (∀ l, q.link = some l → p.link = some l ∨ .data a l ∈ links) ∧
      ∀ k, q.target = some k → p.target = some k ∨ .control a k ∈ links := by
  induction links generalizing n with
  | nil => exact ⟨q, hq, fun l hl => .inl hl, fun k hk => .inl hk⟩
  | cons link rest ih =>
    obtain ⟨p', hp', hlink', htarget'⟩ := ih (n.makeLink link) hq
    obtain ⟨p, hp, hlink, htarget⟩ := n.makeLink_port link a p' hp'
    refine ⟨p, hp, fun l hl => ?_, fun k hk => ?_⟩
    · rcases hlink' l hl with hl' | hl'
      · rcases hlink l hl' with hold | rfl
        · exact .inl hold
        · exact .inr List.mem_cons_self
      · exact .inr (List.mem_cons_of_mem link hl')
    · rcases htarget' k hk with hk' | hk'
      · rcases htarget k hk' with hold | rfl
        · exact .inl hold
        · exact .inr List.mem_cons_self
      · exact .inr (List.mem_cons_of_mem link hk')

theorem mem_validLinks (checked : List (Except LinkProblem NewLink)) (link : NewLink) :
    link ∈ validLinks checked ↔ .ok link ∈ checked := by
  unfold validLinks
  rw [List.mem_filterMap]
  constructor
  · rintro ⟨r, hr, heq⟩
    cases r with
    | error e => cases heq
    | ok l =>
      cases heq
      exact hr
  · intro hmem
    exact ⟨_, hmem, rfl⟩

/-- What linking makes are the valid connections. -/
theorem link_port (n : Network) (conversions : Conversions) (a : PortAddress) (q : Port)
    (hq : (n.link conversions).1.port? a = some q) :
    (∀ l, q.link = some l → .ok (.data a l) ∈ n.unlinked.checkAll conversions) ∧
      ∀ k, q.target = some k → .ok (.control a k) ∈ n.unlinked.checkAll conversions := by
  obtain ⟨p, hp, hlink, htarget⟩ := makeLinks_port n.unlinked _ a q hq
  -- there was no link before
  obtain ⟨x, hx, hget⟩ := (port?_eq_some_iff _ a p).mp hp
  rw [node?_unlinked] at hx
  obtain ⟨y, _, rfl⟩ := Option.map_eq_some_iff.mp hx
  obtain ⟨p, _, rfl⟩ := List.mem_map.mp (List.mem_of_getElem? hget)
  refine ⟨fun l hl => ?_, fun k hk => ?_⟩
  · rcases hlink l hl with hold | hmem
    · cases hold
    · exact (mem_validLinks _ _).mp hmem
  · rcases htarget k hk with hold | hmem
    · cases hold
    · exact (mem_validLinks _ _).mp hmem

/-! ## Section 3: Slots at the ends of a link -/

/-- A connection is recorded at the output slot of an address. -/
def RecordsAt (n : Network) (a : PortAddress) (c : PortConnection) : Prop :=
  ∃ x, n.node? a.node = some x ∧
    (∃ q, x.ports[a.port]? = some q ∧ q.direction = .output) ∧
    ∃ r ∈ x.records, c ∈ r.connections ∧ x.portIndex r.name r.index = some a.port

/-- A connection leads to the slot of an address. -/
def LeadsTo (n : Network) (c : PortConnection) (a : PortAddress) : Prop :=
  n.handleOf c.nodeGuid = some a.node ∧
    ∃ x, n.node? a.node = some x ∧ x.portIndex c.portName c.portIndex = some a.port

/-- A valid connection is a link between its two slots. -/
theorem checkConnection_ok (n : Network) (conversions : Conversions) (x : GraphNode)
    (address : PortAddress) (output : Port) (c : PortConnection) (new : NewLink)
    (hcheck : n.checkConnection conversions x address output c = some (.ok new)) :
    ∃ input, n.LeadsTo c input ∧ (new = .control address input.node ∨
      ∃ compatibility, new = .data input ⟨address, compatibility⟩) := by
  unfold checkConnection at hcheck
  cases hh : n.handleOf c.nodeGuid with
  | none =>
    rw [hh] at hcheck
    cases hcheck
  | some h =>
    rw [hh] at hcheck
    obtain ⟨y, hy, hchecked⟩ := Option.map_eq_some_iff.mp hcheck
    cases hi : y.portIndex c.portName c.portIndex with
    | none =>
      simp only [hi] at hchecked
      cases hchecked
    | some i =>
      simp only [hi] at hchecked
      refine ⟨⟨h, i⟩, ⟨hh, y, hy, hi⟩, ?_⟩
      split at hchecked
      · cases hchecked
      · split at hchecked
        · cases hchecked
        · rename_i compatibility _
          split at hchecked
          · cases hchecked
            exact .inl rfl
          · cases hchecked
            exact .inr ⟨compatibility, rfl⟩

theorem mem_countedConnections (output : Port) (r : PortData) (c : PortConnection)
    (hc : c ∈ countedConnections output r) : c ∈ r.connections := by
  unfold countedConnections at hc
  split at hc
  · exact List.mem_of_mem_take hc
  · exact hc

/-- A record is of no output slot of its node, or its connections are checked from that slot. -/
theorem mem_checkRecord_cases (n : Network) (conversions : Conversions) (h : NodeHandle)
    (x : GraphNode) (r : PortData) (result : Except LinkProblem NewLink)
    (hmem : result ∈ n.checkRecord conversions h x r) :
    result = .error (.noSlot x.guid r.name r.index) ∨
    (∃ label, result = .error (.onInput x.guid label)) ∨
    ∃ (i : Nat) (output : Port) (c : PortConnection), x.portIndex r.name r.index = some i ∧
      x.ports[i]? = some output ∧ output.direction = .output ∧ c ∈ r.connections ∧
      n.checkConnection conversions x ⟨h, i⟩ output c = some result := by
  unfold checkRecord at hmem
  split at hmem
  · cases hmem
  · split at hmem
    · exact .inl (List.mem_singleton.mp hmem)
    · split at hmem
      · exact .inl (List.mem_singleton.mp hmem)
      · split at hmem
        · exact .inr (.inl ⟨_, List.mem_singleton.mp hmem⟩)
        · rename_i _ i hi _ output hget hdirection
          obtain ⟨c, hc, hcheck⟩ := List.mem_filterMap.mp hmem
          exact .inr (.inr ⟨i, output, c, hi, hget, by simpa using hdirection,
            mem_countedConnections output r c hc, hcheck⟩)

/-- A valid connection of a record is checked from the output slot of the record. -/
theorem exists_of_mem_checkRecord (n : Network) (conversions : Conversions) (h : NodeHandle)
    (x : GraphNode) (r : PortData) (new : NewLink)
    (hmem : .ok new ∈ n.checkRecord conversions h x r) :
    ∃ (i : Nat) (output : Port) (c : PortConnection), x.portIndex r.name r.index = some i ∧
      x.ports[i]? = some output ∧ output.direction = .output ∧ c ∈ r.connections ∧
      n.checkConnection conversions x ⟨h, i⟩ output c = some (.ok new) := by
  rcases n.mem_checkRecord_cases conversions h x r _ hmem with heq | ⟨_, heq⟩ | hchecked
  · cases heq
  · cases heq
  · exact hchecked

theorem checkRecord_ok (n : Network) (conversions : Conversions) (h : NodeHandle) (x : GraphNode)
    (hx : n.node? h = some x) (r : PortData) (hr : r ∈ x.records) (new : NewLink)
    (hmem : .ok new ∈ n.checkRecord conversions h x r) :
    ∃ source c input, n.RecordsAt source c ∧ n.LeadsTo c input ∧
      (new = .control source input.node ∨
        ∃ compatibility, new = .data input ⟨source, compatibility⟩) := by
  obtain ⟨i, output, c, hi, hget, hdirection, hc, hcheck⟩ :=
    n.exists_of_mem_checkRecord conversions h x r new hmem
  obtain ⟨input, hleads, hnew⟩ := n.checkConnection_ok conversions x ⟨h, i⟩ output c new hcheck
  exact ⟨⟨h, i⟩, c, input, ⟨x, hx, ⟨output, hget, hdirection⟩, r, hr, hc, hi⟩, hleads, hnew⟩

theorem checkAll_ok (n : Network) (conversions : Conversions) (new : NewLink)
    (hmem : .ok new ∈ n.checkAll conversions) :
    ∃ source c input, n.RecordsAt source c ∧ n.LeadsTo c input ∧
      (new = .control source input.node ∨
        ∃ compatibility, new = .data input ⟨source, compatibility⟩) := by
  obtain ⟨⟨h, x⟩, hplaced, hrecords⟩ := List.mem_flatMap.mp hmem
  obtain ⟨r, hr, hchecked⟩ := List.mem_flatMap.mp hrecords
  exact n.checkRecord_ok conversions h x (n.node?_of_mem_placed h x hplaced) r hr new hchecked

/-! ### Slots without links -/

theorem handleOf_unlinked (n : Network) (guid : String) :
    n.unlinked.handleOf guid = n.handleOf guid := by
  unfold handleOf unlinked
  simp only [Arena.toList_map, List.find?_map, Option.map_map]
  rfl

theorem portIndex_unlinked (x : GraphNode) (name : String) (index : Nat) :
    x.unlinked.portIndex name index = x.portIndex name index := by
  unfold GraphNode.portIndex GraphNode.unlinked
  rw [List.findIdx?_map]
  rfl

theorem recordsAt_of_unlinked (n : Network) (a : PortAddress) (c : PortConnection)
    (h : n.unlinked.RecordsAt a c) : n.RecordsAt a c := by
  obtain ⟨x, hx, ⟨q, hq, hdirection⟩, r, hr, hc, hi⟩ := h
  rw [node?_unlinked] at hx
  obtain ⟨y, hy, rfl⟩ := Option.map_eq_some_iff.mp hx
  have hports : (y.ports.map Port.unlinked)[a.port]? = some q := hq
  rw [List.getElem?_map] at hports
  obtain ⟨p, hp, rfl⟩ := Option.map_eq_some_iff.mp hports
  rw [portIndex_unlinked] at hi
  exact ⟨y, hy, ⟨p, hp, hdirection⟩, r, hr, hc, hi⟩

theorem leadsTo_of_unlinked (n : Network) (c : PortConnection) (a : PortAddress)
    (h : n.unlinked.LeadsTo c a) : n.LeadsTo c a := by
  obtain ⟨hh, x, hx, hi⟩ := h
  rw [handleOf_unlinked] at hh
  rw [node?_unlinked] at hx
  obtain ⟨y, hy, rfl⟩ := Option.map_eq_some_iff.mp hx
  rw [portIndex_unlinked] at hi
  exact ⟨hh, y, hy, hi⟩

/-- In a linked network every link joins the output slot of a recorded connection to the
    input slot that the connection names. -/
theorem Linked.slots {n : Network} {conversions : Conversions} (hn : n.Linked conversions)
    (a : PortAddress) (p : Port) (hp : n.port? a = some p) :
    (∀ l, p.link = some l → ∃ c, n.RecordsAt l.source c ∧ n.LeadsTo c a) ∧
      ∀ k, p.target = some k → ∃ c input, n.RecordsAt a c ∧ n.LeadsTo c input ∧ input.node = k := by
  have hport : (n.link conversions).1.port? a = some p := by
    rw [hn]
    exact hp
  obtain ⟨hlink, htarget⟩ := n.link_port conversions a p hport
  refine ⟨fun l hl => ?_, fun k hk => ?_⟩
  · obtain ⟨source, c, input, hrecords, hleads, hnew⟩ := checkAll_ok _ _ _ (hlink l hl)
    rcases hnew with hnew | ⟨compatibility, hnew⟩
    · cases hnew
    · cases hnew
      exact ⟨c, n.recordsAt_of_unlinked _ c hrecords, n.leadsTo_of_unlinked c _ hleads⟩
  · obtain ⟨source, c, input, hrecords, hleads, hnew⟩ := checkAll_ok _ _ _ (htarget k hk)
    rcases hnew with hnew | ⟨compatibility, hnew⟩
    · cases hnew
      exact ⟨c, input, n.recordsAt_of_unlinked _ c hrecords, n.leadsTo_of_unlinked c _ hleads, rfl⟩
    · cases hnew

end Network

/-! ## Section 4: Runs -/

namespace Graph

/-- An operation that leaves a graph compiled changes no link, unless a constant opens a
    slot. -/
theorem wiring_of_compiled (op : Operation) (st : State)
    (hcompiled : (op.apply st).1.compiled = true) (hop : ∀ conversions, op ≠ .compile conversions) :
    st.1.compiled = true ∧ ((∃ slot v, op = .setConstant slot v ∧ st.1.Lacks slot) ∨
      (op.apply st).1.wiring = st.1.wiring) := by
  obtain ⟨g, s⟩ := st
  have hinsert : ∀ (k : Graph), k.Fresh → k.compiled ≠ true := by
    intro k hk h
    rw [hk.compiled] at h
    cases h
  cases op with
  | addNode registry data => exact absurd hcompiled (hinsert _ (insert_fresh _ _ _))
  | addLive guid descriptor behavior => exact absurd hcompiled (hinsert _ (insert_fresh _ _ _))
  | removeNode h =>
    rcases g.removeNode_cases s.vars h with heq | ⟨_, hdropped⟩
    · have hsame : (Operation.apply (.removeNode h) (g, s)).1 = g := heq
      rw [hsame] at hcompiled ⊢
      exact ⟨hcompiled, .inr rfl⟩
    · rw [show (Operation.apply (.removeNode h) (g, s)).1.compiled = false from hdropped] at hcompiled
      cases hcompiled
  | connect source target =>
    unfold Operation.apply at hcompiled ⊢
    dsimp only at hcompiled ⊢
    split at hcompiled
    · rename_i g' s' heq
      obtain ⟨k, _, rfl⟩ := g.connect_invalidates source target s g' (by rw [heq])
      cases hcompiled
    · exact ⟨hcompiled, .inr rfl⟩
  | setConstant slot v =>
    refine ⟨(g.setConstant_keeps slot v s).compiled.symm.trans hcompiled, ?_⟩
    show _ ∨ (g.setConstant slot v s).1.1.wiring = g.wiring
    rcases g.setConstant_cases slot v s with heq | ⟨h, heq⟩ | ⟨hlacks, _⟩
    · rw [heq]
      exact .inr rfl
    · rw [heq]
      exact .inr (g.wiring_constantRecord h slot v)
    · exact .inl ⟨slot, v, rfl, hlacks⟩
  | addFunction name f => cases hcompiled
  | addGroup group => exact ⟨hcompiled, .inr rfl⟩
  | clearPaths => cases hcompiled
  | dispose => exact ⟨hcompiled, .inr rfl⟩
  | compile conversions => exact absurd rfl (hop conversions)
  | elsewhere work => exact ⟨hcompiled, .inr rfl⟩

/-- A compiled graph is linked as recorded. -/
theorem compile_linked (g : Graph) (conversions : Conversions) (s : Store)
    (hcompiled : (g.compile conversions s).1.1.compiled = true) :
    (g.compile conversions s).1.1.Linked conversions := by
  have hlinked := g.link_linked conversions
  rcases g.compile_cases conversions s with ⟨_, _, heq⟩ | ⟨_, _, _, heq⟩ | ⟨_, _, _, hfailed, _⟩
  · rw [heq]
    exact hlinked
  · rw [heq]
    exact hlinked.of_wiring rfl
  · rw [hfailed] at hcompiled
    cases hcompiled

/-- The compilation that a compiled graph owes its links to. -/
theorem exists_compile (start : State) (hstart : start.1.Fresh) (ops : List Operation)
    (hcompiled : (run ops start).1.compiled = true) :
    ∃ before conversions after, ops = before ++ .compile conversions :: after ∧
      (∀ c, .compile c ∉ after) ∧
      (¬ Opened (run (before ++ [.compile conversions]) start) after →
        (run ops start).1.Linked conversions) := by
  induction ops using List.reverseRecOn with
  | nil =>
    rw [show (run [] start).1.compiled = false from hstart.compiled] at hcompiled
    cases hcompiled
  | append_singleton ops op ih =>
    rw [run_snoc] at hcompiled
    by_cases hop : ∃ c, op = .compile c
    · -- from here on this is the compilation
      obtain ⟨conversions, rfl⟩ := hop
      refine ⟨ops, conversions, [], rfl, fun c => List.not_mem_nil, fun _ => ?_⟩
      rw [run_snoc]
      exact compile_linked _ conversions _ hcompiled
    · obtain ⟨hbefore, hwiring⟩ :=
        wiring_of_compiled op (run ops start) hcompiled fun c hc => hop ⟨c, hc⟩
      obtain ⟨before, conversions, after, rfl, hlast, hlinked⟩ := ih hbefore
      refine ⟨before, conversions, after ++ [op], by simp, fun c hc => ?_, fun hopened => ?_⟩
      · rcases List.mem_append.mp hc with hc | hc
        · exact hlast c hc
        · exact hop ⟨c, (List.mem_singleton.mp hc).symm⟩
      · rcases hwiring with ⟨slot, v, rfl, hlacks⟩ | hwiring
        · -- such a slot would be opened after the compilation
          refine absurd ⟨after, slot, v, [], rfl, ?_⟩ hopened
          rw [← run_append]
          simpa using hlacks
        · rw [run_snoc]
          exact (hlinked (not_opened_of_snoc _ _ _ hopened)).of_wiring hwiring

/-- A compiled graph is linked as its records say, with the conversions of its last
    compilation, as long as no constant opened a slot since.  Every link then joins the
    output slot of a recorded connection to the input slot that the connection names. -/
theorem linked_of_compiled (registry : Registry) (data : GraphData) (s : Store)
    (ops : List Operation) :
    let start := hydrated registry data s
    let g := (run ops start).1
    g.compiled = true →
      ∃ before conversions after,
        ops = before ++ .compile conversions :: after ∧ (∀ c, .compile c ∉ after) ∧
        (¬ Opened (run (before ++ [.compile conversions]) start) after →
          g.toNetwork.Linked conversions ∧
          ∀ a p, g.port? a = some p →
            (∀ l, p.link = some l →
              ∃ c, g.toNetwork.RecordsAt l.source c ∧ g.toNetwork.LeadsTo c a) ∧
            ∀ k, p.target = some k → ∃ c input,
              g.toNetwork.RecordsAt a c ∧ g.toNetwork.LeadsTo c input ∧ input.node = k) := by
  intro start g hcompiled
  obtain ⟨before, conversions, after, hops, hlast, hlinked⟩ :=
    exists_compile start (ofData_fresh registry data s) ops hcompiled
  refine ⟨before, conversions, after, hops, hlast, fun hopened => ?_⟩
  have hg : g.toNetwork.Linked conversions := hlinked hopened
  exact ⟨hg, hg.slots⟩

/-- Such a slot is one of an array port. -/
theorem not_lacks (g : Graph) (slot : SlotRef)
    (h : ((g.nodeOf slot.guid).bind fun x => x.descriptor.port? slot.port).map (·.array) ≠ some true) :
    ¬ g.Lacks slot := by
  rintro ⟨handle, x, d, hh, hx, hd, harray, _⟩
  apply h
  simp [Network.nodeOf, hh, hx, hd, harray]

/-- Constants at slots that their nodes have leave the links as they were made. -/
theorem linked_of_compiled_constant :
    let start := hydrated Registry.builtin widened default
    let ops : List Operation := [.compile .standard, .setConstant ⟨"sum", "b", 0⟩ (.int 1)]
    (run ops start).1.compiled = true ∧ (run ops start).1.toNetwork.Linked .standard := by
  intro start ops
  have hcompiled : (run ops start).1.compiled = true := by decide +kernel
  refine ⟨hcompiled, ?_⟩
  obtain ⟨before, conversions, after, hops, _, hlinked⟩ :=
    linked_of_compiled Registry.builtin widened default ops hcompiled
  simp only [ops] at hops
  cases before with
  | nil =>
    cases hops
    refine (hlinked ?_).1
    rintro ⟨p, slot, v, q, hsplit, hlacks⟩
    cases p with
    | nil =>
      cases hsplit
      exact not_lacks _ _ (by decide +kernel) hlacks
    | cons first rest =>
      have hlength := congrArg List.length hsplit
      simp at hlength
  | cons first rest =>
    -- the second operation is no compilation
    cases rest with
    | nil => cases hops
    | cons second rest =>
      have hlength := congrArg List.length hops
      simp at hlength

/-- A call between a constant and a sum. -/
def called : GraphData where
  name := "called"
  nodes := [
    { guid := "one", type := "Ceres.Values.Literal", genericArguments := ["int"],
      ports := [{ name := "value", connections := [⟨"call", "args", 0⟩] }] },
    { guid := "call", type := "Ceres.Functions.InvokeFunction",
      ports := [{ name := "result", connections := [⟨"sum", "a", 0⟩] }] },
    { guid := "sum", type := "Ceres.Math.Add" }]

/-- A constant that opens a slot takes the links of its node away, and a link to the node
    then starts at the slot before the one that the record names. -/
theorem opened_unlinks :
    ∃ g, g = (run [.compile .standard, .setConstant ⟨"call", "args", 1⟩ (.int 1)]
        (hydrated Registry.builtin called default)).1 ∧
      g.compiled = true ∧
      -- the first argument is recorded as linked, and is not
      (g.port? ⟨⟨1, 0⟩, 1⟩).map (fun p => (p.label, p.link.isSome)) = some ("args", false) ∧
      ((g.link .standard).1.port? ⟨⟨1, 0⟩, 1⟩).map (fun p => p.link.isSome) = some true ∧
      -- the sum is recorded as linked to the result, and takes an argument
      ((g.port? ⟨⟨2, 0⟩, 0⟩).bind fun p => p.link.bind fun link =>
        (g.port? link.source).map Port.label) = some "args[1]" ∧
      (((g.link .standard).1.port? ⟨⟨2, 0⟩, 0⟩).bind fun p => p.link.bind fun link =>
        ((g.link .standard).1.port? link.source).map Port.label) = some "result" := by
  refine ⟨_, rfl, ?_⟩
  decide +kernel

end Graph
end FlowGraph
