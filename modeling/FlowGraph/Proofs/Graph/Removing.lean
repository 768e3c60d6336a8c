import FlowGraph.Proofs.Arena.Handles
import FlowGraph.Proofs.Graph.Identity
import FlowGraph.Proofs.Graph.Normal

/-! # Removing a node

    Removing a node is a filter on the saved form (`toData_removeNode`): its entry is deleted
    from the node list, connections to it are deleted from the records of the other nodes, and
    its guid from the groups.  No link to a missing node appears by that (`misses_of_removeNode`).

    The handle stays stale.  A run only ages the slots of the arena, one generation for each
    removal (`frees_of_run`), so a slot comes back to the generation of an old handle after
    `2 ^ 32` removals at the earliest (`Arena.Frees.get?_eq_none`). -/

namespace FlowGraph

/-! ## Section 1: Ages of slots -/

namespace Arena

variable {α : Type} {a b c : Arena α} {i n m : Nat}

/-- Between two arenas the slot at a position was freed at most `n` times. -/
def Frees (a b : Arena α) (i n : Nat) : Prop :=
  ∀ g, a.generation? i = some g → ∃ d ≤ n, b.generation? i = some (g + UInt32.ofNat d)

theorem frees_of_generation? (h : b.generation? i = a.generation? i) : Frees a b i 0 := by
  intro g hg
  refine ⟨0, le_refl 0, ?_⟩
  rw [h, hg]
  simp

theorem Frees.trans (hab : Frees a b i n) (hbc : Frees b c i m) : Frees a c i (n + m) := by
  intro g hg
  obtain ⟨d, hd, hb⟩ := hab g hg
  obtain ⟨e, he, hc⟩ := hbc _ hb
  refine ⟨d + e, by omega, ?_⟩
  rw [hc, UInt32.ofNat_add, UInt32.add_assoc]

theorem generation?_map (a : Arena α) (f : α → α) (i : Nat) :
    (a.map f).generation? i = a.generation? i := by
  simp [generation?, map, Function.comp_def]

theorem frees_insert (a : Arena α) (x : α) (ha : WellFormed a) (i : Nat) :
    Frees a (a.insert x).2 i 0 := by
  obtain ⟨hbefore, hafter⟩ := a.generation?_insert x ha
  by_cases hi : i = (a.insert x).1.index
  · rcases hbefore with hsame | ⟨hnone, _⟩
    · apply frees_of_generation?
      rw [hafter, if_pos hi, hi, hsame]
    · -- there was no such slot
      intro g hg
      rw [hi, hnone] at hg
      cases hg
  · apply frees_of_generation?
    rw [hafter, if_neg hi]

theorem frees_remove (a b : Arena α) (h : NodeHandle) (x : α) (hr : a.remove h = some (x, b)) :
    Frees a b h.index 1 := by
  intro g hg
  have hgeneration := a.generation?_of_get? h x (a.get?_remove b h h x hr).1
  rw [hgeneration, Option.some.injEq] at hg
  refine ⟨1, le_refl 1, ?_⟩
  rw [a.generation?_remove b h x hr, if_pos rfl, hg]
  rfl

theorem frees_remove_other (a b : Arena α) (h : NodeHandle) (x : α)
    (hr : a.remove h = some (x, b)) (hi : i ≠ h.index) : Frees a b i 0 := by
  apply frees_of_generation?
  rw [a.generation?_remove b h x hr, if_neg hi]

/-- A handle whose item was taken out finds nothing, until its slot was freed `2 ^ 32` times. -/
theorem Frees.get?_eq_none {h : NodeHandle} {x : α} (hr : a.remove h = some (x, b))
    (hbc : Frees b c h.index n) (hn : n + 1 < 2 ^ 32) : c.get? h = none := by
  have hgeneration : b.generation? h.index = some (h.generation + 1) := by
    rw [a.generation?_remove b h x hr, if_pos rfl]
  obtain ⟨d, hd, hc⟩ := hbc _ hgeneration
  cases hx : c.get? h with
  | none => rfl
  | some y =>
    -- then the generation would be that of the handle again
    rw [c.generation?_of_get? h y hx, Option.some.injEq] at hc
    have hwrapped : h.generation.toNat = (h.generation.toNat + 1 + d) % 2 ^ 32 := by
      have hnat := congrArg UInt32.toNat hc
      rw [UInt32.toNat_add, UInt32.toNat_add, UInt32.toNat_ofNat', UInt32.toNat_one] at hnat
      omega
    have hlt := h.generation.toNat_lt
    omega

end Arena

/-! ## Section 2: Ages over a run -/

namespace Graph

/-- The operation takes an item out of the slot at a position. -/
def Operation.frees (i : Nat) : Operation → Bool
  | .removeNode h => h.index = i
  | _ => false

theorem layOut_generation? (g : Graph) (h : NodeHandle) (s : Store) (i : Nat) :
    (g.layOut h s).1.nodes.generation? i = g.nodes.generation? i := by
  rw [layOut_graph]
  exact Arena.generation?_modify _ _ _ _

theorem modifyRecords_generation? (g : Graph) (h : NodeHandle)
    (f : List PortData → List PortData) (i : Nat) :
    (g.modifyRecords h f).nodes.generation? i = g.nodes.generation? i :=
  Arena.generation?_modify _ _ _ _

theorem openSlot_generation? (g : Graph) (target : SlotRef) (s : Store) (i : Nat) :
    (g.openSlot target s).1.nodes.generation? i = g.nodes.generation? i := by
  rcases g.openSlot_cases target s with ⟨heq, _⟩ | ⟨k, _, _, _, _, _, heq⟩
  · rw [heq]
  · rw [heq, layOut_generation?, modifyRecords_generation?]

theorem recordConnection_generation? (g : Graph) (h : NodeHandle) (d : PortDescriptor)
    (source target : SlotRef) (s : Store) (i : Nat) :
    (g.recordConnection h d source target s).1.nodes.generation? i = g.nodes.generation? i := by
  unfold recordConnection
  cases d.array with
  | true =>
    simp only [if_true]
    rw [layOut_generation?, modifyRecords_generation?]
  | false => exact g.modifyRecords_generation? h _ i

theorem connect_generation? (g g' : Graph) (source target : SlotRef) (s : Store)
    (hconnect : (g.connect source target s).1 = .ok g') (i : Nat) :
    g'.nodes.generation? i = g.nodes.generation? i := by
  obtain ⟨h, x, d, _, rfl⟩ := g.exists_of_connect source target s g' hconnect
  show ((g.recordConnection h d source target s).1.openSlot target _).1.nodes.generation? i = _
  rw [openSlot_generation?, recordConnection_generation?]

theorem setConstant_generation? (g : Graph) (slot : SlotRef) (v : Value) (s : Store) (i : Nat) :
    (g.setConstant slot v s).1.1.nodes.generation? i = g.nodes.generation? i := by
  rcases g.setConstant_cases slot v s with heq | ⟨h, heq⟩ | ⟨_, h, heq⟩
  · rw [heq]
  · rw [heq, modifyRecords_generation?]
  · rw [heq]
    exact (Arena.generation?_modify _ _ _ _).trans (g.modifyRecords_generation? h _ i)

theorem link_generation? (n : Network) (conversions : Conversions) (i : Nat) :
    (n.link conversions).1.nodes.generation? i = n.nodes.generation? i := by
  -- apart from the links the arenas are the same
  have hnodes := congrArg Network.nodes (n.link_unlinked conversions)
  rw [← Arena.generation?_map _ GraphNode.unlinked,
    ← Arena.generation?_map n.nodes GraphNode.unlinked]
  exact congrArg (Arena.generation? · i) hnodes

theorem compile_generation? (g : Graph) (conversions : Conversions) (s : Store) (i : Nat) :
    (g.compile conversions s).1.1.nodes.generation? i = g.nodes.generation? i := by
  rw [← link_generation? g.toNetwork conversions i]
  rcases g.compile_cases conversions s with ⟨_, _, heq⟩ | ⟨_, _, _, heq⟩ | ⟨_, _, heq, _⟩
  · rw [heq]
  · rw [heq]
  · rw [heq]

theorem insert_frees (g : Graph) (x : GraphNode) (s : Store) (hg : g.toNetwork.Sound) (i : Nat) :
    g.nodes.Frees (g.insert x s).1.2.nodes i 0 := by
  obtain ⟨y, _, t, _, heq⟩ := g.insert_eq x s
  rw [heq]
  exact Arena.frees_insert g.nodes y hg.arena i

theorem removeNode_frees (g : Graph) (vs : Variables) (h : NodeHandle) (i : Nat) :
    g.nodes.Frees (g.removeNode vs h).2.nodes i
      (if (Operation.removeNode h).frees i then 1 else 0) := by
  unfold removeNode
  cases hr : g.nodes.remove h with
  | none =>
    intro generation hg
    exact ⟨0, Nat.zero_le _, by simpa using hg⟩
  | some r =>
    obtain ⟨x, nodes⟩ := r
    have hmapped : ∀ f : GraphNode → GraphNode, nodes.Frees (nodes.map f) i 0 :=
      fun f => Arena.frees_of_generation? (nodes.generation?_map f i)
    by_cases hi : h.index = i
    · subst hi
      rw [if_pos (by simp [Operation.frees])]
      exact (Arena.frees_remove g.nodes nodes h x hr).trans (hmapped _)
    · rw [if_neg (by simp [Operation.frees, hi])]
      exact (Arena.frees_remove_other g.nodes nodes h x hr (Ne.symm hi)).trans (hmapped _)

/-- An operation frees a slot once at most, and only a removal does. -/
theorem apply_frees (op : Operation) (st : State) (hst : st.1.toNetwork.Sound) (i : Nat) :
    st.1.nodes.Frees (op.apply st).1.nodes i (if op.frees i then 1 else 0) := by
  obtain ⟨g, s⟩ := st
  cases op with
  | addNode registry data => exact insert_frees g _ _ hst i
  | addLive guid descriptor behavior => exact insert_frees g _ _ hst i
  | removeNode h => exact g.removeNode_frees s.vars h i
  | connect source target =>
    apply Arena.frees_of_generation?
    unfold Operation.apply
    dsimp only
    split
    · rename_i g' s' heq
      exact g.connect_generation? g' source target s (by rw [heq]) i
    · rfl
  | setConstant slot v => exact Arena.frees_of_generation? (g.setConstant_generation? slot v s i)
  | addFunction name f => exact Arena.frees_of_generation? rfl
  | addGroup group => exact Arena.frees_of_generation? rfl
  | clearPaths => exact Arena.frees_of_generation? rfl
  | dispose => exact Arena.frees_of_generation? rfl
  | compile conversions => exact Arena.frees_of_generation? (g.compile_generation? conversions s i)
  | elsewhere work => exact Arena.frees_of_generation? rfl

/-- Over a run a slot is freed as often as an item is taken out of it, at most. -/
theorem run_frees (ops : List Operation) (st : State) (hst : st.1.toNetwork.Consistent) (i : Nat) :
    st.1.nodes.Frees (run ops st).1.nodes i (ops.countP (·.frees i)) := by
  induction ops generalizing st with
  | nil => exact Arena.frees_of_generation? rfl
  | cons op rest ih =>
    have hstep := apply_frees op st hst.sound i
    have hrest := ih (op.apply st) (apply_consistent op st hst)
    have hboth := hstep.trans hrest
    rw [List.countP_cons, Nat.add_comm]
    exact hboth

end Graph

/-! ## Section 3: Handles that lead nowhere -/

/-- Nothing of the network is found under the handle, and no name leads to it. -/
structure Network.Forgets (n : Network) (h : NodeHandle) : Prop where
  node : n.node? h = none
  indexOf : n.indexOf h = none
  handleOf : ∀ guid, n.handleOf guid ≠ some h
  findEntry : ∀ name, n.findEntry name ≠ some h
  port : ∀ i, n.port? ⟨h, i⟩ = none
  read : ∀ s i, n.readPort s ⟨h, i⟩ = .null
  write : ∀ s i v, n.writePort s ⟨h, i⟩ v = s

theorem Network.Sound.forgets {n : Network} (hn : n.Sound) (h : NodeHandle)
    (hnone : n.node? h = none) : n.Forgets h := by
  have hport : ∀ i, n.port? ⟨h, i⟩ = none := by
    intro i
    unfold Network.port?
    rw [hnone]
    rfl
  refine ⟨hnone, ?_, fun guid hguid => ?_, fun name hname => ?_, hport, fun s i => ?_,
    fun s i v => ?_⟩
  · cases hi : n.indexOf h with
    | none => rfl
    | some i =>
      have hmem := List.mem_of_getElem? ((n.indexOf_eq_some_iff hn h i).mp hi)
      obtain ⟨x, hx⟩ := (hn.mem_order_iff h).mp hmem
      rw [hnone] at hx
      cases hx
  · obtain ⟨x, hx, _⟩ := n.exists_of_handleOf guid h hguid
    rw [hnone] at hx
    cases hx
  · obtain ⟨x, hx, _⟩ := n.entry_of_findEntry name h hname
    rw [hnone] at hx
    cases hx
  · unfold Network.readPort
    rw [hport]
  · unfold Network.writePort
    rw [hport]

/-! ## Section 4: The saved form -/

/-- The saved node without its connections to a guid. -/
def NodeData.disconnect (guid : String) (d : NodeData) : NodeData :=
  { d with ports := d.ports.map fun r =>
      { r with connections := r.connections.filter (·.nodeGuid ≠ guid) } }

/-- The group without a guid. -/
def NodeGroup.leave (guid : String) (group : NodeGroup) : NodeGroup :=
  { group with nodes := group.nodes.filter (· ≠ guid) }

/-- The saved graph without the node at a position, the connections to its guid, and its places
    in groups. -/
def GraphData.without (data : GraphData) (i : Nat) (guid : String) : GraphData :=
  { data with
    nodes := (data.nodes.eraseIdx i).map (·.disconnect guid)
    nodeGroups := data.nodeGroups.map (·.leave guid) }

/-- The live node without its connections to a guid. -/
def GraphNode.disconnect (guid : String) (x : GraphNode) : GraphNode :=
  { x with records := x.records.map fun r =>
      { r with connections := r.connections.filter (·.nodeGuid ≠ guid) } }

theorem GraphNode.toData_disconnect (guid : String) (x : GraphNode) (vs : Variables) :
    (x.disconnect guid).toData vs = (x.toData vs).disconnect guid := by
  unfold GraphNode.toData GraphNode.disconnect
  dsimp only
  cases x.invalid with
  | none => rfl
  | some invalid => rfl

/-- Where a key occurs once, leaving it out erases its position. -/
theorem filter_ne_eq_eraseIdx {α β : Type} [DecidableEq α] (l : List (α × β))
    (hl : (l.map Prod.fst).Nodup) (i : Nat) (a : α) (b : β) (hi : l[i]? = some (a, b)) :
    l.filter (·.1 ≠ a) = l.eraseIdx i := by
  induction l generalizing i with
  | nil => cases hi
  | cons e rest ih =>
    rw [List.map_cons, List.nodup_cons] at hl
    cases i with
    | zero =>
      cases hi
      have hothers : ∀ e ∈ rest, decide (e.1 ≠ a) = true := by
        rintro ⟨k, y⟩ he
        refine decide_eq_true ?_
        rintro rfl
        exact hl.1 (List.mem_map.mpr ⟨(k, y), he, rfl⟩)
      rw [List.filter_cons_of_neg (by simp), List.filter_eq_self.mpr hothers]
      rfl
    | succ i =>
      have hne : e.1 ≠ a := by
        rintro rfl
        exact hl.1 (List.mem_map.mpr ⟨_, List.mem_of_getElem? hi, rfl⟩)
      rw [List.filter_cons_of_pos (by simpa using hne), ih hl.2 i hi, List.eraseIdx_cons_succ]

namespace Graph

/-- A live node is taken out of the arena; the others lose their connections to it. -/
theorem removeNode_eq (g : Graph) (vs : Variables) (h : NodeHandle) (x : GraphNode)
    (hx : g.node? h = some x) :
    ∃ nodes, g.nodes.remove h = some (x, nodes) ∧ g.removeNode vs h =
      (some (x.toData vs), { g with
        nodes := nodes.map (GraphNode.disconnect x.guid)
        groups := g.groups.map (NodeGroup.leave x.guid)
        order := g.order.filter (· ≠ h) }.invalidate) := by
  have hget : g.nodes.get? h = some x := hx
  obtain ⟨nodes, hr⟩ : ∃ nodes, g.nodes.remove h = some (x, nodes) := by
    unfold Arena.remove
    rw [hget]
    exact ⟨_, rfl⟩
  refine ⟨nodes, hr, ?_⟩
  unfold removeNode
  rw [hr]
  rfl

/-- The nodes after a removal. -/
theorem node?_removeNode (g : Graph) (vs : Variables) (h k : NodeHandle) (x : GraphNode)
    (hx : g.node? h = some x) :
    (g.removeNode vs h).2.node? k
      = if k = h then none else (g.node? k).map (·.disconnect x.guid) := by
  obtain ⟨nodes, hr, heq⟩ := g.removeNode_eq vs h x hx
  rw [heq]
  show (nodes.map _).get? k = _
  rw [Arena.get?_map, (g.nodes.get?_remove nodes h k x hr).2]
  by_cases hk : k = h
  · rw [if_pos hk, if_pos hk, Option.map_none]
  · rw [if_neg hk, if_neg hk]
    rfl

theorem removeNode_order (g : Graph) (vs : Variables) (h : NodeHandle) (x : GraphNode)
    (hx : g.node? h = some x) : (g.removeNode vs h).2.order = g.order.filter (· ≠ h) := by
  obtain ⟨nodes, _, heq⟩ := g.removeNode_eq vs h x hx
  rw [heq]
  rfl

theorem removeNode_functions (g : Graph) (vs : Variables) (h : NodeHandle) :
    (g.removeNode vs h).2.functions = g.functions := by
  unfold removeNode
  cases g.nodes.remove h with
  | none => rfl
  | some r => rfl

/-- The other nodes are listed as before. -/
theorem removeNode_placed (g : Graph) (vs : Variables) (h : NodeHandle) (x : GraphNode)
    (hx : g.node? h = some x) :
    (g.removeNode vs h).2.placed
      = (g.placed.filter (·.1 ≠ h)).map fun e => (e.1, e.2.disconnect x.guid) := by
  unfold Network.placed
  rw [g.removeNode_order vs h x hx, List.filterMap_filter, List.filter_filterMap,
    List.map_filterMap]
  apply congrArg (List.filterMap · g.order)
  funext k
  rw [g.node?_removeNode vs h k x hx]
  by_cases hk : k = h
  · rw [if_neg (by simpa using hk)]
    cases g.node? k with
    | none => rfl
    | some y => simp [Option.filter, hk]
  · rw [if_pos (by simpa using hk), if_neg hk]
    cases g.node? k with
    | none => rfl
    | some y => simp [Option.filter, hk]

/-- Removing a node is a filter on the saved form. -/
theorem toData_removeNode (g : Graph) (vs : Variables) (h : NodeHandle) (x : GraphNode)
    (hg : g.toNetwork.Sound) (hx : g.node? h = some x) (i : Nat) (hi : g.order[i]? = some h) :
    (g.removeNode vs h).2.toData vs = (g.toData vs).without i x.guid := by
  have hplaced := g.placed_getElem? hg i h x hi hx
  have hnodes : (g.removeNode vs h).2.placed.map (fun e => e.2.toData vs)
      = ((g.placed.map fun e => e.2.toData vs).eraseIdx i).map (·.disconnect x.guid) := by
    rw [g.removeNode_placed vs h x hx,
      filter_ne_eq_eraseIdx g.placed (by rw [g.map_fst_placed hg]; exact hg.nodup_order) i h x
        hplaced,
      List.eraseIdx_map, List.map_map, List.map_map]
    refine List.map_congr_left fun e _ => ?_
    exact e.2.toData_disconnect x.guid vs
  obtain ⟨nodes, _, heq⟩ := g.removeNode_eq vs h x hx
  rw [toData_eq, toData_eq, hnodes, heq]
  rfl

theorem removeNode_of_none (g : Graph) (vs : Variables) (h : NodeHandle)
    (hnone : g.node? h = none) :
    g.removeNode vs h = (none, g) := by
  have hget : g.nodes.get? h = none := hnone
  unfold removeNode Arena.remove
  rw [hget]
  rfl

end Graph

/-! ## Section 5: Links to missing nodes -/

namespace Network

/-- A connection is recorded at an output slot, and there is no node of the guid that it
    names. -/
def Misses (n : Network) (problem : LinkProblem) : Prop :=
  ∃ h x r c i output, n.node? h = some x ∧ r ∈ x.records ∧ c ∈ r.connections ∧
    x.portIndex r.name r.index = some i ∧ x.ports[i]? = some output ∧
    output.direction = .output ∧ n.handleOf c.nodeGuid = none ∧
    problem = .noNode x.guid output.label c.nodeGuid

theorem handleOf_eq_none_iff (n : Network) (guid : String) :
    n.handleOf guid = none ↔ ∀ h x, n.node? h = some x → x.guid ≠ guid := by
  unfold handleOf
  rw [Option.map_eq_none_iff, List.find?_eq_none]
  constructor
  · intro hnone h x hx hguid
    have hlisted := hnone (h, x) ((n.nodes.mem_toList_iff h x).mpr hx)
    simp [hguid] at hlisted
  · rintro hother ⟨h, x⟩ hmem
    simpa using hother h x ((n.nodes.mem_toList_iff h x).mp hmem)

/-- Checking a connection complains of a missing node only if there is none. -/
theorem checkConnection_noNode (n : Network) (conversions : Conversions) (x : GraphNode)
    (address : PortAddress) (output : Port) (c : PortConnection) (guid label target : String)
    (hcheck : n.checkConnection conversions x address output c
      = some (.error (.noNode guid label target))) :
    n.handleOf c.nodeGuid = none ∧
      LinkProblem.noNode guid label target = .noNode x.guid output.label c.nodeGuid := by
  unfold checkConnection at hcheck
  cases hh : n.handleOf c.nodeGuid with
  | none =>
    rw [hh] at hcheck
    cases hcheck
    exact ⟨rfl, rfl⟩
  | some h =>
    -- with a node at the other end the problem is another one
    rw [hh] at hcheck
    obtain ⟨y, _, hchecked⟩ := Option.map_eq_some_iff.mp hcheck
    cases hi : y.portIndex c.portName c.portIndex with
    | none =>
      simp only [hi] at hchecked
      cases hchecked
    | some i =>
      simp only [hi] at hchecked
      split at hchecked
      · cases hchecked
      · split at hchecked
        · cases hchecked
        · split at hchecked
          · cases hchecked
          · cases hchecked

/-- What checking finds missing is missing. -/
theorem misses_of_checkAll (n : Network) (conversions : Conversions) (guid label target : String)
    (hmem : .error (.noNode guid label target) ∈ n.checkAll conversions) :
    n.Misses (.noNode guid label target) := by
  obtain ⟨⟨h, x⟩, hplaced, hrecords⟩ := List.mem_flatMap.mp hmem
  obtain ⟨r, hr, hchecked⟩ := List.mem_flatMap.mp hrecords
  rcases n.mem_checkRecord_cases conversions h x r _ hchecked with heq | ⟨_, heq⟩ | hcases
  · cases heq
  · cases heq
  · obtain ⟨i, output, c, hi, hget, hdirection, hc, hcheck⟩ := hcases
    obtain ⟨hnone, hproblem⟩ := n.checkConnection_noNode conversions x ⟨h, i⟩ output c _ _ _ hcheck
    exact ⟨h, x, r, c, i, output, n.node?_of_mem_placed h x hplaced, hr, hc, hi, hget, hdirection,
      hnone, hproblem⟩

/-- Links do not matter. -/
theorem misses_of_unlinked (n : Network) (problem : LinkProblem)
    (hmisses : n.unlinked.Misses problem) : n.Misses problem := by
  obtain ⟨h, x, r, c, i, output, hx, hr, hc, hi, hget, hdirection, hnone, rfl⟩ := hmisses
  rw [node?_unlinked] at hx
  obtain ⟨y, hy, rfl⟩ := Option.map_eq_some_iff.mp hx
  have hports : (y.ports.map Port.unlinked)[i]? = some output := hget
  rw [List.getElem?_map] at hports
  obtain ⟨p, hp, rfl⟩ := Option.map_eq_some_iff.mp hports
  rw [portIndex_unlinked] at hi
  rw [handleOf_unlinked] at hnone
  exact ⟨h, y, r, c, i, p, hy, hr, hc, hi, hp, hdirection, hnone, rfl⟩

theorem mem_problems (checked : List (Except LinkProblem NewLink)) (problem : LinkProblem) :
    problem ∈ problems checked ↔ .error problem ∈ checked := by
  unfold problems
  rw [List.mem_filterMap]
  constructor
  · rintro ⟨r, hr, heq⟩
    cases r with
    | ok link => cases heq
    | error e =>
      cases heq
      exact hr
  · intro hmem
    exact ⟨_, hmem, rfl⟩

end Network

namespace Graph

/-- A graph has a link to a missing node, or one of its functions has, at any depth. -/
inductive Misses : Graph → LinkProblem → Prop
  | own {g problem} (h : g.toNetwork.Misses problem) : Misses g problem
  | inner {g name f problem} (hf : (name, f) ∈ g.functions) (h : Misses f problem) :
      Misses g problem

/-- A compilation warns of a link to a missing node: linking the graph does, or linking one of
    its functions, at any depth. -/
inductive Warns (conversions : Conversions) : Graph → LinkProblem → Prop
  | own {g guid label target}
      (h : .noNode guid label target ∈ Network.problems (g.unlinked.checkAll conversions)) :
      Warns conversions g (.noNode guid label target)
  | inner {g name f problem} (hf : (name, f) ∈ g.functions) (h : Warns conversions f problem) :
      Warns conversions g problem

/-- A compilation warns of what is missing. -/
theorem Warns.misses {conversions : Conversions} {g : Graph} {problem : LinkProblem}
    (h : Warns conversions g problem) : g.Misses problem := by
  induction h with
  | own h =>
    rw [Network.mem_problems] at h
    exact .own (Network.misses_of_unlinked _ _ (Network.misses_of_checkAll _ _ _ _ _ h))
  | inner hf _ ih => exact .inner hf ih

/-- What is missing after a removal was missing before: connections to the node that is removed
    are removed with it. -/
theorem misses_of_removeNode (g : Graph) (vs : Variables) (h : NodeHandle) (x : GraphNode)
    (hx : g.node? h = some x) (problem : LinkProblem)
    (hmisses : (g.removeNode vs h).2.Misses problem) : g.Misses problem := by
  cases hmisses with
  | inner hf hinner =>
    rw [g.removeNode_functions vs h] at hf
    exact .inner hf hinner
  | own hown =>
    obtain ⟨k, y, r, c, i, output, hy, hr, hc, hi, hget, hdirection, hnone, rfl⟩ := hown
    have hnode : ∀ k, (g.removeNode vs h).2.node? k
        = if k = h then none else (g.node? k).map (·.disconnect x.guid) :=
      fun k => g.node?_removeNode vs h k x hx
    rw [hnode] at hy
    by_cases hk : k = h
    · rw [if_pos hk] at hy
      cases hy
    · rw [if_neg hk] at hy
      obtain ⟨z, hz, rfl⟩ := Option.map_eq_some_iff.mp hy
      obtain ⟨r, hr', rfl⟩ := List.mem_map.mp hr
      obtain ⟨hc', hne⟩ := List.mem_filter.mp hc
      refine .own ⟨k, z, r, c, i, output, hz, hr', hc', hi, hget, hdirection, ?_, rfl⟩
      -- the connection is not to the removed node, so no node was there before
      rw [Network.handleOf_eq_none_iff] at hnone ⊢
      intro l w hw hguid
      by_cases hl : l = h
      · subst hl
        rw [hx, Option.some.injEq] at hw
        subst hw
        simp [hguid] at hne
      · refine hnone l (w.disconnect x.guid) ?_ hguid
        rw [hnode, if_neg hl, hw]
        rfl

/-! ## Section 6: Removals in a run -/

/-- Removing a node is a filter.  Its saved form is returned, and is the entry that the saved
    graph loses, with all connections to its guid and its places in groups; all else is saved as
    before, also the functions, which are not touched.

    Until its slot was freed `2 ^ 32` times nothing is found under the handle, whatever is done
    with the graph, also when later nodes are placed in the slot.  A compilation warns of no
    link to a missing node but those that the graph had. -/
theorem removeNode_filters (registry : Registry) (data : GraphData) (s : Store)
    (ops : List Operation) (h : NodeHandle) (x : GraphNode) :
    let st := run ops (hydrated registry data s)
    let saved := st.1.toData st.2.vars
    let removed := st.1.removeNode st.2.vars h
    st.1.node? h = some x →
      (∃ i, st.1.indexOf h = some i ∧ removed.1 = saved.nodes[i]? ∧
        removed.1 = some (x.toData st.2.vars) ∧
        removed.2.toData st.2.vars = saved.without i x.guid) ∧
      removed.2.functions = st.1.functions ∧
      (∀ later : List Operation, later.countP (·.frees h.index) + 1 < 2 ^ 32 →
        let after := (run later (removed.2, st.2)).1
        after.toNetwork.Forgets h ∧ ∀ vs, after.removeNode vs h = (none, after)) ∧
      ∀ conversions problem, Warns conversions removed.2 problem → st.1.Misses problem := by
  intro st saved removed hx
  have hst : st.1.toNetwork.Consistent := run_consistent ops _ (ofData_consistent registry data s)
  obtain ⟨nodes, hr, heq⟩ := st.1.removeNode_eq st.2.vars h x hx
  have hreturned : removed.1 = some (x.toData st.2.vars) := congrArg Prod.fst heq
  refine ⟨?_, st.1.removeNode_functions st.2.vars h, fun later hlater => ?_,
    fun conversions problem hwarns =>
      st.1.misses_of_removeNode st.2.vars h x hx problem hwarns.misses⟩
  · obtain ⟨i, hi, horder⟩ := st.1.exists_indexOf hst.sound h x hx
    refine ⟨i, hi, ?_, hreturned, st.1.toData_removeNode st.2.vars h x hst.sound hx i horder⟩
    have hlisted : saved.nodes[i]? = some (x.toData st.2.vars) := by
      have hplaced := st.1.placed_getElem? hst.sound i h x horder hx
      show (st.1.toData st.2.vars).nodes[i]? = _
      rw [toData_eq, List.getElem?_map, hplaced]
      rfl
    rw [hreturned, hlisted]
  · have hremoved : removed.2.toNetwork.Consistent := st.1.removeNode_consistent st.2.vars h hst
    have hafter := run_consistent later (removed.2, st.2) hremoved
    -- from the arena without the node on, the slot only ages
    have hfrees : nodes.Frees (run later (removed.2, st.2)).1.nodes h.index
        (later.countP (·.frees h.index)) := by
      have hmapped : nodes.Frees removed.2.nodes h.index 0 := by
        apply Arena.frees_of_generation?
        show (st.1.removeNode st.2.vars h).2.nodes.generation? h.index = _
        rw [heq]
        exact nodes.generation?_map _ _
      have hrun := hmapped.trans (run_frees later (removed.2, st.2) hremoved h.index)
      rwa [Nat.zero_add] at hrun
    have hnone : (run later (removed.2, st.2)).1.node? h = none := hfrees.get?_eq_none hr hlater
    exact ⟨hafter.sound.forgets h hnone, fun vs => removeNode_of_none _ vs h hnone⟩

/-- Two constants and their sum, with a group. -/
def grouped : GraphData where
  name := "grouped"
  nodes := [
    { guid := "one", type := "Ceres.Values.Literal", genericArguments := ["int"],
      ports := [{ name := "value", connections := [⟨"sum", "a", 0⟩, ⟨"ghost", "a", 0⟩] }] },
    { guid := "sum", type := "Ceres.Math.Add" },
    { guid := "two", type := "Ceres.Values.Literal", genericArguments := ["int"],
      ports := [{ name := "value", connections := [⟨"sum", "b", 0⟩] }] }]
  nodeGroups := [{ id := "group", name := "arithmetic", nodes := ["one", "sum"] }]

/-- The sum is removed, and another one of its guid takes its slot. -/
theorem removeNode_filters_grouped :
    let st := run [.compile .standard] (hydrated Registry.builtin grouped default)
    let removed := st.1.removeNode st.2.vars ⟨1, 0⟩
    let later : List Operation :=
      [.addNode Registry.builtin { guid := "sum", type := "Ceres.Math.Add" }]
    let after := (run later (removed.2, st.2)).1
    (∃ i, st.1.indexOf ⟨1, 0⟩ = some i ∧
      removed.2.toData st.2.vars = (st.1.toData st.2.vars).without i "sum") ∧
    after.handleOf "sum" = some ⟨1, 1⟩ ∧ after.toNetwork.Forgets ⟨1, 0⟩ ∧
    ∀ problem, Warns .standard removed.2 problem → st.1.Misses problem := by
  intro st removed later after
  have hguid : (st.1.node? ⟨1, 0⟩).map (·.guid) = some "sum" := by decide +kernel
  obtain ⟨x, hx, hsum⟩ := Option.map_eq_some_iff.mp hguid
  obtain ⟨⟨i, hi, _, _, hsaved⟩, _, hlater, hwarns⟩ :=
    removeNode_filters Registry.builtin grouped default [.compile .standard] ⟨1, 0⟩ x hx
  rw [hsum] at hsaved
  exact ⟨⟨i, hi, hsaved⟩, by decide +kernel, (hlater later (by decide)).1, hwarns .standard⟩

end Graph
end FlowGraph
