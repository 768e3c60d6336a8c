import FlowGraph.Proofs.Graph.Editing
import FlowGraph.Proofs.Graph.Layout

/-! # What hydrating makes of saved nodes

    A hydrated network carries the saved nodes in their order: each is resolved, keeps its
    records and its guid, and is laid out (`GraphNode.Carries`).  Only a node without a
    guid gets a fresh one.  Array ports are given slots for the connections into them
    (`Opened`), for which records without connections are added.

    That guids stay needs that they are distinct, and that none of them is made later. -/

namespace FlowGraph

/-! ## Section 1: Guids -/

/-- A node is the only one of its guid. -/
theorem NodeData.eq_of_guid (nodes : List NodeData) (hnodup : (nodes.map (·.guid)).Nodup)
    (i j : Nat) (n m : NodeData) (hn : nodes[i]? = some n) (hm : nodes[j]? = some m)
    (hguid : n.guid = m.guid) : i = j ∧ n = m := by
  have hi : i < (nodes.map (·.guid)).length := by
    rw [List.length_map]
    exact (List.getElem?_eq_some_iff.mp hn).1
  have hsame : i = j := by
    apply (List.getElem?_inj hi hnodup).mp
    rw [List.getElem?_map, List.getElem?_map, hn, hm, Option.map_some, Option.map_some, hguid]
  subst hsame
  rw [hn] at hm
  exact ⟨rfl, Option.some.inj hm⟩

/-- None of the guids is made from here on. -/
def Store.Unmade (s : Store) (guids : List String) : Prop :=
  ∀ t : Store, s.guidsMade ≤ t.guidsMade → t.freshGuid.1 ∉ guids

theorem Store.Unmade.later {s t : Store} {guids : List String} (hs : s.Unmade guids)
    (hst : s.guidsMade ≤ t.guidsMade) : t.Unmade guids :=
  fun u hu => hs u (hst.trans hu)

/-- Made guids start alike, and others are not made. -/
theorem Store.unmade_of_prefix (s : Store) (guids : List String)
    (h : ∀ guid ∈ guids, ¬ "fresh-".toList <+: guid.toList) : s.Unmade guids := by
  intro t _ hmem
  apply h _ hmem
  unfold Store.freshGuid
  rw [String.toList_append]
  exact List.prefix_append _ _

namespace Network

/-- No two nodes have the same guid. -/
def Distinct (n : Network) : Prop :=
  ∀ h k x y, n.node? h = some x → n.node? k = some y → x.guid = y.guid → h = k

theorem exists_of_handleOf (n : Network) (guid : String) (h : NodeHandle)
    (hh : n.handleOf guid = some h) : ∃ x, n.node? h = some x ∧ x.guid = guid := by
  obtain ⟨⟨k, x⟩, hfind, rfl⟩ := Option.map_eq_some_iff.mp hh
  exact ⟨x, (Arena.mem_toList_iff n.nodes k x).mp (List.mem_of_find?_eq_some hfind),
    by simpa using List.find?_some hfind⟩

theorem exists_handleOf (n : Network) (h : NodeHandle) (x : GraphNode) (hx : n.node? h = some x) :
    ∃ k, n.handleOf x.guid = some k := by
  unfold handleOf
  cases hfind : n.nodes.toList.find? fun e => e.2.guid = x.guid with
  | some e => exact ⟨e.1, rfl⟩
  | none =>
    have hnot := List.find?_eq_none.mp hfind _ ((Arena.mem_toList_iff n.nodes h x).mpr hx)
    simp at hnot

/-- A guid names the node that has it. -/
theorem Distinct.handleOf {n : Network} (hn : n.Distinct) (h : NodeHandle) (x : GraphNode)
    (hx : n.node? h = some x) : n.handleOf x.guid = some h := by
  obtain ⟨k, hk⟩ := n.exists_handleOf h x hx
  obtain ⟨y, hy, hguid⟩ := n.exists_of_handleOf x.guid k hk
  rw [hk, hn k h y x hy hx hguid]

/-! ## Section 2: Networks that differ node by node -/

/-- A network whose nodes were changed one by one. -/
structure Differs (n m : Network) (f : NodeHandle → GraphNode → GraphNode) : Prop where
  order : m.order = n.order
  node : ∀ h, m.node? h = (n.node? h).map (f h)

theorem Differs.placed {n m : Network} {f : NodeHandle → GraphNode → GraphNode}
    (hf : n.Differs m f) : m.placed = n.placed.map fun e => (e.1, f e.1 e.2) := by
  unfold Network.placed
  rw [hf.order, List.map_filterMap]
  apply congrArg (List.filterMap · n.order)
  funext h
  rw [hf.node]
  cases n.node? h with
  | none => rfl
  | some x => rfl

/-- Nodes that keep their guids are found by them as before. -/
theorem Differs.handleOf {n m : Network} {f : NodeHandle → GraphNode → GraphNode}
    (hf : n.Differs m f) (hguid : ∀ h x, (f h x).guid = x.guid) (guid : String) :
    m.handleOf guid = n.handleOf guid := by
  unfold Network.handleOf
  rw [Arena.toList_eq_map n.nodes m.nodes f hf.node, List.find?_map, Option.map_map]
  simp only [Function.comp_def, hguid]

theorem Differs.trans {n m l : Network} {f f' : NodeHandle → GraphNode → GraphNode}
    (hf : n.Differs m f) (hf' : m.Differs l f') : n.Differs l fun h x => f' h (f h x) := by
  refine ⟨hf'.order.trans hf.order, fun h => ?_⟩
  rw [hf'.node, hf.node, Option.map_map]
  rfl

theorem differs_unlinked (n : Network) : n.Differs n.unlinked fun _ => GraphNode.unlinked :=
  ⟨rfl, n.node?_unlinked⟩

theorem differs_modify (n : Network) (h : NodeHandle) (f : GraphNode → GraphNode) :
    n.Differs { n with nodes := n.nodes.modify h f } fun k x => if k = h then f x else x := by
  refine ⟨rfl, fun k => ?_⟩
  show (n.nodes.modify h f).get? k = (n.nodes.get? k).map _
  rw [Arena.get?_modify]
  by_cases hk : k = h
  · simp [hk]
  · simp [hk]

/-- A new node is placed last. -/
theorem placed_insert {n m : Network} (hn : n.Sound) (x : GraphNode)
    (hnodes : m.nodes = (n.nodes.insert x).2)
    (horder : m.order = n.order ++ [(n.nodes.insert x).1]) :
    m.placed = n.placed ++ [((n.nodes.insert x).1, x)] := by
  have hget := hn.node?_insert x hnodes
  unfold placed
  rw [horder, List.filterMap_append]
  congr 1
  · apply List.filterMap_congr
    intro k hk
    have hne : k ≠ (n.nodes.insert x).1 := by
      rintro rfl
      exact hn.insert_not_mem_order x hk
    rw [hget, if_neg hne]
  · simp [hget]

end Network

/-! ## Section 3: Saved nodes -/

theorem exists_right_of_forall₂ {α β : Type} {R : α → β → Prop} {xs : List α} {ys : List β}
    (h : List.Forall₂ R xs ys) (i : Nat) (x : α) (hx : xs[i]? = some x) :
    ∃ y, ys[i]? = some y ∧ R x y := by
  induction h generalizing i with
  | nil => cases hx
  | cons hxy _ ih =>
    cases i with
    | zero =>
      cases hx
      exact ⟨_, rfl, hxy⟩
    | succ i => exact ih i hx

theorem exists_left_of_forall₂ {α β : Type} {R : α → β → Prop} {xs : List α} {ys : List β}
    (h : List.Forall₂ R xs ys) (i : Nat) (y : β) (hy : ys[i]? = some y) :
    ∃ x, xs[i]? = some x ∧ R x y :=
  exists_right_of_forall₂ (R := flip R) h.flip i y hy

theorem forall₂_of_getElem? {α β : Type} {R : α → β → Prop} {xs : List α} {ys : List β}
    (hlength : xs.length = ys.length)
    (h : ∀ (i : Nat) x y, xs[i]? = some x → ys[i]? = some y → R x y) : List.Forall₂ R xs ys :=
  List.forall₂_iff_get.mpr ⟨hlength, fun i hi hi' =>
    h i _ _ (List.getElem?_eq_getElem hi) (List.getElem?_eq_getElem hi')⟩

theorem forall₂_and {α β : Type} {R S : α → β → Prop} {xs : List α} {ys : List β}
    (hR : List.Forall₂ R xs ys) (hS : List.Forall₂ S xs ys) :
    List.Forall₂ (fun x y => R x y ∧ S x y) xs ys := by
  induction hR with
  | nil => exact .nil
  | cons hxy _ ih =>
    cases hS with
    | cons hxy' hrest' => exact .cons ⟨hxy, hxy'⟩ (ih hrest')

theorem map_eq_of_forall₂ {α β γ : Type} {f : α → γ} {g : β → γ} {xs : List α} {ys : List β}
    (h : List.Forall₂ (fun x y => f x = g y) xs ys) : xs.map f = ys.map g := by
  rw [← List.forall₂_eq_eq_eq, List.forall₂_map_left_iff, List.forall₂_map_right_iff]
  exact h

theorem flatMap_eq_of_forall₂ {α β γ : Type} {f : α → List γ} {g : β → List γ} {xs : List α}
    {ys : List β} (h : List.Forall₂ (fun x y => f x = g y) xs ys) :
    xs.flatMap f = ys.flatMap g := by
  induction h with
  | nil => rfl
  | cons hxy _ ih => rw [List.flatMap_cons, List.flatMap_cons, hxy, ih]

/-- A guid that no saved node has is that of no live one. -/
theorem Network.handleOf_eq_none_of_forall₂ {n : Network} (hn : n.Sound)
    {R : NodeData → NodeHandle × GraphNode → Prop} {nodes : List NodeData} {guid : String}
    (h : List.Forall₂ R nodes n.placed)
    (hR : ∀ d e, R d e → e.2.guid = guid → d.guid = guid)
    (hnot : guid ∉ nodes.map (·.guid)) : n.handleOf guid = none := by
  cases hh : n.handleOf guid with
  | none => rfl
  | some k =>
    obtain ⟨x, hx, hguid⟩ := n.exists_of_handleOf guid k hh
    obtain ⟨i, hi⟩ := List.mem_iff_getElem?.mp ((n.mem_placed_iff hn k x).mpr hx)
    obtain ⟨d, hd, hdx⟩ := exists_left_of_forall₂ h i (k, x) hi
    have hmem := List.mem_map_of_mem (f := (·.guid)) (List.mem_of_getElem? hd)
    rw [hR d _ hdx hguid] at hmem
    exact absurd hmem hnot

/-- A node is the live form of a saved one: resolved, laid out, with its records and its
    guid.  If that is empty the node has a guid apart from all others. -/
structure GraphNode.Carries (registry : Registry) (guids : List String) (d : NodeData)
    (x : GraphNode) : Prop where
  guid : d.guid ≠ "" → x.guid = d.guid
  fresh : d.guid = "" → x.guid ∉ guids
  invalid : x.invalid = (registry.resolve d).invalid
  descriptor : x.descriptor = (registry.resolve d).descriptor
  /-- Slots may have been opened at array ports. -/
  records : ∃ opened, x.records = d.ports ++ opened ∧ ∀ r ∈ opened, r.connections = []
  laidOut : x.LaidOut

/-- Records without connections are none of those that have some. -/
theorem mem_of_connected {records opened : List PortData} (r : PortData)
    (hr : r ∈ records ++ opened) (hempty : ∀ r ∈ opened, r.connections = [])
    (hsome : r.connections ≠ []) : r ∈ records := by
  rcases List.mem_append.mp hr with hold | hnew
  · exact hold
  · exact absurd (hempty r hnew) hsome

theorem GraphNode.Carries.mem_records {registry : Registry} {guids : List String} {d : NodeData}
    {x : GraphNode} (hx : x.Carries registry guids d) (r : PortData) (hr : r ∈ d.ports) :
    r ∈ x.records := by
  obtain ⟨opened, heq, _⟩ := hx.records
  rw [heq]
  exact List.mem_append_left _ hr

/-- A record with a connection is a saved one. -/
theorem GraphNode.Carries.mem_ports {registry : Registry} {guids : List String} {d : NodeData}
    {x : GraphNode} (hx : x.Carries registry guids d) (r : PortData) (hr : r ∈ x.records)
    (hsome : r.connections ≠ []) : r ∈ d.ports := by
  obtain ⟨opened, heq, hempty⟩ := hx.records
  exact mem_of_connected r (heq ▸ hr) hempty hsome

/-- A live node has one of the guids only if its saved form has it. -/
theorem GraphNode.Carries.guid_eq {registry : Registry} {guids : List String} {d : NodeData}
    {x : GraphNode} (hx : x.Carries registry guids d) (hguid : x.guid ∈ guids) :
    d.guid = x.guid := by
  by_cases hnone : d.guid = ""
  · exact absurd hguid (hx.fresh hnone)
  · exact (hx.guid hnone).symm

theorem GraphNode.Carries.unlinked {registry : Registry} {guids : List String} {d : NodeData}
    {x : GraphNode} (hx : x.Carries registry guids d) : x.unlinked.Carries registry guids d := by
  refine ⟨hx.guid, hx.fresh, hx.invalid, hx.descriptor, hx.records, ?_⟩
  show x.ports.map Port.unlinked = Layout.portsOf x.records x.descriptor.ports
  rw [hx.laidOut, List.map_congr_left (portsOf_unlinked x.records x.descriptor.ports),
    List.map_id']

namespace Graph

theorem makeVariables_guidsMade (guid : String) (fields : Json) (ds : List VariableDescriptor)
    (s : Store) : (makeVariables guid fields ds s).2.guidsMade = s.guidsMade := by
  induction ds generalizing s with
  | nil => rfl
  | cons d rest ih => exact ih _

theorem makeNode_guidsMade (data : NodeData) (resolved : ResolvedNode) (s : Store) :
    (makeNode data resolved s).2.guidsMade = s.guidsMade :=
  makeVariables_guidsMade _ _ _ _

/-- A guid that is neither empty nor taken is kept; else it is made. -/
theorem ensureGuid_cases (g : Graph) (x : GraphNode) (s : Store) :
    (x.guid ≠ "" ∧ g.handleOf x.guid = none ∧ g.ensureGuid x s = (x, s)) ∨
    ((x.guid = "" ∨ ∃ h, g.handleOf x.guid = some h) ∧
      (g.ensureGuid x s).1 = { x with guid := s.freshGuid.1 } ∧
      (g.ensureGuid x s).2.guidsMade = s.guidsMade + 1) := by
  unfold ensureGuid
  split
  · rename_i h
    rw [Bool.or_eq_true, decide_eq_true_eq, Option.isSome_iff_exists] at h
    exact .inr ⟨h, rfl, rfl⟩
  · rename_i h
    rw [Bool.or_eq_true, decide_eq_true_eq, Option.isSome_iff_exists, not_or] at h
    refine .inl ⟨h.1, ?_, rfl⟩
    cases hh : g.handleOf x.guid with
    | none => rfl
    | some k => exact absurd ⟨k, hh⟩ h.2

/-- The node that is inserted is the one with a guid of its own. -/
theorem insert_ensured (g : Graph) (x : GraphNode) (s : Store) :
    (g.insert x s).1.2.nodes = (g.nodes.insert (g.ensureGuid x s).1).2 ∧
      (g.insert x s).1.2.order = g.order ++ [(g.nodes.insert (g.ensureGuid x s).1).1] ∧
      (g.insert x s).2.guidsMade = (g.ensureGuid x s).2.guidsMade := by
  obtain ⟨y, t, hensured⟩ : ∃ y t, g.ensureGuid x s = (y, t) := ⟨_, _, rfl⟩
  unfold insert
  simp only [bind, StateT.bind, hensured]
  cases y.invalid with
  | none => exact ⟨rfl, rfl, rfl⟩
  | some invalid => exact ⟨rfl, rfl, rfl⟩

theorem insert_guidsMade (g : Graph) (x : GraphNode) (s : Store) :
    s.guidsMade ≤ (g.insert x s).2.guidsMade := by
  rw [(g.insert_ensured x s).2.2]
  rcases g.ensureGuid_cases x s with ⟨_, _, heq⟩ | ⟨_, _, heq⟩
  · rw [heq]
  · rw [heq]
    exact Nat.le_succ _

/-- What is inserted for a saved node is its live form. -/
theorem addNode_eq (g : Graph) (registry : Registry) (data : NodeData) (s : Store) :
    ∃ x t, g.addNode registry data s = g.insert x t ∧ t.guidsMade = s.guidsMade ∧
      x.guid = data.guid ∧ x.invalid = (registry.resolve data).invalid ∧
      x.descriptor = (registry.resolve data).descriptor ∧ x.records = data.ports ∧ x.LaidOut :=
  ⟨_, _, rfl, makeNode_guidsMade _ _ _, rfl, rfl, rfl, rfl, rfl⟩

/-- A node that is not there yet is placed last. -/
theorem addNode_carries (g : Graph) (registry : Registry) (guids : List String) (data : NodeData)
    (s : Store) (hg : g.toNetwork.Sound) (hfresh : data.guid = "" → s.Unmade guids)
    (hnew : data.guid ≠ "" → g.handleOf data.guid = none) :
    s.guidsMade ≤ (g.addNode registry data s).2.guidsMade ∧ ∃ h y,
      (g.addNode registry data s).1.2.placed = g.placed ++ [(h, y)] ∧
      y.Carries registry guids data := by
  obtain ⟨x, t, heq, ht, hguid, hinvalid, hdescriptor, hrecords, hlaid⟩ :=
    g.addNode_eq registry data s
  rw [heq, ← ht]
  refine ⟨g.insert_guidsMade x t, ?_⟩
  obtain ⟨hnodes, horder, _⟩ := g.insert_ensured x t
  refine ⟨_, _, Network.placed_insert hg _ hnodes horder, ?_⟩
  have hopened : ∃ opened, x.records = data.ports ++ opened ∧ ∀ r ∈ opened, r.connections = [] :=
    ⟨[], by rw [hrecords, List.append_nil], fun r hr => by cases hr⟩
  rcases g.ensureGuid_cases x t with ⟨hsome, _, hensured⟩ | ⟨htaken, hensured, _⟩
  · rw [hensured]
    rw [hguid] at hsome
    exact ⟨fun _ => hguid, fun hnone => absurd hnone hsome, hinvalid, hdescriptor, hopened, hlaid⟩
  · rw [hensured]
    rw [hguid] at htaken
    refine ⟨fun hsome => ?_, fun hnone => hfresh hnone t ht.ge, hinvalid, hdescriptor, hopened,
      hlaid⟩
    rcases htaken with hnone | ⟨k, hk⟩
    · exact absurd hnone hsome
    · rw [hnew hsome] at hk
      cases hk

/-- Nodes with distinct guids are placed one behind the other. -/
theorem addNodes_carries (g : Graph) (registry : Registry) (guids : List String)
    (done data : List NodeData) (s : Store) (hg : g.toNetwork.Consistent)
    (hfresh : ∀ d ∈ data, d.guid = "" → s.Unmade guids)
    (hnodup : ((done ++ data).map (·.guid)).Nodup) (hguids : ∀ d ∈ data, d.guid ∈ guids)
    (hdone : List.Forall₂ (fun d e => e.2.Carries registry guids d) done g.placed) :
    List.Forall₂ (fun d e => e.2.Carries registry guids d) (done ++ data)
      (g.addNodes registry data s).1.placed := by
  induction data generalizing g done s with
  | nil =>
    rw [List.append_nil]
    exact hdone
  | cons d rest ih =>
    -- the guids of the nodes before are other ones, or were made
    have hnew : d.guid ≠ "" → g.handleOf d.guid = none := by
      intro _
      rw [List.map_append, List.nodup_append] at hnodup
      refine Network.handleOf_eq_none_of_forall₂ hg.sound hdone (fun e f hef hguid => ?_) fun hmem =>
        hnodup.2.2 _ hmem _ (List.mem_map_of_mem List.mem_cons_self) rfl
      rw [hef.guid_eq (hguid ▸ hguids d List.mem_cons_self), hguid]
    obtain ⟨hmade, h, y, hplaced, hy⟩ :=
      g.addNode_carries registry guids d s hg.sound (hfresh d List.mem_cons_self) hnew
    have hstep := ih (g.addNode registry d s).1.2 (done ++ [d]) (g.addNode registry d s).2
      (g.addNode_consistent registry d s hg)
      (fun e he hnone => (hfresh e (List.mem_cons_of_mem d he) hnone).later hmade)
      (by simpa using hnodup)
      (fun e he => hguids e (List.mem_cons_of_mem d he)) ?_
    · rw [List.append_assoc] at hstep
      exact hstep
    · rw [hplaced]
      exact List.rel_append hdone (.cons hy .nil)

end Graph

/-! ## Section 4: Saved networks -/

/-- A network is the live form of saved nodes, in their order. -/
structure Network.Carries (registry : Registry) (nodes : List NodeData) (n : Network) : Prop where
  sound : n.Sound
  nodes : List.Forall₂ (fun d e => e.2.Carries registry (nodes.map (·.guid)) d) nodes n.placed

namespace Network

variable {registry : Registry} {nodes : List NodeData} {n m : Network}

/-- The live form of the saved node at a position. -/
theorem Carries.live (hn : n.Carries registry nodes) (i : Nat) (d : NodeData)
    (hd : nodes[i]? = some d) :
    ∃ h x, n.placed[i]? = some (h, x) ∧ n.order[i]? = some h ∧ n.node? h = some x ∧
      x.Carries registry (nodes.map (·.guid)) d := by
  obtain ⟨⟨h, x⟩, he, hx⟩ := exists_right_of_forall₂ hn.nodes i d hd
  refine ⟨h, x, he, ?_, n.node?_of_mem_placed h x (List.mem_of_getElem? he), hx⟩
  rw [← n.map_fst_placed hn.sound, List.getElem?_map, he]
  rfl

/-- The saved form of a live node. -/
theorem Carries.saved (hn : n.Carries registry nodes) (h : NodeHandle) (x : GraphNode)
    (hx : n.node? h = some x) :
    ∃ (i : Nat) (d : NodeData), nodes[i]? = some d ∧ n.order[i]? = some h ∧
      x.Carries registry (nodes.map (·.guid)) d := by
  obtain ⟨i, hi, horder⟩ := n.exists_indexOf hn.sound h x hx
  obtain ⟨d, hd, hdx⟩ := exists_left_of_forall₂ hn.nodes i (h, x)
    (n.placed_getElem? hn.sound i h x horder hx)
  exact ⟨i, d, hd, horder, hdx⟩

theorem Carries.laidOut (hn : n.Carries registry nodes) (h : NodeHandle) (x : GraphNode)
    (hx : n.node? h = some x) : x.LaidOut := by
  obtain ⟨_, _, _, _, hdx⟩ := hn.saved h x hx
  exact hdx.laidOut

/-- Distinct guids stay distinct. -/
theorem Carries.distinct (hn : n.Carries registry nodes)
    (hnodup : (nodes.map (·.guid)).Nodup) : n.Distinct := by
  intro h k x y hx hy hguid
  obtain ⟨i, d, hd, hi, hdx⟩ := hn.saved h x hx
  obtain ⟨j, e, he, hj, hey⟩ := hn.saved k y hy
  have hij : i = j := by
    apply (NodeData.eq_of_guid nodes hnodup i j d e hd he _).1
    have hdmem := List.mem_map_of_mem (f := (·.guid)) (List.mem_of_getElem? hd)
    have hemem := List.mem_map_of_mem (f := (·.guid)) (List.mem_of_getElem? he)
    by_cases hnone : d.guid = ""
    · by_cases hnone' : e.guid = ""
      · rw [hnone, hnone']
      · -- the other one keeps its guid, which was not made
        rw [← hey.guid hnone', ← hguid] at hemem
        exact absurd hemem (hdx.fresh hnone)
    · rw [← hdx.guid hnone, hguid] at hdmem
      rw [hey.guid_eq hdmem, ← hguid, hdx.guid hnone]
  subst hij
  rw [hi] at hj
  exact Option.some.inj hj

/-- A node without a guid got one. -/
theorem Carries.named (hn : n.Carries registry nodes) (h : NodeHandle) (x : GraphNode)
    (hx : n.node? h = some x) : x.guid ≠ "" := by
  obtain ⟨i, d, hd, _, hdx⟩ := hn.saved h x hx
  intro hempty
  by_cases hnone : d.guid = ""
  · refine hdx.fresh hnone ?_
    rw [hempty, ← hnone]
    exact List.mem_map_of_mem (List.mem_of_getElem? hd)
  · exact hnone ((hdx.guid hnone).symm.trans hempty)

/-- Nodes may change as long as each stays the live form of its saved one. -/
theorem Carries.differs {f : NodeHandle → GraphNode → GraphNode}
    (hn : n.Carries registry nodes) (hf : n.Differs m f) (hm : m.nodes.WellFormed)
    (hcarries : ∀ h x d, x.Carries registry (nodes.map (·.guid)) d →
      (f h x).Carries registry (nodes.map (·.guid)) d) : m.Carries registry nodes := by
  refine ⟨hn.sound.congr hm hf.order fun h => ?_, ?_⟩
  · rw [hf.node]
    cases n.node? h with
    | none => simp
    | some x => simp
  · rw [hf.placed, List.forall₂_map_right_iff]
    exact hn.nodes.imp fun d e he => hcarries e.1 e.2 d he

theorem Carries.unlinked (hn : n.Carries registry nodes) : n.unlinked.Carries registry nodes :=
  hn.differs n.differs_unlinked (Arena.map_wellFormed _ _ hn.sound.arena)
    fun _ _ _ hx => hx.unlinked

end Network

/-! ## Section 5: Slots for incoming connections -/

namespace Graph

theorem mem_distinct (hs : List NodeHandle) (h : NodeHandle) : h ∈ distinct hs ↔ h ∈ hs := by
  have hfold : ∀ (rest seen : List NodeHandle),
      h ∈ rest.foldl (fun seen h => if seen.contains h then seen else seen ++ [h]) seen ↔
        h ∈ seen ∨ h ∈ rest := by
    intro rest
    induction rest with
    | nil => simp
    | cons k rest ih =>
      intro seen
      rw [List.foldl_cons, ih]
      by_cases hk : k ∈ seen
      · grind
      · grind
  unfold distinct
  rw [hfold]
  simp

/-- The records of a node after its missing slots are recorded. -/
def withSlots (missing : List MissingSlot) (h : NodeHandle) (records : List PortData) :
    List PortData :=
  missing.foldl (fun rs m => if m.handle = h then recordSlot m.port m.index rs else rs) records

theorem recordSlot_cases (name : String) (index : Nat) (records : List PortData) :
    (∃ r ∈ records, r.name = name ∧ r.index = index ∧ recordSlot name index records = records) ∨
      recordSlot name index records = records ++ [{ name := name, index := index }] := by
  unfold recordSlot
  split
  · rename_i h
    obtain ⟨r, hr, hfor⟩ := List.any_eq_true.mp h
    simp only [PortData.isFor, Bool.and_eq_true, decide_eq_true_eq] at hfor
    exact .inl ⟨r, hr, hfor.1, hfor.2, rfl⟩
  · exact .inr rfl

theorem withSlots_cons (m : MissingSlot) (rest : List MissingSlot) (h : NodeHandle)
    (records : List PortData) : withSlots (m :: rest) h records = withSlots rest h
      (if m.handle = h then recordSlot m.port m.index records else records) := rfl

/-- Records of missing slots are added behind the others. -/
theorem withSlots_opened (missing : List MissingSlot) (h : NodeHandle) (records : List PortData) :
    ∃ opened, withSlots missing h records = records ++ opened ∧
      ∀ r ∈ opened, ∃ m ∈ missing, m.handle = h ∧ r = { name := m.port, index := m.index } := by
  induction missing generalizing records with
  | nil => exact ⟨[], by simp [withSlots], fun r hr => by cases hr⟩
  | cons m rest ih =>
    have hlater : ∀ r : PortData, (∃ m ∈ rest, m.handle = h ∧ r = { name := m.port, index := m.index }) →
        ∃ m' ∈ m :: rest, m'.handle = h ∧ r = { name := m'.port, index := m'.index } :=
      fun r ⟨m', hm', hsame⟩ => ⟨m', List.mem_cons_of_mem m hm', hsame⟩
    rw [withSlots_cons]
    by_cases hm : m.handle = h
    · rw [if_pos hm]
      rcases recordSlot_cases m.port m.index records with ⟨_, _, _, _, heq⟩ | heq
      · rw [heq]
        obtain ⟨opened, hopened, hall⟩ := ih records
        exact ⟨opened, hopened, fun r hr => hlater r (hall r hr)⟩
      · obtain ⟨opened, hopened, hall⟩ := ih (records ++ [{ name := m.port, index := m.index }])
        refine ⟨{ name := m.port, index := m.index } :: opened, ?_, fun r hr => ?_⟩
        · rw [heq, hopened, List.append_assoc, List.singleton_append]
        · rcases List.mem_cons.mp hr with rfl | hr
          · exact ⟨m, List.mem_cons_self, hm, rfl⟩
          · exact hlater r (hall r hr)
    · rw [if_neg hm]
      obtain ⟨opened, hopened, hall⟩ := ih records
      exact ⟨opened, hopened, fun r hr => hlater r (hall r hr)⟩

/-- They have no connections. -/
theorem withSlots_eq_append (missing : List MissingSlot) (h : NodeHandle)
    (records : List PortData) :
    ∃ opened, withSlots missing h records = records ++ opened ∧
      ∀ r ∈ opened, r.connections = [] := by
  obtain ⟨opened, hopened, hall⟩ := withSlots_opened missing h records
  refine ⟨opened, hopened, fun r hr => ?_⟩
  obtain ⟨m, _, _, rfl⟩ := hall r hr
  rfl

theorem withSlots_of_not_mem (missing : List MissingSlot) (h : NodeHandle)
    (records : List PortData) (hnot : h ∉ missing.map (·.handle)) :
    withSlots missing h records = records := by
  induction missing with
  | nil => rfl
  | cons m rest ih =>
    rw [List.map_cons, List.mem_cons, not_or] at hnot
    have hm : m.handle ≠ h := fun heq => hnot.1 heq.symm
    rw [withSlots_cons, if_neg hm]
    exact ih hnot.2

/-- Every missing slot is recorded. -/
theorem exists_mem_withSlots (missing : List MissingSlot) (m : MissingSlot) (hm : m ∈ missing)
    (records : List PortData) :
    ∃ r ∈ withSlots missing m.handle records, r.name = m.port ∧ r.index = m.index := by
  induction missing generalizing records with
  | nil => cases hm
  | cons first rest ih =>
    rcases List.mem_cons.mp hm with rfl | hm
    · -- the record stays where it is
      obtain ⟨opened, heq, _⟩ :=
        withSlots_eq_append rest m.handle (recordSlot m.port m.index records)
      rw [withSlots_cons, if_pos rfl, heq]
      rcases recordSlot_cases m.port m.index records with ⟨r, hr, hname, hindex, hsame⟩ | hadded
      · rw [hsame]
        exact ⟨r, List.mem_append_left _ hr, hname, hindex⟩
      · rw [hadded]
        exact ⟨_, List.mem_append_left _ (List.mem_append_right _ (List.mem_singleton_self _)),
          rfl, rfl⟩
    · exact ih hm _

theorem differs_modifyRecords (g : Graph) (h : NodeHandle) (f : List PortData → List PortData) :
    g.toNetwork.Differs (g.modifyRecords h f).toNetwork
      fun k x => if k = h then { x with records := f x.records } else x :=
  g.differs_modify h fun x => { x with records := f x.records }

theorem node?_modifyRecords_self (g : Graph) (h : NodeHandle) (f : List PortData → List PortData)
    (x : GraphNode) (hx : g.node? h = some x) :
    (g.modifyRecords h f).node? h = some { x with records := f x.records } := by
  rw [(g.differs_modifyRecords h f).node, hx, Option.map_some, if_pos rfl]

/-- Recording slots changes records. -/
theorem differs_withSlots (g : Graph) (missing : List MissingSlot) :
    g.toNetwork.Differs
      (missing.foldl (fun g m => g.modifyRecords m.handle (recordSlot m.port m.index)) g).toNetwork
      fun h x => { x with records := withSlots missing h x.records } := by
  induction missing generalizing g with
  | nil =>
    refine ⟨rfl, fun h => ?_⟩
    rw [List.foldl_nil]
    cases g.node? h with
    | none => rfl
    | some x => rfl
  | cons m rest ih =>
    have hboth := (g.differs_modifyRecords m.handle (recordSlot m.port m.index)).trans
      (ih (g.modifyRecords m.handle (recordSlot m.port m.index)))
    refine ⟨hboth.order, fun h => ?_⟩
    rw [List.foldl_cons, hboth.node]
    apply congrArg (Option.map · (g.node? h))
    funext x
    by_cases hh : h = m.handle
    · simp [withSlots, hh]
    · simp [withSlots, hh, Ne.symm hh]

/-- Laying out changes slots. -/
theorem differs_layOutAll (g : Graph) (hs : List NodeHandle) (s : Store) :
    g.toNetwork.Differs (g.layOutAll hs s).1.toNetwork
      fun h x => if h ∈ hs then x.laidOut else x := by
  induction hs generalizing g s with
  | nil =>
    refine ⟨rfl, fun h => ?_⟩
    show g.node? h = _
    cases g.node? h with
    | none => rfl
    | some x => simp
  | cons k rest ih =>
    have hfirst : g.toNetwork.Differs (g.layOut k s).1.toNetwork
        fun h x => if h = k then x.laidOut else x := by
      rw [layOut_graph]
      exact g.differs_modify k GraphNode.laidOut
    have hboth := hfirst.trans (ih (g.layOut k s).1 (g.layOut k s).2)
    refine ⟨hboth.order, fun h => (hboth.node h).trans ?_⟩
    apply congrArg (Option.map · (g.node? h))
    funext x
    by_cases hk : h = k
    · by_cases hin : h ∈ rest
      · rw [if_pos hk, if_pos hin, if_pos (List.mem_cons_of_mem k hin)]
        rfl
      · rw [if_pos hk, if_neg hin, if_pos (hk ▸ List.mem_cons_self)]
    · simp [hk]

/-- The slots that a network lacks. -/
def lacking (g : Graph) : List MissingSlot := g.missingSlots.filterMap fun r => r.getLeft?

/-- Nodes with missing slots get records for them, and are laid out anew. -/
theorem differs_addIncomingSlots (g : Graph) (s : Store)
    (hlaid : ∀ h x, g.node? h = some x → x.LaidOut) :
    g.toNetwork.Differs (g.addIncomingSlots s).1.toNetwork
      fun h x => GraphNode.laidOut { x with records := withSlots g.lacking h x.records } := by
  have hboth := (g.differs_withSlots g.lacking).trans
    (differs_layOutAll (g.lacking.foldl
      (fun g m => g.modifyRecords m.handle (recordSlot m.port m.index)) g)
      (distinct (g.lacking.map (·.handle)))
      (s.reportAll (g.missingSlots.filterMap fun r => r.getRight?)))
  refine ⟨hboth.order, fun h => (hboth.node h).trans ?_⟩
  cases hx : g.node? h with
  | none => rfl
  | some x =>
    simp only [Option.map_some, Option.some.injEq, mem_distinct]
    by_cases hin : h ∈ g.lacking.map (·.handle)
    · rw [if_pos hin]
    · -- the other nodes have the slots of their records already
      rw [if_neg hin, withSlots_of_not_mem _ _ _ hin]
      exact (hlaid h x hx).laidOut_eq.symm

theorem addIncomingSlots_carries (g : Graph) (registry : Registry) (nodes : List NodeData)
    (s : Store) (hg : g.toNetwork.Carries registry nodes) :
    (g.addIncomingSlots s).1.toNetwork.Carries registry nodes := by
  refine hg.differs (g.differs_addIncomingSlots s hg.laidOut)
    ((g.addIncomingSlots_keeps s).network.arena hg.sound.arena) fun h x d hx => ?_
  refine ⟨hx.guid, hx.fresh, hx.invalid, hx.descriptor, ?_, rfl⟩
  obtain ⟨opened, hopened, hempty⟩ := hx.records
  obtain ⟨more, hmore, hnone⟩ := withSlots_eq_append g.lacking h x.records
  refine ⟨opened ++ more, ?_, fun r hr => ?_⟩
  · show withSlots g.lacking h x.records = _
    rw [hmore, hopened, List.append_assoc]
  · exact (List.mem_append.mp hr).elim (hempty r) (hnone r)

/-- A connection into an array port that has no such slot is found. -/
theorem mem_lacking (g : Graph) (h : NodeHandle) (x : GraphNode) (hx : g.node? h = some x)
    (r : PortData) (hr : r ∈ x.records) (c : PortConnection) (hc : c ∈ r.connections)
    (k : NodeHandle) (y : GraphNode) (hk : g.handleOf c.nodeGuid = some k)
    (hy : g.node? k = some y) (harray : y.descriptor.isArray c.portName = true)
    (hslot : y.port? c.portName c.portIndex = none) (hindex : c.portIndex < maxArraySlots) :
    ⟨k, c.portName, c.portIndex⟩ ∈ g.lacking := by
  have hmissing : g.missingSlot x c = [.inl ⟨k, c.portName, c.portIndex⟩] := by
    unfold missingSlot
    simp only [hk, hy, harray, hslot]
    rw [if_neg (by simp), if_neg (by omega)]
  refine List.mem_filterMap.mpr ⟨.inl ⟨k, c.portName, c.portIndex⟩, ?_, rfl⟩
  refine List.mem_flatMap.mpr ⟨(h, x), (Arena.mem_toList_iff g.nodes h x).mpr hx, ?_⟩
  refine List.mem_flatMap.mpr ⟨c, List.mem_flatMap.mpr ⟨r, hr, hc⟩, ?_⟩
  rw [hmissing]
  exact List.mem_singleton_self _

end Graph

/-- Every connection into an array port has its slot, if it is below the limit and the
    node declares no name twice. -/
def Network.Opened (n : Network) : Prop :=
  ∀ h x, n.node? h = some x → ∀ r ∈ x.records, ∀ c ∈ r.connections,
    ∀ k y, n.node? k = some y → y.guid = c.nodeGuid →
      (y.descriptor.ports.map (·.name)).Nodup → c.portIndex < maxArraySlots →
        ∀ d, y.descriptor.port? c.portName = some d → d.array = true →
          Layout.HasSlot y.records d c.portIndex

/-- Links do not matter for the slots that are there. -/
theorem Network.Opened.unlinked {n : Network} (hn : n.Opened) : n.unlinked.Opened := by
  intro h _ hx' r hr c hc k _ hy' hguid hnames hindex d hd harray
  rw [Network.node?_unlinked] at hx' hy'
  obtain ⟨x, hx, rfl⟩ := Option.map_eq_some_iff.mp hx'
  obtain ⟨y, hy, rfl⟩ := Option.map_eq_some_iff.mp hy'
  exact hn h x hx r hr c hc k y hy hguid hnames hindex d hd harray

namespace Graph

theorem addIncomingSlots_opened (g : Graph) (s : Store)
    (hlaid : ∀ h x, g.node? h = some x → x.LaidOut) (hdistinct : g.toNetwork.Distinct) :
    (g.addIncomingSlots s).1.toNetwork.Opened := by
  have hdiffers := g.differs_addIncomingSlots s hlaid
  intro h x' hx' r hr c hc k y' hy' hguid hnames hindex d hd harray
  rw [hdiffers.node] at hx' hy'
  obtain ⟨x, hx, rfl⟩ := Option.map_eq_some_iff.mp hx'
  obtain ⟨y, hy, rfl⟩ := Option.map_eq_some_iff.mp hy'
  obtain ⟨opened, hopened, hempty⟩ := withSlots_eq_append g.lacking h x.records
  obtain ⟨more, hmore, _⟩ := withSlots_eq_append g.lacking k y.records
  -- a record with a connection was there before
  have hr' : r ∈ x.records := by
    have hmem : r ∈ withSlots g.lacking h x.records := hr
    rw [hopened] at hmem
    exact mem_of_connected r hmem hempty (List.ne_nil_of_mem hc)
  have hk : g.handleOf c.nodeGuid = some k := by
    have hy_guid : y.guid = c.nodeGuid := hguid
    rw [← hy_guid]
    exact hdistinct.handleOf k y hy
  show Layout.HasSlot (withSlots g.lacking k y.records) d c.portIndex
  cases hslot : y.port? c.portName c.portIndex with
  | some p =>
    rw [hmore]
    exact (GraphNode.hasSlot_of_port? (hlaid k y hy) hnames _ _ p hslot d hd).append more
  | none =>
    have hisArray : y.descriptor.isArray c.portName = true :=
      (y.descriptor.isArray_eq_true_iff c.portName).mpr ⟨d, hd, harray⟩
    have hlacking := g.mem_lacking h x hx r hr' c hc k y hk hy hisArray hslot hindex
    obtain ⟨r', hr', hname, hindex'⟩ := exists_mem_withSlots g.lacking _ hlacking y.records
    have hdname : d.name = c.portName := NodeDescriptor.name_of_port? hd
    have hrecorded := Layout.hasSlot_of_mem harray r' hr' (hname.trans hdname.symm)
      (hindex'.trans_lt hindex)
    rw [hindex'] at hrecorded
    exact hrecorded

/-! ## Section 6: Hydrating -/

theorem addVariables_eq (g : Graph) (data : List VariableData) (s : Store) :
    (g.addVariables data s).1.nodes = g.nodes ∧ (g.addVariables data s).1.order = g.order ∧
      (g.addVariables data s).2.guidsMade = s.guidsMade := by
  induction data generalizing g s with
  | nil => exact ⟨rfl, rfl, rfl⟩
  | cons d rest ih => exact ih { g with blackboard := _ } { s with vars := _ }

theorem layOutAll_guidsMade (g : Graph) (hs : List NodeHandle) (s : Store) :
    (g.layOutAll hs s).2.guidsMade = s.guidsMade := by
  induction hs generalizing g s with
  | nil => rfl
  | cons h rest ih =>
    refine (ih (g.layOut h s).1 (g.layOut h s).2).trans ?_
    unfold layOut
    cases g.node? h with
    | none => rfl
    | some x => rfl

theorem addNodes_guidsMade (g : Graph) (registry : Registry) (data : List NodeData) (s : Store) :
    s.guidsMade ≤ (g.addNodes registry data s).2.guidsMade := by
  induction data generalizing g s with
  | nil => exact le_refl _
  | cons d rest ih =>
    obtain ⟨x, t, heq, ht, _⟩ := g.addNode_eq registry d s
    have hfirst : s.guidsMade ≤ (g.addNode registry d s).2.guidsMade := by
      rw [heq, ← ht]
      exact g.insert_guidsMade x t
    exact hfirst.trans (ih _ _)

/-- Hydrate a graph up to the slots for connections. -/
def placeNodes (registry : Registry) (data : GraphData) : Work Graph := do
  let g ← create data.name
  let g ← g.addNodes registry data.nodes
  g.addVariables data.vars

/-- The stages of hydrating a network. -/
theorem placeAll_eq (registry : Registry) (data : GraphData) (s : Store) :
    placeAll registry data s =
      let placed := placeNodes registry data s
      placed.1.addIncomingSlots placed.2 := rfl

theorem placeAll_guidsMade (registry : Registry) (data : GraphData) (s : Store) :
    s.guidsMade ≤ (placeAll registry data s).2.guidsMade := by
  have hslots : ∀ (k : Graph) (t : Store), (k.addIncomingSlots t).2.guidsMade = t.guidsMade :=
    fun k t => layOutAll_guidsMade _ _ _
  rw [placeAll_eq]
  dsimp only
  rw [hslots]
  refine le_of_le_of_eq ?_ (addVariables_eq _ _ _).2.2.symm
  exact addNodes_guidsMade (create data.name s).1 registry data.nodes (create data.name s).2

/-- The nodes that are placed are the saved ones.  Only where a guid is empty one is made. -/
theorem placeNodes_carries (registry : Registry) (data : GraphData) (s : Store)
    (hnodup : (data.nodes.map (·.guid)).Nodup)
    (hfresh : ∀ d ∈ data.nodes, d.guid = "" → s.Unmade (data.nodes.map (·.guid))) :
    (placeNodes registry data s).1.toNetwork.Carries registry data.nodes := by
  obtain ⟨created, t, hcreate⟩ : ∃ created t, create data.name s = (created, t) := ⟨_, _, rfl⟩
  obtain ⟨placed, u, hadd⟩ : ∃ placed u, created.addNodes registry data.nodes t = (placed, u) :=
    ⟨_, _, rfl⟩
  have hcreated := create_consistent data.name s
  have ht : t.guidsMade = s.guidsMade := by
    rw [show t = (create data.name s).2 from (congrArg Prod.snd hcreate).symm]
    rfl
  have hempty : created.placed = [] := by
    rw [show created = (create data.name s).1 from (congrArg Prod.fst hcreate).symm]
    rfl
  rw [hcreate] at hcreated
  have hconsistent := addNodes_consistent created registry data.nodes t hcreated
  have hnodes := created.addNodes_carries registry _ [] data.nodes t hcreated
    (fun d hd hnone => (hfresh d hd hnone).later ht.ge) hnodup
    (fun d hd => List.mem_map_of_mem hd) (hempty ▸ .nil)
  rw [hadd] at hconsistent hnodes
  have hplaced : placed.toNetwork.Carries registry data.nodes := ⟨hconsistent.sound, hnodes⟩
  have hbound : placeNodes registry data s = placed.addVariables data.vars u := by
    unfold placeNodes
    simp only [bind, StateT.bind, hcreate, hadd]
  -- variables do not touch the nodes
  obtain ⟨hsame, horder, _⟩ := placed.addVariables_eq data.vars u
  rw [hbound]
  refine hplaced.differs (f := fun _ x => x) ⟨horder, fun h => ?_⟩ ?_ fun _ _ _ hx => hx
  · unfold Network.node?
    rw [hsame, Option.map_id']
  · rw [hsame]
    exact hplaced.sound.arena

/-- Hydrating gives a network that carries the saved nodes, with a slot for every connection. -/
theorem placeAll_carries (registry : Registry) (data : GraphData) (s : Store)
    (hnodup : (data.nodes.map (·.guid)).Nodup)
    (hfresh : ∀ d ∈ data.nodes, d.guid = "" → s.Unmade (data.nodes.map (·.guid))) :
    (placeAll registry data s).1.toNetwork.Carries registry data.nodes ∧
      (placeAll registry data s).1.toNetwork.Opened := by
  have hplaced := placeNodes_carries registry data s hnodup hfresh
  rw [placeAll_eq]
  exact ⟨addIncomingSlots_carries _ _ _ _ hplaced,
    addIncomingSlots_opened _ _ hplaced.laidOut (hplaced.distinct hnodup)⟩

end Graph
end FlowGraph
