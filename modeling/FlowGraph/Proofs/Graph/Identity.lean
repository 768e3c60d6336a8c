import FlowGraph.Proofs.Graph.Edited

/-! # Identity of nodes

    A node has a handle, a position in the order and a guid.  In every state of a live graph
    these name the same nodes (`Network.Identified`), also if operations are given stale
    handles, empty guids or guids that are taken.

    What is entered in a directory for each operation on its own, the guid of a node that was
    added and that of a node that was removed, is at any time all that there is to know about
    the guids (`Directory.Lists`).  An operation adds one name, drops one, or leaves the names
    alone (`apply_renames`), and that carries the proof.

    Main statement: `identified_of_run`, which also says which node of a saved graph keeps a
    guid that several of them have. -/

namespace FlowGraph

/-! ## Section 1: Handles, positions and guids -/

namespace Network

/-- The guid of the node of a handle. -/
def names (n : Network) (h : NodeHandle) : Option String := (n.node? h).map (·.guid)

theorem names_eq_some_iff (n : Network) (h : NodeHandle) (guid : String) :
    n.names h = some guid ↔ ∃ x, n.node? h = some x ∧ x.guid = guid := Option.map_eq_some_iff

theorem names_eq_none_iff (n : Network) (h : NodeHandle) :
    n.names h = none ↔ n.node? h = none := Option.map_eq_none_iff

/-- Guids are not empty, and no two nodes have the same one. -/
structure Named (n : Network) : Prop where
  distinct : ∀ h k guid, n.names h = some guid → n.names k = some guid → h = k
  ne_empty : ∀ h, n.names h ≠ some ""

theorem handleOf_eq_some_iff {n : Network} (hn : n.Named) (guid : String) (h : NodeHandle) :
    n.handleOf guid = some h ↔ n.names h = some guid := by
  have hfound : ∀ k, n.handleOf guid = some k → n.names k = some guid := fun k hk =>
    (n.names_eq_some_iff k guid).mpr (n.exists_of_handleOf guid k hk)
  refine ⟨hfound h, fun hname => ?_⟩
  obtain ⟨x, hx, rfl⟩ := (n.names_eq_some_iff h guid).mp hname
  obtain ⟨k, hk⟩ := n.exists_handleOf h x hx
  rw [hk, hn.distinct k h x.guid (hfound k hk) hname]

/-- There are as many nodes as the order lists. -/
theorem Sound.size_eq {n : Network} (hn : n.Sound) : n.size = n.order.length := by
  have hperm : (n.nodes.toList.map Prod.fst).Perm n.order := by
    refine (List.perm_ext_iff_of_nodup n.nodes.nodup_map_fst_toList hn.nodup_order).mpr fun h => ?_
    rw [hn.mem_order_iff, List.mem_map]
    constructor
    · rintro ⟨⟨k, x⟩, hmem, rfl⟩
      exact ⟨x, (n.nodes.mem_toList_iff k x).mp hmem⟩
    · rintro ⟨x, hx⟩
      exact ⟨(h, x), (n.nodes.mem_toList_iff h x).mpr hx, rfl⟩
  have hlength := hperm.length_eq
  rw [List.length_map, ← hn.arena.size_eq] at hlength
  exact hlength

/-- Handles, positions and guids name the same nodes. -/
structure Identified (n : Network) : Prop where
  /-- The order lists the nodes, each once. -/
  nodup_order : n.order.Nodup
  mem_order_iff : ∀ h, h ∈ n.order ↔ ∃ x, n.node? h = some x
  /-- A guid leads to the node that has it. -/
  handleOf_iff : ∀ guid h, n.handleOf guid = some h ↔ ∃ x, n.node? h = some x ∧ x.guid = guid
  guid_ne_empty : ∀ h x, n.node? h = some x → x.guid ≠ ""
  guid_injective : ∀ h k x y, n.node? h = some x → n.node? k = some y → x.guid = y.guid → h = k
  size_eq : n.size = {h | ∃ x, n.node? h = some x}.ncard
  /-- A node has a position, and a position a node. -/
  indexOf_iff : ∀ h i, n.indexOf h = some i ↔ n.handleAt i = some h
  exists_indexOf_iff : ∀ h, (∃ i, n.indexOf h = some i) ↔ ∃ x, n.node? h = some x
  exists_handleAt_iff : ∀ i, (∃ h, n.handleAt i = some h) ↔ i < n.size

theorem identified_of_named {n : Network} (hn : n.Sound) (hnamed : n.Named) : n.Identified where
  nodup_order := hn.nodup_order
  mem_order_iff := hn.mem_order_iff
  handleOf_iff guid h :=
    (handleOf_eq_some_iff hnamed guid h).trans (n.names_eq_some_iff h guid)
  guid_ne_empty h x hx hguid :=
    hnamed.ne_empty h ((n.names_eq_some_iff h "").mpr ⟨x, hx, hguid⟩)
  guid_injective h k x y hx hy hguid :=
    hnamed.distinct h k y.guid ((n.names_eq_some_iff h _).mpr ⟨x, hx, hguid⟩)
      ((n.names_eq_some_iff k _).mpr ⟨y, hy, rfl⟩)
  size_eq := by
    have hnodes : {h | ∃ x, n.node? h = some x} = (n.order.toFinset : Set NodeHandle) := by
      ext h
      simp [← hn.mem_order_iff]
    rw [hnodes, Set.ncard_coe_finset, List.toFinset_card_of_nodup hn.nodup_order, hn.size_eq]
  indexOf_iff := n.indexOf_eq_some_iff hn
  exists_indexOf_iff h := by
    constructor
    · rintro ⟨i, hi⟩
      exact (hn.mem_order_iff h).mp (List.mem_of_getElem? ((n.indexOf_eq_some_iff hn h i).mp hi))
    · rintro ⟨x, hx⟩
      obtain ⟨i, hi, _⟩ := n.exists_indexOf hn h x hx
      exact ⟨i, hi⟩
  exists_handleAt_iff i := by
    rw [hn.size_eq]
    exact ⟨fun ⟨h, hh⟩ => (List.getElem?_eq_some_iff.mp hh).1,
      fun hi => ⟨n.order[i], List.getElem?_eq_getElem hi⟩⟩

end Network

/-! ## Section 2: Directories -/

/-- The handles of guids, and how many nodes there are, kept by entries. -/
structure Directory where
  handles : String → Option NodeHandle := fun _ => none
  count : Nat := 0

namespace Directory

/-- Enter a node. -/
def add (d : Directory) (guid : String) (h : NodeHandle) : Directory :=
  ⟨Function.update d.handles guid (some h), d.count + 1⟩

/-- Strike a node out. -/
def erase (d : Directory) (guid : String) : Directory :=
  ⟨Function.update d.handles guid none, d.count - 1⟩

/-- The directory is right about a network. -/
structure Lists (d : Directory) (n : Network) : Prop where
  handles : d.handles = n.handleOf
  count : d.count = n.size

end Directory

namespace Network

/-- How names differ after an operation, and the entry for it. -/
inductive Renames (n m : Network) : (Directory → Directory) → Prop where
  /-- The nodes have the names that they had. -/
  | same (order : m.order = n.order) (names : m.names = n.names) :
      Renames n m fun d => d
  /-- A new node is listed last, under a guid of its own. -/
  | added (h : NodeHandle) (guid : String) (order : m.order = n.order ++ [h])
      (vacant : n.names h = none) (names : m.names = Function.update n.names h (some guid))
      (unused : n.handleOf guid = none) (ne_empty : guid ≠ "") : Renames n m (·.add guid h)
  /-- A node is gone. -/
  | removed (h : NodeHandle) (guid : String) (name : n.names h = some guid)
      (order : m.order = n.order.filter (· ≠ h))
      (names : m.names = Function.update n.names h none) : Renames n m (·.erase guid)

variable {n m : Network} {entry : Directory → Directory}

theorem Named.not_names_of_unused {guid : String} (hn : n.Named)
    (hunused : n.handleOf guid = none) (h : NodeHandle) : n.names h ≠ some guid := by
  intro hname
  rw [(handleOf_eq_some_iff hn guid h).mpr hname] at hunused
  cases hunused

theorem Renames.named (hn : n.Named) (hm : n.Renames m entry) : m.Named := by
  cases hm with
  | same _ hnames => exact ⟨hnames ▸ hn.distinct, hnames ▸ hn.ne_empty⟩
  | added h guid _ _ hnames hunused hne =>
    refine ⟨fun j k name hj hk => ?_, fun j hj => ?_⟩
    · rw [hnames, Function.update_apply] at hj hk
      by_cases hjh : j = h
      · by_cases hkh : k = h
        · rw [hjh, hkh]
        · rw [if_pos hjh] at hj
          rw [if_neg hkh, ← hj] at hk
          exact absurd hk (hn.not_names_of_unused hunused k)
      · rw [if_neg hjh] at hj
        by_cases hkh : k = h
        · rw [if_pos hkh] at hk
          rw [← hk] at hj
          exact absurd hj (hn.not_names_of_unused hunused j)
        · rw [if_neg hkh] at hk
          exact hn.distinct j k name hj hk
    · rw [hnames, Function.update_apply] at hj
      by_cases hjh : j = h
      · rw [if_pos hjh] at hj
        exact hne (Option.some.inj hj)
      · rw [if_neg hjh] at hj
        exact hn.ne_empty j hj
  | removed h guid _ _ hnames =>
    -- a name that is left was there before
    have hold : ∀ j name, m.names j = some name → n.names j = some name := by
      intro j name hj
      rw [hnames, Function.update_apply] at hj
      by_cases hjh : j = h
      · rw [if_pos hjh] at hj
        cases hj
      · rwa [if_neg hjh] at hj
    exact ⟨fun j k name hj hk => hn.distinct j k name (hold j name hj) (hold k name hk),
      fun j hj => hn.ne_empty j (hold j "" hj)⟩

/-- The entries keep a directory right. -/
theorem Renames.lists {d : Directory} (hn : n.Sound) (hm : m.Sound) (hnamed : n.Named)
    (hrenames : n.Renames m entry) (hd : d.Lists n) : (entry d).Lists m := by
  have hafter := hrenames.named hnamed
  -- a guid leads to the same node as before if the same node has it
  have hhandles : ∀ guid, (∀ h, m.names h = some guid ↔ n.names h = some guid) →
      d.handles guid = m.handleOf guid := by
    intro guid hsame
    rw [hd.handles]
    apply Option.ext
    intro h
    rw [handleOf_eq_some_iff hnamed, handleOf_eq_some_iff hafter, hsame]
  cases hrenames with
  | same horder hnames =>
    refine ⟨funext fun guid => hhandles guid fun h => by rw [hnames], ?_⟩
    rw [hd.count, hn.size_eq, hm.size_eq, horder]
  | added h guid horder hvacant hnames hunused _ =>
    refine ⟨funext fun name => ?_, ?_⟩
    · show Function.update d.handles guid (some h) name = m.handleOf name
      rw [Function.update_apply]
      by_cases hname : name = guid
      · rw [if_pos hname, hname, eq_comm, handleOf_eq_some_iff hafter, hnames,
          Function.update_self]
      · rw [if_neg hname]
        refine hhandles name fun k => ?_
        rw [hnames, Function.update_apply]
        by_cases hk : k = h
        · rw [if_pos hk, hk, hvacant]
          simp [Ne.symm hname]
        · rw [if_neg hk]
    · show d.count + 1 = m.size
      rw [hd.count, hn.size_eq, hm.size_eq, horder, List.length_append, List.length_singleton]
  | removed h guid hname horder hnames =>
    refine ⟨funext fun name => ?_, ?_⟩
    · show Function.update d.handles guid none name = m.handleOf name
      rw [Function.update_apply]
      by_cases hguid : name = guid
      · -- no other node has the guid
        rw [if_pos hguid, eq_comm]
        cases hk : m.handleOf name with
        | none => rfl
        | some k =>
          rw [handleOf_eq_some_iff hafter, hnames, Function.update_apply] at hk
          by_cases hkh : k = h
          · rw [if_pos hkh] at hk
            cases hk
          · rw [if_neg hkh, hguid] at hk
            exact absurd (hnamed.distinct k h guid hk hname) hkh
      · rw [if_neg hguid]
        refine hhandles name fun k => ?_
        rw [hnames, Function.update_apply]
        by_cases hk : k = h
        · rw [if_pos hk, hk, hname]
          simp [Ne.symm hguid]
        · rw [if_neg hk]
    · show d.count - 1 = m.size
      have hmem : h ∈ n.order := by
        obtain ⟨x, hx, _⟩ := (n.names_eq_some_iff h guid).mp hname
        exact (hn.mem_order_iff h).mpr ⟨x, hx⟩
      have herase : n.order.filter (· ≠ h) = n.order.erase h := by
        rw [hn.nodup_order.erase_eq_filter]
        refine List.filter_congr fun k _ => ?_
        by_cases hk : k = h
        · simp [hk]
        · simp [hk]
      rw [hd.count, hn.size_eq, hm.size_eq, horder, herase, List.length_erase_of_mem hmem]

theorem Keeps.names_eq (hk : n.Keeps m) : m.names = n.names := by
  funext h
  have hrel := hk.node h
  unfold names
  generalize n.node? h = x, m.node? h = y at hrel
  cases hrel with
  | none => rfl
  | some hxy => rw [Option.map_some, Option.map_some, hxy.guid]

theorem Keeps.renames (hk : n.Keeps m) : n.Renames m fun d => d := .same hk.order hk.names_eq

end Network

namespace Graph

open Network

/-! ## Section 3: Operations -/

/-- The guid that an operation is given for a new node. -/
def Operation.guid? : Operation → Option String
  | .addNode _ data => some data.guid
  | .addLive guid _ _ => some guid
  | _ => none

/-- If a guid has to be made, it is that of no node. -/
def Operation.MakesFresh (op : Operation) (st : State) : Prop :=
  ∀ guid ∈ op.guid?, guid = "" ∨ (st.1.handleOf guid).isSome = true →
    st.1.handleOf st.2.freshGuid.1 = none

/-- Whenever one of the operations makes a guid, it is that of no node. -/
def MakeFresh : List Operation → State → Prop
  | [], _ => True
  | op :: rest, st => op.MakesFresh st ∧ MakeFresh rest (op.apply st)

/-- The entry for a node that was added. -/
def enterAdded (added : NodeHandle × Graph) (d : Directory) : Directory :=
  d.add ((added.2.names added.1).getD "") added.1

/-- The entry for an operation. -/
def Operation.enter (op : Operation) (st : State) (d : Directory) : Directory :=
  match op with
  | .addNode registry data => enterAdded (st.1.addNode registry data st.2).1 d
  | .addLive guid descriptor behavior =>
    enterAdded (st.1.addLive guid descriptor behavior st.2).1 d
  | .removeNode h =>
    match st.1.node? h with
    | some x => d.erase x.guid
    | none => d
  | _ => d

/-- The directory after some operations. -/
def directory : List Operation → State → Directory → Directory
  | [], _, d => d
  | op :: rest, st, d => directory rest (op.apply st) (op.enter st d)

theorem insert_handle (g : Graph) (x : GraphNode) (s : Store) :
    (g.insert x s).1.1 = (g.nodes.insert (g.ensureGuid x s).1).1 := by
  obtain ⟨y, t, hensured⟩ : ∃ y t, g.ensureGuid x s = (y, t) := ⟨_, _, rfl⟩
  unfold insert
  simp only [bind, StateT.bind, hensured]
  cases y.invalid with
  | none => rfl
  | some invalid => rfl

/-- The guid that a node gets is neither empty nor taken. -/
theorem ensureGuid_fresh (g : Graph) (x : GraphNode) (s : Store)
    (hfresh : x.guid = "" ∨ (g.handleOf x.guid).isSome = true → g.handleOf s.freshGuid.1 = none) :
    (g.ensureGuid x s).1.guid ≠ "" ∧ g.handleOf (g.ensureGuid x s).1.guid = none := by
  rcases g.ensureGuid_cases x s with ⟨hne, hnone, heq⟩ | ⟨htaken, heq, _⟩
  · rw [heq]
    exact ⟨hne, hnone⟩
  · rw [heq]
    refine ⟨s.freshGuid_ne_empty, hfresh (htaken.imp_right ?_)⟩
    rintro ⟨h, hh⟩
    rw [hh]
    rfl

theorem insert_renames (g : Graph) (x : GraphNode) (s : Store) (hg : g.toNetwork.Sound)
    (hfresh : x.guid = "" ∨ (g.handleOf x.guid).isSome = true → g.handleOf s.freshGuid.1 = none) :
    g.Renames (g.insert x s).1.2.toNetwork (enterAdded (g.insert x s).1) := by
  obtain ⟨hnodes, horder, _⟩ := g.insert_ensured x s
  obtain ⟨hne, hunused⟩ := g.ensureGuid_fresh x s hfresh
  have hhandle := g.insert_handle x s
  generalize (g.ensureGuid x s).1 = y at hnodes horder hne hunused hhandle
  have hnames : (g.insert x s).1.2.names
      = Function.update g.names (g.insert x s).1.1 (some y.guid) := by
    funext k
    unfold names
    rw [hg.node?_insert y hnodes, hhandle, Function.update_apply]
    by_cases hk : k = (g.nodes.insert y).1
    · rw [if_pos hk, if_pos hk, Option.map_some]
    · rw [if_neg hk, if_neg hk]
  have hentry : enterAdded (g.insert x s).1 = (·.add y.guid (g.insert x s).1.1) := by
    unfold enterAdded
    rw [hnames, Function.update_self, Option.getD_some]
  rw [hentry]
  refine .added _ y.guid (by rw [horder, hhandle]) ?_ hnames hunused hne
  rw [names_eq_none_iff, hhandle]
  exact Arena.get?_insert_fresh _ _ hg.arena

theorem removeNode_renames (g : Graph) (h : NodeHandle) (s : Store) :
    g.Renames (g.removeNode s.vars h).2.toNetwork (Operation.enter (.removeNode h) (g, s)) := by
  unfold removeNode
  cases hr : g.nodes.remove h with
  | none =>
    have hnone : g.node? h = none := Option.map_eq_none_iff.mp hr
    have hentry : Operation.enter (.removeNode h) (g, s) = fun d => d := by
      funext d
      simp only [Operation.enter, hnone]
    rw [hentry]
    exact .same rfl rfl
  | some r =>
    obtain ⟨x, nodes⟩ := r
    have hget := fun k => Arena.get?_remove g.nodes nodes h k x hr
    have hx : g.node? h = some x := (hget h).1
    have hentry : Operation.enter (.removeNode h) (g, s) = (·.erase x.guid) := by
      funext d
      simp only [Operation.enter, hx]
    rw [hentry]
    refine .removed h x.guid ((g.names_eq_some_iff h _).mpr ⟨x, hx, rfl⟩) rfl ?_
    -- records of the nodes that are left do not matter
    funext k
    show (Arena.get? (Arena.map nodes _) k).map _ = _
    rw [Arena.get?_map, Option.map_map, (hget k).2, Function.update_apply]
    by_cases hk : k = h
    · rw [if_pos hk, if_pos hk, Option.map_none]
    · rw [if_neg hk, if_neg hk]
      rfl

theorem link_names (n : Network) (conversions : Conversions) :
    (n.link conversions).1.names = n.names := by
  have hunlinked : ∀ m : Network, m.unlinked.names = m.names := by
    intro m
    funext h
    unfold names
    rw [m.node?_unlinked, Option.map_map]
    rfl
  rw [← hunlinked (n.link conversions).1, n.link_unlinked, hunlinked]

theorem compile_renames (g : Graph) (conversions : Conversions) (s : Store) :
    g.Renames (g.compile conversions s).1.1.toNetwork fun d => d := by
  have hlinked : ∀ m : Network, m.nodes = (g.link conversions).1.nodes →
      m.order = (g.link conversions).1.order → g.Renames m fun d => d := by
    intro m hnodes horder
    refine .same (horder.trans (g.link_order conversions)) (Eq.trans ?_ (link_names _ conversions))
    unfold names node?
    rw [hnodes]
  rcases g.compile_cases conversions s with ⟨_, _, heq⟩ | ⟨_, _, _, heq⟩ | ⟨_, _, heq, _⟩
  · exact hlinked _ (by rw [heq]) (by rw [heq])
  · exact hlinked _ (by rw [heq]) (by rw [heq])
  · exact hlinked _ (by rw [heq]) (by rw [heq])

/-- An operation adds one name, drops one, or leaves them alone. -/
theorem apply_renames (op : Operation) (st : State) (hst : st.1.toNetwork.Sound)
    (hfresh : op.MakesFresh st) : st.1.Renames (op.apply st).1.toNetwork (op.enter st) := by
  obtain ⟨g, s⟩ := st
  cases op with
  | addNode registry data =>
    obtain ⟨x, t, heq, ht, hguid, _⟩ := g.addNode_eq registry data s
    show g.Renames (g.addNode registry data s).1.2.toNetwork
      (enterAdded (g.addNode registry data s).1)
    rw [heq]
    refine g.insert_renames x t hst fun htaken => ?_
    have hmade : t.freshGuid.1 = s.freshGuid.1 := by simp only [Store.freshGuid, ht]
    rw [hmade]
    exact hfresh data.guid rfl (hguid ▸ htaken)
  | addLive guid descriptor behavior =>
    have hmade := makeNode_guidsMade ({ guid, type := descriptor.identity.text } : NodeData)
      ⟨descriptor.identity, [], descriptor, behavior, none, none⟩ s
    refine g.insert_renames _ _ hst fun htaken => ?_
    have hsame : (makeNode ({ guid, type := descriptor.identity.text } : NodeData)
        ⟨descriptor.identity, [], descriptor, behavior, none, none⟩ s).2.freshGuid.1
          = s.freshGuid.1 := by simp only [Store.freshGuid, hmade]
    exact hsame ▸ hfresh guid rfl htaken
  | removeNode h => exact g.removeNode_renames h s
  | connect source target =>
    show g.Renames (Operation.apply (.connect source target) (g, s)).1.toNetwork fun d => d
    unfold Operation.apply
    dsimp only
    split
    · rename_i g' s' heq
      obtain ⟨k, hk, rfl⟩ := g.connect_invalidates source target s g' (by rw [heq])
      exact (hk.network.trans (l := k.invalidate.toNetwork) (.of_nodes rfl rfl)).renames
    · exact .same rfl rfl
  | setConstant slot v => exact (g.setConstant_keeps slot v s).network.renames
  | addFunction name f => exact .same rfl rfl
  | addGroup group => exact .same rfl rfl
  | clearPaths => exact .same rfl rfl
  | dispose => exact .same rfl rfl
  | compile conversions => exact g.compile_renames conversions s
  | elsewhere work => exact .same rfl rfl

/-- Names stay names of nodes, and the directory stays right. -/
theorem run_lists (ops : List Operation) (st : State) (d : Directory)
    (hst : st.1.toNetwork.Consistent) (hnamed : st.1.Named) (hd : d.Lists st.1.toNetwork)
    (hfresh : MakeFresh ops st) :
    (run ops st).1.Named ∧ (directory ops st d).Lists (run ops st).1.toNetwork := by
  induction ops generalizing st d with
  | nil => exact ⟨hnamed, hd⟩
  | cons op rest ih =>
    have hrenames := apply_renames op st hst.sound hfresh.1
    have hafter := apply_consistent op st hst
    exact ih (op.apply st) (op.enter st d) hafter (hrenames.named hnamed)
      (hrenames.lists hst.sound hafter.sound hnamed hd) hfresh.2

end Graph

/-! ## Section 4: Hydrating -/

/-- A live node is made from a saved one: it is what that is resolved to, and has its records
    and their slots.  It may have another guid. -/
structure GraphNode.MadeFrom (registry : Registry) (d : NodeData) (x : GraphNode) : Prop where
  restores : ∃ vs, ({ x with guid := d.guid } : GraphNode).Restores registry vs d
  /-- Slots may have been opened at array ports. -/
  records : ∃ opened, x.records = d.ports ++ opened ∧ ∀ r ∈ opened, r.connections = []
  laidOut : x.LaidOut

theorem GraphNode.MadeFrom.withSlots {registry : Registry} {d : NodeData} {x : GraphNode}
    (hx : x.MadeFrom registry d) (missing : List Graph.MissingSlot) (h : NodeHandle) :
    (GraphNode.laidOut { x with records := Graph.withSlots missing h x.records }).MadeFrom
      registry d := by
  obtain ⟨vs, hrestores⟩ := hx.restores
  obtain ⟨opened, hopened, hempty⟩ := hx.records
  obtain ⟨more, hmore, hnone⟩ := Graph.withSlots_eq_append missing h x.records
  refine ⟨⟨vs, hrestores.laidOut _⟩, ⟨opened ++ more, ?_, fun r hr => ?_⟩, rfl⟩
  · show Graph.withSlots missing h x.records = _
    rw [hmore, hopened, List.append_assoc]
  · exact (List.mem_append.mp hr).elim (hempty r) (hnone r)

/-- The first saved node of a guid has that guid. -/
def Network.FirstKeeps (nodes : List NodeData) (n : Network) : Prop :=
  ∀ i d, nodes[i]? = some d → d.guid ≠ "" → d.guid ∉ (nodes.take i).map (·.guid) →
    ∃ h, n.handleAt i = some h ∧ n.names h = some d.guid

namespace Graph

open Network

theorem run_addNodes (registry : Registry) (nodes : List NodeData) (st : State) :
    run (nodes.map (.addNode registry)) st = st.1.addNodes registry nodes st.2 := by
  induction nodes generalizing st with
  | nil => rfl
  | cons d rest ih => exact ih _

/-- Guids of saved nodes that are not made do not get in the way of those that are. -/
theorem makeFresh_addNodes (registry : Registry) (nodes : List NodeData) (g : Graph) (s : Store)
    (hg : g.toNetwork.Consistent) (hguarded : g.toNetwork.Guarded s)
    (hunmade : ∀ d ∈ nodes, s.Unmade [d.guid]) :
    MakeFresh (nodes.map (.addNode registry)) (g, s) := by
  induction nodes generalizing g s with
  | nil => trivial
  | cons d rest ih =>
    have hnone : g.handleOf s.freshGuid.1 = none := by
      cases hh : g.handleOf s.freshGuid.1 with
      | none => rfl
      | some k =>
        obtain ⟨x, hx, hguid⟩ := g.exists_of_handleOf _ k hh
        exact absurd (List.mem_singleton.mpr hguid.symm) (hguarded k x hx s (le_refl _))
    obtain ⟨x, t, heq, ht, hguid, _⟩ := g.addNode_eq registry d s
    have hlater : s.guidsMade ≤ (g.addNode registry d s).2.guidsMade := by
      rw [heq, ← ht]
      exact g.insert_guidsMade x t
    have hconsistent := g.addNode_consistent registry d s hg
    obtain ⟨_, _, _, _, _, hafter⟩ := g.insert_guarded x t hg.sound (hguarded.later ht.ge)
      (hguid ▸ (hunmade d List.mem_cons_self).later ht.ge)
    rw [← heq] at hafter
    exact ⟨fun _ _ _ => hnone, ih _ _ hconsistent hafter
      fun e he => (hunmade e (List.mem_cons_of_mem d he)).later hlater⟩

/-- The node at each position is made from the saved one there, and has its guid or one that
    is not saved. -/
def Lives (registry : Registry) (guids : List String) (nodes : List NodeData) (g : Graph) : Prop :=
  List.Forall₂ (fun d e => e.2.MadeFrom registry d ∧ (e.2.guid = d.guid ∨ e.2.guid ∉ guids))
    nodes g.placed

/-- The node that is added is made from the saved one, and has its guid if that is not empty
    and no node before was saved with it. -/
theorem addNode_lives (registry : Registry) (guids : List String) (done : List NodeData)
    (d : NodeData) (g : Graph) (s : Store) (hg : g.toNetwork.Consistent)
    (hunmade : s.Unmade guids) (hd : d.guid ∈ guids) (hdone : Lives registry guids done g) :
    ∃ h x, (g.addNode registry d s).1.2.placed = g.placed ++ [(h, x)] ∧
      x.MadeFrom registry d ∧ (x.guid = d.guid ∨ x.guid ∉ guids) ∧
      (d.guid ≠ "" → d.guid ∉ done.map (·.guid) → x.guid = d.guid) := by
  obtain ⟨x, t, heq, _, hx, hrecords, hlaid, ht⟩ := g.addNode_restores registry d s
  obtain ⟨hnodes, horder, _⟩ := g.insert_ensured x t
  have hplaced := Network.placed_insert hg.sound _ hnodes horder
  have hmade : ∀ guid, ({ x with guid } : GraphNode).MadeFrom registry d := by
    intro guid
    exact ⟨⟨t.vars, rfl, hx.position, hx.type, hx.genericArguments, hx.descriptor, hx.behavior,
      hx.invalid, hx.vars⟩, ⟨[], by rw [List.append_nil]; exact hrecords, List.forall_mem_nil _⟩,
      hlaid⟩
  rw [heq]
  rcases g.ensureGuid_cases x t with ⟨_, _, hensured⟩ | ⟨htaken, hensured, _⟩
  · rw [hensured] at hplaced
    exact ⟨_, x, hplaced, hmade x.guid, .inl hx.guid, fun _ _ => hx.guid⟩
  · rw [hensured] at hplaced
    refine ⟨_, _, hplaced, hmade _, .inr (hunmade t ht.ge), fun hsome hfirst => ?_⟩
    -- no node before has the guid, be it saved or made
    have hnone : g.handleOf x.guid = none := by
      rw [hx.guid]
      refine handleOf_eq_none_of_forall₂ hg.sound hdone (fun e f hef hguid => ?_) hfirst
      rcases hef.2 with hsame | hnot
      · rw [← hsame, hguid]
      · exact absurd hd (hguid ▸ hnot)
    rcases htaken with hempty | ⟨k, hk⟩
    · exact absurd (hx.guid.symm.trans hempty) hsome
    · rw [hnone] at hk
      cases hk

theorem addNodes_lives (registry : Registry) (guids : List String) (done nodes : List NodeData)
    (g : Graph) (s : Store) (hg : g.toNetwork.Consistent) (hunmade : s.Unmade guids)
    (hguids : ∀ d ∈ nodes, d.guid ∈ guids) (hdone : Lives registry guids done g)
    (hfirst : g.toNetwork.FirstKeeps done) :
    Lives registry guids (done ++ nodes) (g.addNodes registry nodes s).1 ∧
      (g.addNodes registry nodes s).1.toNetwork.FirstKeeps (done ++ nodes) := by
  induction nodes generalizing g done s with
  | nil =>
    rw [List.append_nil]
    exact ⟨hdone, hfirst⟩
  | cons d rest ih =>
    have hafter := g.addNode_consistent registry d s hg
    obtain ⟨h, x, hplaced, hmade, hguid, hkeeps⟩ :=
      addNode_lives registry guids done d g s hg hunmade (hguids d List.mem_cons_self) hdone
    obtain ⟨_, _, heq, ht, _⟩ := g.addNode_eq registry d s
    have hlater : s.guidsMade ≤ (g.addNode registry d s).2.guidsMade := by
      rw [heq, ← ht]
      exact g.insert_guidsMade _ _
    have hlength : done.length = g.placed.length := hdone.length_eq
    have hat : ∀ (n : Network), n.Sound → ∀ i h x, n.placed[i]? = some (h, x) →
        n.handleAt i = some h ∧ n.names h = some x.guid := by
      intro n hn i h x hi
      refine ⟨?_, (n.names_eq_some_iff h _).mpr
        ⟨x, n.node?_of_mem_placed h x (List.mem_of_getElem? hi), rfl⟩⟩
      show n.order[i]? = some h
      rw [← n.map_fst_placed hn, List.getElem?_map, hi, Option.map_some]
    have hstep := ih (done ++ [d]) (g.addNode registry d s).1.2 (g.addNode registry d s).2 hafter
      (hunmade.later hlater) (fun e he => hguids e (List.mem_cons_of_mem d he)) ?_ ?_
    · rw [List.append_assoc] at hstep
      exact hstep
    · unfold Lives
      rw [hplaced]
      exact List.rel_append hdone (.cons ⟨hmade, hguid⟩ .nil)
    · intro i e hi hsome hnew
      by_cases hlt : i < done.length
      · -- an earlier node stays where it is
        rw [List.getElem?_append_left hlt] at hi
        rw [List.take_append_of_le_length hlt.le] at hnew
        obtain ⟨k, hk, hname⟩ := hfirst i e hi hsome hnew
        obtain ⟨y, hy, hyguid⟩ := (names_eq_some_iff _ k _).mp hname
        have hget := g.placed_getElem? hg.sound i k y hk hy
        have hin := hat _ hafter.sound i k y (by
          rw [hplaced, List.getElem?_append_left (hlength ▸ hlt)]
          exact hget)
        exact ⟨k, hin.1, hin.2.trans (congrArg some hyguid)⟩
      · have hi' : i = done.length := by
          have hbound := (List.getElem?_eq_some_iff.mp hi).1
          rw [List.length_append, List.length_singleton] at hbound
          omega
        subst hi'
        rw [List.getElem?_concat_length] at hi
        cases hi
        rw [List.take_left'] at hnew
        · have hin := hat _ hafter.sound done.length h x (by
            rw [hplaced, hlength, List.getElem?_concat_length])
          exact ⟨h, hin.1, hin.2.trans (congrArg some (hkeeps hsome hnew))⟩
        · rfl

/-- Hydrating makes a node from each saved one, in order. -/
theorem ofData_lives (registry : Registry) (data : GraphData) (s : Store)
    (hunmade : s.Unmade (data.nodes.map (·.guid))) :
    List.Forall₂ (fun d e => e.2.MadeFrom registry d) data.nodes
        (ofData registry data s).1.placed ∧
      (ofData registry data s).1.toNetwork.FirstKeeps data.nodes := by
  obtain ⟨created, t, hcreate, hconsistent, hempty, ht⟩ : ∃ created t,
      create data.name s = (created, t) ∧ created.toNetwork.Consistent ∧ created.placed = [] ∧
        t.guidsMade = s.guidsMade :=
    ⟨_, _, rfl, create_consistent data.name s, rfl, rfl⟩
  have hadded := addNodes_lives registry (data.nodes.map (·.guid)) [] data.nodes created t
    hconsistent (hunmade.later ht.ge) (fun d hd => List.mem_map_of_mem hd)
    (by unfold Lives; rw [hempty]; exact .nil) (fun i d hd => by simp at hd)
  have hplaced := addNodes_consistent created registry data.nodes t hconsistent
  have hkeeps := ofData_keeps registry data s
  rw [hcreate] at hkeeps
  obtain ⟨placed, u, hadd⟩ : ∃ placed u, created.addNodes registry data.nodes t = (placed, u) :=
    ⟨_, _, rfl⟩
  rw [hadd] at hadded hplaced hkeeps
  rw [List.nil_append] at hadded
  refine ⟨?_, ?_⟩
  · -- variables do not touch the nodes, and then slots are opened
    obtain ⟨bound, v, hbind⟩ : ∃ bound v, placed.addVariables data.vars u = (bound, v) :=
      ⟨_, _, rfl⟩
    have hall : placeAll registry data s = bound.addIncomingSlots v := by
      unfold placeAll
      simp only [bind, StateT.bind, hcreate, hadd, hbind]
    obtain ⟨hnodes, horder, _⟩ := placed.addVariables_eq data.vars u
    rw [hbind] at hnodes horder
    have hsame : bound.placed = placed.placed := by
      unfold Network.placed Network.node?
      rw [hnodes, horder]
    have hlaid : ∀ h x, bound.node? h = some x → x.LaidOut := by
      intro h x hx
      have hx' : placed.node? h = some x := by
        unfold node? at hx ⊢
        rw [← hnodes]
        exact hx
      obtain ⟨i, hi⟩ := List.mem_iff_getElem?.mp ((placed.mem_placed_iff hplaced.sound h x).mpr hx')
      obtain ⟨d, _, hd⟩ := exists_left_of_forall₂ hadded.1 i _ hi
      exact hd.1.laidOut
    rw [ofData_eq]
    show List.Forall₂ _ data.nodes (placeAll registry data s).1.placed
    rw [hall, (bound.differs_addIncomingSlots v hlaid).placed, hsame,
      List.forall₂_map_right_iff]
    exact hadded.1.imp fun d e he => he.1.withSlots _ _
  · intro i d hd hsome hnew
    obtain ⟨h, hh, hname⟩ := hadded.2 i d hd hsome hnew
    refine ⟨h, ?_, ?_⟩
    · show (ofData registry data s).1.order[i]? = some h
      rw [hkeeps.network.order]
      exact hh
    · rw [hkeeps.network.names_eq]
      exact hname

/-! ## Section 5: Live graphs -/

/-- In every state of a live graph handles, positions and guids name the same nodes, and a
    directory that is kept by the entries of its operations is right.  Hydrating makes one node
    for each saved one, and of several with one guid the first one keeps it. -/
theorem identified_of_run (registry : Registry) (data : GraphData) (s : Store)
    (ops : List Operation) (hunmade : s.Unmade (data.nodes.map (·.guid)))
    (hfresh : MakeFresh ops (hydrated registry data s)) :
    let start := hydrated registry data s
    let added := directory (data.nodes.map (.addNode registry)) (create data.name s) {}
    (run ops start).1.Identified ∧
      (directory ops start added).Lists (run ops start).1.toNetwork ∧
      List.Forall₂ (fun d e => e.2.MadeFrom registry d) data.nodes start.1.placed ∧
      ∀ i d, data.nodes[i]? = some d → d.guid ≠ "" → d.guid ∉ (data.nodes.take i).map (·.guid) →
        ∃ h, start.1.handleAt i = some h ∧ start.1.handleOf d.guid = some h := by
  intro start added
  have hcreated := create_consistent data.name s
  have hnone : ∀ h guid, (create data.name s).1.names h ≠ some guid := by
    intro h guid hname
    rw [(names_eq_none_iff _ h).mpr (create_node? data.name s h)] at hname
    cases hname
  -- hydrating adds the nodes, and then leaves their names alone
  have hadding := run_lists (data.nodes.map (.addNode registry)) (create data.name s) {} hcreated
    ⟨fun h _ guid hname => absurd hname (hnone h guid), fun h => hnone h ""⟩ ⟨rfl, rfl⟩
    (makeFresh_addNodes registry data.nodes _ _ hcreated (create_tidy registry data.name s).2
      fun d hd t ht hmem => hunmade t ht (List.mem_singleton.mp hmem ▸ List.mem_map_of_mem hd))
  rw [run_addNodes] at hadding
  have hkeeps := (ofData_keeps registry data s).network
  have hplaced := addNodes_consistent _ registry data.nodes (create data.name s).2 hcreated
  have hstart : start.1.toNetwork.Consistent := ofData_consistent registry data s
  have hnamed : start.1.Named := hkeeps.renames.named hadding.1
  have hlists : added.Lists start.1.toNetwork :=
    hkeeps.renames.lists (d := added) hplaced.sound hstart.sound hadding.1 hadding.2
  obtain ⟨hnamed', hlists'⟩ := run_lists ops start added hstart hnamed hlists hfresh
  obtain ⟨hmade, hfirst⟩ := ofData_lives registry data s hunmade
  refine ⟨identified_of_named (run_consistent ops start hstart).sound hnamed', hlists', hmade,
    fun i d hd hsome hnew => ?_⟩
  obtain ⟨h, hh, hname⟩ := hfirst i d hd hsome hnew
  exact ⟨h, hh, (handleOf_eq_some_iff hnamed _ h).mpr hname⟩

/-- Whether guids that are made are those of no node can be computed. -/
instance decidableMakesFresh (op : Operation) (st : State) : Decidable (op.MakesFresh st) :=
  inferInstanceAs (Decidable (∀ guid ∈ op.guid?, _ → _))

instance decidableMakeFresh : (ops : List Operation) → (st : State) → Decidable (MakeFresh ops st)
  | [], _ => isTrue trivial
  | op :: rest, st =>
    have := decidableMakeFresh rest (op.apply st)
    inferInstanceAs (Decidable (_ ∧ _))

/-- Three saved nodes, of which two have one guid and one has none. -/
def namesakes : GraphData where
  name := "namesakes"
  nodes := [{ guid := "sum", type := "Ceres.Math.Add" }, { guid := "", type := "Ceres.Math.Add" },
    { guid := "sum", type := "Ceres.Math.Multiply" }]

/-- Nodes are removed and added, one of them twice by a handle that is stale then. -/
theorem identified_of_run_namesakes :
    let start := hydrated Registry.builtin namesakes default
    let ops : List Operation := [.removeNode ⟨1, 0⟩,
      .addNode Registry.builtin { guid := "sum", type := "Ceres.Flow.Branch" }, .removeNode ⟨1, 0⟩,
      .addLive "" Builtin.branch.descriptor .branch, .removeNode ⟨0, 0⟩, .compile .standard]
    let added := directory (namesakes.nodes.map (.addNode Registry.builtin))
      (create namesakes.name default) {}
    (Store.Unmade default (namesakes.nodes.map (·.guid)) ∧ MakeFresh ops start) ∧
      (run ops start).1.Identified ∧
      (directory ops start added).Lists (run ops start).1.toNetwork ∧
      List.Forall₂ (fun d e => e.2.MadeFrom Registry.builtin d) namesakes.nodes start.1.placed ∧
      ∃ h, start.1.handleAt 0 = some h ∧ start.1.handleOf "sum" = some h := by
  intro start ops added
  have hunmade : Store.Unmade default (namesakes.nodes.map (·.guid)) :=
    Store.unmade_of_prefix _ _ (by decide +kernel)
  have hfresh : MakeFresh ops start := by decide +kernel
  obtain ⟨hidentified, hlists, hmade, hfirst⟩ :=
    identified_of_run Registry.builtin namesakes default ops hunmade hfresh
  have hsum : namesakes.nodes[0]? = some { guid := "sum", type := "Ceres.Math.Add" } := rfl
  have hkept := hfirst 0 _ hsum (by decide) (by simp)
  dsimp only at hkept
  exact ⟨⟨hunmade, hfresh⟩, hidentified, hlists, hmade, hkept⟩

end Graph
end FlowGraph
