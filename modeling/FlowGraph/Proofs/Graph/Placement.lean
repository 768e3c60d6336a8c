import FlowGraph.Graph.Network
import FlowGraph.Proofs.Arena
import FlowGraph.Proofs.Dependency.Cycle

/-! # Nodes and their positions

    In a sound network the order lists every node exactly once, so a node is as well
    named by its position there.  Dependency paths are found on positions and read as
    handles; `IsPath` says in terms of handles what a path is, and `dependencyPath_isPath`
    that a coherent cache has one for every node. -/

namespace FlowGraph

namespace Network

open Relation

/-! ## Section 1: Soundness -/

/-- The order lists the nodes of the arena, each once. -/
structure Sound (n : Network) : Prop where
  arena : n.nodes.WellFormed
  nodup_order : n.order.Nodup
  mem_order_iff : ∀ h, h ∈ n.order ↔ ∃ x, n.node? h = some x

/-- Soundness only looks at which handles are alive. -/
theorem Sound.congr {n m : Network} (hn : n.Sound) (harena : m.nodes.WellFormed)
    (horder : m.order = n.order)
    (hlive : ∀ h, (∃ x, m.node? h = some x) ↔ ∃ x, n.node? h = some x) : m.Sound := by
  refine ⟨harena, by rw [horder]; exact hn.nodup_order, fun h => ?_⟩
  rw [horder, hlive, hn.mem_order_iff]

/-- The handle of a new node is not listed yet. -/
theorem Sound.insert_not_mem_order {n : Network} (hn : n.Sound) (x : GraphNode) :
    (n.nodes.insert x).1 ∉ n.order := by
  intro hin
  obtain ⟨y, hy⟩ := (hn.mem_order_iff _).mp hin
  unfold node? at hy
  rw [Arena.get?_insert_fresh _ _ hn.arena] at hy
  cases hy

theorem Sound.node?_insert {n m : Network} (hn : n.Sound) (x : GraphNode)
    (hnodes : m.nodes = (n.nodes.insert x).2) (k : NodeHandle) :
    m.node? k = if k = (n.nodes.insert x).1 then some x else n.node? k := by
  unfold node?
  rw [hnodes]
  exact Arena.get?_insert _ _ _ hn.arena

/-! ## Section 2: Positions -/

theorem indexOf_eq_some_iff (n : Network) (hn : n.Sound) (h : NodeHandle) (i : Nat) :
    n.indexOf h = some i ↔ n.order[i]? = some h := by
  unfold indexOf
  rw [List.findIdx?_eq_some_iff_getElem]
  constructor
  · rintro ⟨hi, heq, _⟩
    rw [List.getElem?_eq_getElem hi]
    simpa using heq
  · intro hi
    obtain ⟨hlt, heq⟩ := List.getElem?_eq_some_iff.mp hi
    refine ⟨hlt, by simpa using heq, fun j hji hj => ?_⟩
    -- the order has no repetition, so no earlier position has the same handle
    have hsame : n.order[j] = n.order[i] := by rw [heq]; simpa using hj
    have := (List.Nodup.getElem_inj_iff hn.nodup_order).mp hsame
    omega

/-- Every node has a position. -/
theorem exists_indexOf (n : Network) (hn : n.Sound) (h : NodeHandle) (x : GraphNode)
    (hx : n.node? h = some x) : ∃ i, n.indexOf h = some i ∧ n.order[i]? = some h := by
  have hmem : h ∈ n.order := (hn.mem_order_iff h).mpr ⟨x, hx⟩
  obtain ⟨i, hi, heq⟩ := List.getElem_of_mem hmem
  have hget : n.order[i]? = some h := by rw [List.getElem?_eq_getElem hi, heq]
  exact ⟨i, (n.indexOf_eq_some_iff hn h i).mpr hget, hget⟩

theorem map_fst_placed (n : Network) (hn : n.Sound) : n.placed.map Prod.fst = n.order := by
  have hall : ∀ l : List NodeHandle, (∀ h ∈ l, ∃ x, n.node? h = some x) →
      (l.filterMap fun h => (n.node? h).map fun x => (h, x)).map Prod.fst = l := by
    intro l
    induction l with
    | nil => intro _; rfl
    | cons h rest ih =>
      intro hlive
      obtain ⟨x, hx⟩ := hlive h List.mem_cons_self
      simp only [List.filterMap_cons, hx, Option.map_some, List.map_cons]
      rw [ih fun k hk => hlive k (List.mem_cons_of_mem h hk)]
  exact hall n.order fun h hh => (hn.mem_order_iff h).mp hh

theorem node?_of_mem_placed (n : Network) (h : NodeHandle) (x : GraphNode)
    (hmem : (h, x) ∈ n.placed) : n.node? h = some x := by
  unfold placed at hmem
  simp only [List.mem_filterMap, Option.map_eq_some_iff, Prod.mk.injEq] at hmem
  obtain ⟨k, _, y, hy, rfl, rfl⟩ := hmem
  exact hy

theorem mem_placed_iff (n : Network) (hn : n.Sound) (h : NodeHandle) (x : GraphNode) :
    (h, x) ∈ n.placed ↔ n.node? h = some x := by
  refine ⟨n.node?_of_mem_placed h x, fun hx => ?_⟩
  unfold placed
  simp only [List.mem_filterMap, Option.map_eq_some_iff, Prod.mk.injEq]
  exact ⟨h, (hn.mem_order_iff h).mpr ⟨x, hx⟩, x, hx, rfl, rfl⟩

/-- The node at a position of the order is the one placed there. -/
theorem placed_getElem? (n : Network) (hn : n.Sound) (i : Nat) (h : NodeHandle) (x : GraphNode)
    (hi : n.order[i]? = some h) (hx : n.node? h = some x) : n.placed[i]? = some (h, x) := by
  have hfst : (n.placed[i]?).map Prod.fst = some h := by
    rw [← List.getElem?_map, n.map_fst_placed hn, hi]
  obtain ⟨⟨k, y⟩, hget, rfl⟩ := Option.map_eq_some_iff.mp hfst
  have hy := (n.mem_placed_iff hn k y).mp (List.mem_of_getElem? hget)
  rw [hx] at hy
  cases hy
  exact hget

/-! ### Entries -/

theorem entry_of_findEntry (n : Network) (name : String) (h : NodeHandle)
    (hfound : n.findEntry name = some h) :
    ∃ x, n.node? h = some x ∧ x.behavior.entryName = some name := by
  obtain ⟨⟨k, x⟩, hfind, rfl⟩ := Option.map_eq_some_iff.mp hfound
  exact ⟨x, n.node?_of_mem_placed k x (List.mem_of_find?_eq_some hfind),
    by simpa using List.find?_some hfind⟩

theorem exists_findEntry (n : Network) (hn : n.Sound) (name : String) (h : NodeHandle)
    (x : GraphNode) (hx : n.node? h = some x) (hname : x.behavior.entryName = some name) :
    ∃ k, n.findEntry name = some k := by
  unfold findEntry
  cases hfind : n.placed.find? fun e => e.2.behavior.entryName = some name with
  | some e => exact ⟨e.1, rfl⟩
  | none =>
    have hnot := List.find?_eq_none.mp hfind _ ((n.mem_placed_iff hn h x).mpr hx)
    simp [hname] at hnot

/-! ## Section 3: The dependency relation -/

theorem dependencies_size (n : Network) (hn : n.Sound) : n.dependencies.size = n.order.length := by
  rw [← n.map_fst_placed hn]
  simp [dependencies, Dependencies.size]

theorem dependencies_needs (n : Network) (hn : n.Sound) (i : Nat) (h : NodeHandle) (x : GraphNode)
    (hi : n.order[i]? = some h) (hx : n.node? h = some x) :
    n.dependencies.needs i = x.dependencies.filterMap n.indexOf := by
  simp [dependencies, Dependencies.needs, n.placed_getElem? hn i h x hi hx]

theorem dependencies_isForward (n : Network) (hn : n.Sound) (i : Nat) (h : NodeHandle)
    (x : GraphNode) (hi : n.order[i]? = some h) (hx : n.node? h = some x) :
    n.dependencies.isForward i = decide (x.descriptor.path = .forward) := by
  simp [dependencies, Dependencies.isForward, n.placed_getElem? hn i h x hi hx]

theorem dependencies_inRange (n : Network) (hn : n.Sound) : n.dependencies.InRange := by
  apply Dependencies.inRange_of_edges
  intro ds hds d hd
  rw [n.dependencies_size hn]
  simp only [dependencies, List.mem_map] at hds
  obtain ⟨⟨h, x⟩, _, rfl⟩ := hds
  obtain ⟨k, _, hk⟩ := List.mem_filterMap.mp hd
  exact (List.getElem?_eq_some_iff.mp ((n.indexOf_eq_some_iff hn k d).mp hk)).1

/-- A dependency of a node that runs on demand. -/
def NeedsNode (n : Network) (h k : NodeHandle) : Prop :=
  ∃ x y, n.node? h = some x ∧ k ∈ x.dependencies ∧ n.node? k = some y ∧
    y.descriptor.path = .dependency

/-- On positions, `NeedsNode` is what the search follows. -/
theorem needs_of_needsNode (n : Network) (hn : n.Sound) (h k : NodeHandle) (i : Nat)
    (hi : n.order[i]? = some h) (hneed : n.NeedsNode h k) :
    ∃ j, n.order[j]? = some k ∧ n.dependencies.Needs i j := by
  obtain ⟨x, y, hx, hmem, hy, hpath⟩ := hneed
  obtain ⟨j, hj, hget⟩ := n.exists_indexOf hn k y hy
  refine ⟨j, hget, ?_, ?_⟩
  · rw [n.dependencies_needs hn i h x hi hx]
    exact List.mem_filterMap.mpr ⟨k, hmem, hj⟩
  · rw [n.dependencies_isForward hn j k y hget hy, hpath]
    rfl

/-- What the search follows is what nodes need. -/
theorem needsNode_of_needs (n : Network) (hn : n.Sound) (h : NodeHandle) (i j : Nat)
    (hi : n.order[i]? = some h) (hneeds : n.dependencies.Needs i j) :
    ∃ k, n.order[j]? = some k ∧ n.NeedsNode h k := by
  obtain ⟨x, hx⟩ := (hn.mem_order_iff h).mp (List.mem_of_getElem? hi)
  obtain ⟨hmem, hforward⟩ := hneeds
  rw [n.dependencies_needs hn i h x hi hx] at hmem
  obtain ⟨k, hk, hindex⟩ := List.mem_filterMap.mp hmem
  have hj := (n.indexOf_eq_some_iff hn k j).mp hindex
  obtain ⟨y, hy⟩ := (hn.mem_order_iff k).mp (List.mem_of_getElem? hj)
  refine ⟨k, hj, x, y, hx, hk, hy, ?_⟩
  rw [n.dependencies_isForward hn j k y hj hy] at hforward
  cases hpath : y.descriptor.path with
  | dependency => rfl
  | forward => simp [hpath] at hforward

/-- Positions that are reached are those of handles that are reached. -/
theorem transGen_needsNode (n : Network) (hn : n.Sound) (h : NodeHandle) (i j : Nat)
    (hi : n.order[i]? = some h) (hreach : TransGen n.dependencies.Needs i j) :
    ∃ k, n.order[j]? = some k ∧ TransGen n.NeedsNode h k := by
  induction hreach with
  | single hneeds =>
    obtain ⟨k, hk, hneed⟩ := n.needsNode_of_needs hn h i _ hi hneeds
    exact ⟨k, hk, .single hneed⟩
  | tail _ hneeds ih =>
    obtain ⟨k, hk, hreach⟩ := ih
    obtain ⟨l, hl, hneed⟩ := n.needsNode_of_needs hn k _ _ hk hneeds
    exact ⟨l, hl, hreach.tail hneed⟩

theorem isForward_of_needs (g : Dependencies) (v w : Nat) (h : TransGen g.Needs v w) :
    g.isForward w = false := by
  cases h with
  | single hneed => exact hneed.2
  | tail _ hneed => exact hneed.2

/-! ## Section 4: Cached paths -/

/-- The paths in the cache are those of the dependencies that the nodes have. -/
def Coherent (n : Network) : Prop := ∃ ps, n.paths = some ps ∧ n.dependencies.paths = .ok ps

/-- A list of the nodes to run before a node. -/
structure IsPath (n : Network) (h : NodeHandle) (path : List NodeHandle) : Prop where
  nodup : path.Nodup
  /-- The node itself is left out. -/
  not_mem : h ∉ path
  onDemand : ∀ m ∈ path, ∃ y, n.node? m = some y ∧ y.descriptor.path = .dependency
  /-- Whatever the node needs is listed. -/
  complete : ∀ m, TransGen n.NeedsNode h m → m ∈ path
  /-- Every node stands behind what it needs. -/
  ordered : ∀ before m after, path = before ++ m :: after → ∀ k, n.NeedsNode m k → k ∈ before

theorem dependencyPath_isPath (n : Network) (hn : n.Sound) (hc : n.Coherent) (h : NodeHandle)
    (x : GraphNode) (hx : n.node? h = some x) :
    ∃ path, n.dependencyPath h = .ok path ∧ n.IsPath h path := by
  obtain ⟨ps, hps, hpaths⟩ := hc
  obtain ⟨i, hi, hget⟩ := n.exists_indexOf hn h x hx
  have hrange := n.dependencies_inRange hn
  have hsize := n.dependencies_size hn
  have hlt : i < n.dependencies.size := by
    rw [hsize]
    exact (List.getElem?_eq_some_iff.mp hget).1
  obtain ⟨p, hp, hpathFor⟩ := Dependencies.pathFor_of_paths n.dependencies ps hpaths i hlt
  have hmem := Dependencies.mem_pathFor_iff n.dependencies i p hrange hlt hpathFor
  -- a position of the path denotes a node that runs on demand
  have hlive : ∀ j ∈ p, ∀ m, n.handleAt j = some m →
      ∃ y, n.node? m = some y ∧ y.descriptor.path = .dependency := by
    intro j hj m hm
    obtain ⟨y, hy⟩ := (hn.mem_order_iff m).mp (List.mem_of_getElem? hm)
    refine ⟨y, hy, ?_⟩
    have hf := isForward_of_needs n.dependencies i j ((hmem j).mp hj)
    rw [n.dependencies_isForward hn j m y hm hy] at hf
    cases hpath : y.descriptor.path with
    | dependency => rfl
    | forward => simp [hpath] at hf
  refine ⟨p.filterMap n.handleAt, by simp [dependencyPath, hps, hi, hp], ⟨?_, ?_, ?_, ?_, ?_⟩⟩
  · -- one handle has one position
    refine (Dependencies.nodup_pathFor n.dependencies i p hrange hlt hpathFor).filterMap ?_
    intro j j' m hj hj'
    have h1 := (n.indexOf_eq_some_iff hn m j).mpr hj
    have h2 := (n.indexOf_eq_some_iff hn m j').mpr hj'
    rw [h1] at h2
    exact Option.some.inj h2
  · intro hin
    obtain ⟨j, hj, hjh⟩ := List.mem_filterMap.mp hin
    have hij := (n.indexOf_eq_some_iff hn h j).mpr hjh
    rw [hi] at hij
    cases hij
    exact Dependencies.not_mem_pathFor n.dependencies i p hrange hlt hpathFor hj
  · intro m hm
    obtain ⟨j, hj, hjm⟩ := List.mem_filterMap.mp hm
    exact hlive j hj m hjm
  · -- what is reached over handles is reached over their positions
    intro m hreach
    have hpos : ∃ j, n.order[j]? = some m ∧ TransGen n.dependencies.Needs i j := by
      induction hreach with
      | single hneed =>
        obtain ⟨j, hj, hne⟩ := n.needs_of_needsNode hn h _ i hget hneed
        exact ⟨j, hj, .single hne⟩
      | tail _ hneed ih =>
        obtain ⟨j, hj, hij⟩ := ih
        obtain ⟨l, hl, hjl⟩ := n.needs_of_needsNode hn _ _ j hj hneed
        exact ⟨l, hl, hij.tail hjl⟩
    obtain ⟨j, hj, hij⟩ := hpos
    exact List.mem_filterMap.mpr ⟨j, (hmem j).mpr hij, hj⟩
  · -- a split of the handles comes from one of the positions; those without a node fall out
    intro before m after hsplit k hneed
    obtain ⟨p₁, p₂, rfl, hbefore, hrest⟩ := List.filterMap_eq_append_iff.mp hsplit
    obtain ⟨skipped, j, p₃, rfl, hskip, hjm, _⟩ := List.filterMap_eq_cons_iff.mp hrest
    obtain ⟨l, hl, hjl⟩ := n.needs_of_needsNode hn m k j hjm hneed
    have hin := Dependencies.pathFor_ordered n.dependencies i _ hrange hlt hpathFor
      (p₁ ++ skipped) p₃ j l (by simp) hjl
    rw [← hbefore]
    rcases List.mem_append.mp hin with hin | hin
    · exact List.mem_filterMap.mpr ⟨l, hin, hl⟩
    · have hnone := hskip l hin
      unfold handleAt at hnone
      rw [hl] at hnone
      cases hnone

/-- With a coherent cache no node needs itself, directly or through others. -/
theorem acyclic_of_coherent (n : Network) (hn : n.Sound) (hc : n.Coherent) (h : NodeHandle) :
    ¬ TransGen n.NeedsNode h h := by
  intro hloop
  obtain ⟨k, ⟨x, _, hx, _⟩, _⟩ := TransGen.head'_iff.mp hloop
  obtain ⟨path, _, hpath⟩ := n.dependencyPath_isPath hn hc h x hx
  exact hpath.not_mem (hpath.complete h hloop)

end Network
end FlowGraph
