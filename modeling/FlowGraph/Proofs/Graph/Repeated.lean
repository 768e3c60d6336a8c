import FlowGraph.Proofs.Graph.Agreeing
import FlowGraph.Proofs.Graph.Resolution
import FlowGraph.Proofs.Graph.Wiring

/-! # Connections that are recorded twice

    A connection that a record lists again further behind changes nothing: it leads into the
    slot of the first one, from the same slot, so that neither the last link into that slot
    nor the order of the dependencies is another one, and of a control output the first
    connection counts anyway (`Network.link_pruned`).

    So compiling a graph gives the same result, with the same view, as compiling it without
    repeated connections, constants and records that have no connections
    (`Network.Tidied.findPaths`). -/

namespace FlowGraph

/-! ## Section 1: Lists with repetitions -/

section Repetitions

variable {α β : Type} [DecidableEq α]

theorem head?_foldl_addNew (xs : List α) : (xs.foldl addNew []).head? = xs.head? := by
  have hkept : ∀ (rest found : List α) (a : α), found.head? = some a →
      (rest.foldl addNew found).head? = some a := by
    intro rest
    induction rest with
    | nil => exact fun found a h => h
    | cons x rest ih =>
      intro found a h
      refine ih _ a ?_
      unfold addNew
      split
      · exact h
      · rw [List.head?_append, h]
        rfl
  cases xs with
  | nil => rfl
  | cons x rest => exact hkept rest [x] x rfl

theorem mem_addNew (found : List α) (x a : α) : a ∈ addNew found x ↔ a ∈ found ∨ a = x := by
  unfold addNew
  split
  · rename_i hx
    refine ⟨.inl, ?_⟩
    rintro (ha | rfl)
    · exact ha
    · exact hx
  · rw [List.mem_append, List.mem_singleton]

theorem mem_foldl_addNew_iff (xs found : List α) (a : α) :
    a ∈ xs.foldl addNew found ↔ a ∈ found ∨ a ∈ xs := by
  induction xs generalizing found with
  | nil => exact (or_iff_left List.not_mem_nil).symm
  | cons x rest ih => rw [List.foldl_cons, ih, mem_addNew, or_assoc, List.mem_cons]

theorem mem_foldl_addNew (xs : List α) (a : α) : a ∈ xs.foldl addNew [] ↔ a ∈ xs :=
  (foldl_addNew xs).2.1 a

theorem addNew_of_mem (found : List α) (x : α) (hx : x ∈ found) : addNew found x = found :=
  if_pos hx

/-- The last of several equal items is any one of them. -/
theorem getLast?_iff_mem (ys : List β) (hone : ∀ a ∈ ys, ∀ b ∈ ys, a = b) (b : β) :
    ys.getLast? = some b ↔ b ∈ ys := by
  refine ⟨List.mem_of_getLast?, fun hb => ?_⟩
  cases hlast : ys.getLast? with
  | none =>
    rw [List.getLast?_eq_none_iff.mp hlast] at hb
    cases hb
  | some c => rw [hone c (List.mem_of_getLast? hlast) b hb]

/-- Where a function gives one value only, it does not matter how often. -/
theorem getLast?_filterMap_addNew (f : α → Option β)
    (hf : ∀ x y a b, f x = some a → f y = some b → a = b) (xs : List α) :
    ((xs.foldl addNew []).filterMap f).getLast? = (xs.filterMap f).getLast? := by
  have hone : ∀ xs : List α, ∀ a ∈ xs.filterMap f, ∀ b ∈ xs.filterMap f, a = b := by
    intro xs a ha b hb
    obtain ⟨x, _, hx⟩ := List.mem_filterMap.mp ha
    obtain ⟨y, _, hy⟩ := List.mem_filterMap.mp hb
    exact hf x y a b hx hy
  refine Option.ext fun b => ?_
  rw [getLast?_iff_mem _ (hone _), getLast?_iff_mem _ (hone _)]
  simp only [List.mem_filterMap, mem_foldl_addNew]

/-- What is new is the same without the repetitions. -/
theorem foldl_addNew_filterMap [DecidableEq β] (f : α → Option β) (xs : List α)
    (found : List β) : ((xs.foldl addNew []).filterMap f).foldl addNew found
      = (xs.filterMap f).foldl addNew found := by
  -- by induction from the end: the last item is new, or its value was there before
  induction xs using List.reverseRecOn with
  | nil => rfl
  | append_singleton xs x ih =>
    have hsplit : ((xs ++ [x]).filterMap f).foldl addNew found
        = ([x].filterMap f).foldl addNew ((xs.filterMap f).foldl addNew found) := by
      rw [List.filterMap_append, List.foldl_append]
    rw [List.foldl_append, List.foldl_cons, List.foldl_nil, hsplit, ← ih]
    by_cases hx : x ∈ xs
    · rw [addNew_of_mem _ x ((mem_foldl_addNew xs x).mpr hx)]
      cases hfx : f x with
      | none => rw [List.filterMap_cons_none hfx, List.filterMap_nil, List.foldl_nil]
      | some b =>
        rw [List.filterMap_cons_some hfx, List.filterMap_nil, List.foldl_cons, List.foldl_nil,
          addNew_of_mem _ b ((mem_foldl_addNew_iff _ _ b).mpr (.inr (List.mem_filterMap.mpr
            ⟨x, (mem_foldl_addNew xs x).mpr hx, hfx⟩)))]
    · have hadded : addNew (xs.foldl addNew []) x = xs.foldl addNew [] ++ [x] :=
        if_neg fun h => hx ((mem_foldl_addNew xs x).mp h)
      rw [hadded, List.filterMap_append, List.foldl_append]

end Repetitions

/-! ## Section 2: Records without repetitions -/

/-- The record without repeated connections. -/
def PortData.pruned (r : PortData) : PortData :=
  { r with connections := r.connections.foldl addNew [] }

/-- The node without repeated connections. -/
def GraphNode.pruned (x : GraphNode) : GraphNode :=
  { x with records := x.records.map PortData.pruned }

namespace Network

/-- The network without repeated connections. -/
def pruned (n : Network) : Network := { n with nodes := n.nodes.map GraphNode.pruned }

theorem differs_pruned (n : Network) : n.Differs n.pruned fun _ => GraphNode.pruned :=
  ⟨rfl, fun h => Arena.get?_map n.nodes h _⟩

theorem handleOf_pruned (n : Network) (guid : String) :
    n.pruned.handleOf guid = n.handleOf guid := by
  unfold handleOf pruned
  simp only [Arena.toList_map, List.find?_map, Option.map_map]
  rfl

theorem pruned_unlinked (n : Network) : n.unlinked.pruned = n.pruned.unlinked := by
  unfold pruned unlinked
  simp only [Arena.map_map]
  rfl

theorem nodeRecords_pruned (n : Network) :
    n.pruned.nodeRecords = n.nodeRecords.map fun e => (e.1, e.2.pruned) := by
  unfold nodeRecords
  rw [n.differs_pruned.placed, List.flatMap_map, List.map_flatMap]
  refine List.flatMap_congr fun e _ => ?_
  show (e.2.records.map PortData.pruned).map _ = _
  rw [List.map_map, List.map_map]
  rfl

theorem checkConnection_pruned (n : Network) (conversions : Conversions) (x : GraphNode)
    (address : PortAddress) (output : Port) (c : PortConnection) :
    n.pruned.checkConnection conversions x.pruned address output c
      = n.checkConnection conversions x address output c := by
  unfold checkConnection
  rw [handleOf_pruned]
  cases n.handleOf c.nodeGuid with
  | none => rfl
  | some h =>
    simp only [n.differs_pruned.node, Option.map_map]
    rfl

/-- A connection resolves as it does in a longer record of the slot. -/
theorem resolve_pruned (n : Network) (conversions : Conversions) (h : NodeHandle) (r : PortData)
    (c : PortConnection) : n.pruned.resolve conversions ⟨h, r.pruned, c⟩
      = n.resolve conversions ⟨h, r, c⟩ := by
  unfold resolve
  dsimp only
  rw [n.differs_pruned.node]
  cases n.node? h with
  | none => rfl
  | some x =>
    show (outputSlot x r).bind _ = (outputSlot x r).bind _
    simp only [checkConnection_pruned]

/-- The connections of one record that lead into one slot are one link. -/
theorem resolve_unique (n : Network) (conversions : Conversions) (h : NodeHandle) (r : PortData)
    (b : PortAddress) (c c' : PortConnection) (l l' : PortLink)
    (hl : n.resolve conversions ⟨h, r, c⟩ = some (.data b l))
    (hl' : n.resolve conversions ⟨h, r, c'⟩ = some (.data b l')) : l = l' := by
  obtain ⟨output, input, hfits, _, hcarries⟩ := (n.resolve_data_iff conversions _ b l).mp hl
  obtain ⟨output', input', hfits', _, hcarries'⟩ := (n.resolve_data_iff conversions _ b l').mp hl'
  -- the record names one slot of its node
  have hsource : l.source = l'.source := by
    obtain ⟨x, hx, hi⟩ := hfits.named
    obtain ⟨x', hx', hi'⟩ := hfits'.named
    rw [← hfits.node] at hx
    rw [← hfits'.node, hx] at hx'
    cases hx'
    rw [hi] at hi'
    have hnode := hfits.node.symm.trans hfits'.node
    have hport := Option.some.inj hi'
    cases hs : l.source
    cases hs' : l'.source
    rw [hs, hs'] at hnode hport
    simp only at hnode hport
    rw [hnode, hport]
  have houtput := hfits.source.symm.trans (hsource ▸ hfits'.source)
  have hinput := hfits.target.symm.trans hfits'.target
  cases houtput
  cases hinput
  have hhow := ((conversions.compatibility_iff _ _ _).mpr hcarries).symm.trans
    ((conversions.compatibility_iff _ _ _).mpr hcarries')
  cases l
  cases l'
  simp only at hsource hhow
  rw [hsource, Option.some.inj hhow]

/-! ### The links that are made -/

section Made

variable (n : Network) (conversions : Conversions)

theorem last_into_pruned (b : PortAddress) :
    ((validLinks (n.pruned.checkAll conversions)).filterMap (NewLink.into b)).getLast?
      = ((validLinks (n.checkAll conversions)).filterMap (NewLink.into b)).getLast? := by
  rw [n.pruned.filterMap_dataLinks conversions _ fun _ _ => rfl,
    n.filterMap_dataLinks conversions _ fun _ _ => rfl, nodeRecords_pruned, List.flatMap_map,
    List.getLast?_flatMap, List.getLast?_flatMap]
  congr 1
  funext e
  simp only [resolve_pruned]
  refine getLast?_filterMap_addNew _ (fun c c' l l' hl hl' => ?_) e.2.connections
  obtain ⟨new, hnew, hinto⟩ := Option.bind_eq_some_iff.mp hl
  obtain ⟨new', hnew', hinto'⟩ := Option.bind_eq_some_iff.mp hl'
  rw [(NewLink.into_eq_some_iff b new l).mp hinto] at hnew
  rw [(NewLink.into_eq_some_iff b new' l').mp hinto'] at hnew'
  exact n.resolve_unique conversions e.1 e.2 b c c' l l' hnew hnew'

theorem successors_pruned (a : PortAddress) :
    (validLinks (n.pruned.checkAll conversions)).filterMap (NewLink.successor a)
      = (validLinks (n.checkAll conversions)).filterMap (NewLink.successor a) := by
  rw [n.pruned.filterMap_validTargets conversions _ fun _ _ => rfl,
    n.filterMap_validTargets conversions _ fun _ _ => rfl, nodeRecords_pruned, List.filterMap_map]
  refine List.filterMap_congr fun e _ => ?_
  show ((e.2.connections.foldl addNew []).head?.bind fun c =>
    (n.pruned.resolve conversions ⟨e.1, e.2.pruned, c⟩).bind (NewLink.successor a)) = _
  simp only [head?_foldl_addNew, resolve_pruned]

theorem gathered_pruned (h : NodeHandle) :
    (validLinks (n.pruned.checkAll conversions)).foldl (gather h) []
      = (validLinks (n.checkAll conversions)).foldl (gather h) [] := by
  rw [foldl_gather, foldl_gather, n.pruned.filterMap_dataLinks conversions _ fun _ _ => rfl,
    n.filterMap_dataLinks conversions _ fun _ _ => rfl, nodeRecords_pruned, List.flatMap_map,
    List.foldl_flatMap, List.foldl_flatMap]
  congr 1
  funext found e
  simp only [resolve_pruned]
  exact foldl_addNew_filterMap _ e.2.connections found

end Made

/-- Linking does not see repeated connections. -/
theorem link_pruned (n : Network) (conversions : Conversions) :
    (n.link conversions).1.Differs (n.pruned.link conversions).1 fun _ => GraphNode.pruned := by
  refine ⟨?_, fun h => ?_⟩
  · rw [link_order, link_order]
    rfl
  · rw [link_node, link_node, n.differs_pruned.node, Option.map_map, Option.map_map,
      ← pruned_unlinked]
    simp only [last_into_pruned, successors_pruned, gathered_pruned]
    rfl

/-! ## Section 3: What is seen of a network -/

/-- A change of nodes that leaves everything as it is that is seen of them. -/
structure Unseen (f : GraphNode → GraphNode) : Prop where
  guid : ∀ x, (f x).guid = x.guid
  ports : ∀ x, (f x).ports = x.ports
  dependencies : ∀ x, (f x).dependencies = x.dependencies
  descriptor : ∀ x, (f x).descriptor = x.descriptor

namespace Differs

variable {n m : Network} {f : GraphNode → GraphNode}

section

variable (h : n.Differs m fun _ => f) (hf : Unseen f)

include h hf

theorem guidOf_eq : m.guidOf = n.guidOf := by
  funext k
  unfold guidOf
  rw [h.node]
  cases n.node? k with
  | none => rfl
  | some x => rw [Option.map_some, Option.map_some, Option.map_some, hf.guid]

theorem viewSlot_eq : m.viewSlot = n.viewSlot := by
  have hslot : m.slotOf = n.slotOf := by
    funext a
    unfold slotOf
    rw [h.node]
    cases n.node? a.node with
    | none => rfl
    | some x =>
      rw [Option.map_some, Option.bind_some, Option.bind_some, hf.ports, hf.guid]
  funext p
  unfold viewSlot
  rw [hslot, h.guidOf_eq hf]

theorem wires_eq : m.wires = n.wires := by
  unfold wires
  rw [h.placed, List.map_map, h.viewSlot_eq hf, h.guidOf_eq hf]
  refine List.map_congr_left fun e _ => ?_
  simp only [Function.comp_apply, hf.guid, hf.ports, hf.dependencies]

theorem view_eq (paths : List (List Nat)) (hn : n.paths = some paths) (hm : m.paths = some paths) :
    m.view = n.view := by
  unfold view
  rw [h.placed, List.map_map]
  refine List.map_congr_left fun e _ => ?_
  have hpath : m.dependencyPath e.1 = n.dependencyPath e.1 := by
    unfold dependencyPath indexOf handleAt
    rw [hn, hm, h.order]
  unfold viewNode
  simp only [Function.comp_apply, hf.guid, hf.ports, hf.dependencies, h.viewSlot_eq hf,
    h.guidOf_eq hf, hpath]

theorem dependencies_eq : m.dependencies = n.dependencies := by
  refine dependencies_congr n m h.order ?_
  rw [h.placed, List.map_map]
  refine List.map_congr_left fun e _ => ?_
  simp only [Function.comp_apply, standing, hf.guid, hf.dependencies, hf.descriptor]

/-- The same cycle is found, or the same is seen once the paths are found. -/
theorem findPaths_eq (hn : n.paths = none) (hm : m.paths = none) :
    (Graph.findPaths m).map view = (Graph.findPaths n).map view := by
  unfold Graph.findPaths
  rw [hn, hm]
  dsimp only
  rw [h.dependencies_eq hf]
  cases n.dependencies.paths with
  | error e => rfl
  | ok paths =>
    have hfound : ({ n with paths := some paths } : Network).Differs
        { m with paths := some paths } fun _ => f := ⟨h.order, h.node⟩
    exact congrArg Except.ok (hfound.view_eq hf paths rfl rfl)

end

end Differs

/-- The network with distinct connections only, without constants. -/
def tidied (n : Network) : Network := n.wiring.pruned

theorem link_tidied (n : Network) (conversions : Conversions) : (n.link conversions).1.Differs
    (n.tidied.link conversions).1 fun _ x => x.wiring.pruned := by
  have hwiring : (n.link conversions).1.Differs (n.wiring.link conversions).1
      fun _ => GraphNode.wiring := by
    rw [← n.link_wiring]
    exact ⟨rfl, node?_wiring _⟩
  exact hwiring.trans (n.wiring.link_pruned conversions)

theorem unseen_tidied : Unseen fun x => x.wiring.pruned :=
  ⟨fun _ => rfl, fun _ => rfl, fun _ => rfl, fun _ => rfl⟩

/-- Networks that are alike without constants, repeated connections and records that have no
    connections are linked alike. -/
theorem findPaths_of_tidied {n m : Network} (h : n.tidied.Alike m.tidied)
    (hn : n.paths = none) (hm : m.paths = none) (conversions : Conversions) :
    (Graph.findPaths (m.link conversions).1).map view
      = (Graph.findPaths (n.link conversions).1).map view := by
  have htidied : ∀ l : Network, l.paths = none →
      (Graph.findPaths (l.tidied.link conversions).1).map view
        = (Graph.findPaths (l.link conversions).1).map view := by
    intro l hl
    exact (l.link_tidied conversions).findPaths_eq unseen_tidied
      ((l.link_paths conversions).trans hl) (l.tidied.link_paths conversions)
  rw [← htidied n hn, ← htidied m hm, h.findPaths conversions]

theorem wires_of_tidied {n m : Network} (h : n.tidied.Alike m.tidied)
    (conversions : Conversions) :
    (m.link conversions).1.wires = (n.link conversions).1.wires := by
  rw [← (n.link_tidied conversions).wires_eq unseen_tidied,
    ← (m.link_tidied conversions).wires_eq unseen_tidied]
  exact (h.link conversions).wires (link_sound _ conversions h.sound.1)
    (link_sound _ conversions h.sound.2)

end Network

end FlowGraph
