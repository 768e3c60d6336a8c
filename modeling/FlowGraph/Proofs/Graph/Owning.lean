import FlowGraph.Proofs.Graph.Marks
import FlowGraph.Proofs.Graph.Saving
import FlowGraph.Proofs.Variable.Wiring

/-! # Which variables a graph owns

    A graph owns the variables of its blackboard and those of its nodes, and so do its
    functions (`Graph.owned`).  Hydrating makes new variables for a graph, each one for one
    place (`Graph.ofData_makes`).  Compiling and disposing change bindings of variables that
    the graph owns, and of no others (`Graph.compile_rebinds`, `Graph.dispose_rebinds`). -/

namespace FlowGraph

/-! ## Section 1: Variables of graphs -/

/-- The variables of a network: those of its blackboard and those of its nodes. -/
def Network.owned (n : Network) : List VarId :=
  n.blackboard ++ (Graph.ownVariables n).map (·.2.2)

namespace Graph

/-- The variables of a graph, its functions, their functions and so on. -/
def owned : Graph → List VarId
  | ⟨n, _, functions, _⟩ => n.owned ++ functionsOwned functions
where
  /-- The variables of functions. -/
  functionsOwned : List (String × Graph) → List VarId
    | [] => []
    | (_, f) :: rest => f.owned ++ functionsOwned rest

theorem owned_eq (g : Graph) :
    g.owned = g.toNetwork.owned ++ owned.functionsOwned g.functions := by
  obtain ⟨n, groups, functions, compiled⟩ := g
  unfold owned
  rfl

theorem functionsOwned_eq (functions : List (String × Graph)) :
    owned.functionsOwned functions = functions.flatMap (·.2.owned) := by
  induction functions with
  | nil => rfl
  | cons first rest ih =>
    unfold owned.functionsOwned
    rw [ih, List.flatMap_cons]

theorem network_owned_subset (g : Graph) : g.toNetwork.owned ⊆ g.owned := by
  rw [owned_eq]
  exact List.subset_append_left _ _

theorem functionsOwned_subset (g : Graph) : owned.functionsOwned g.functions ⊆ g.owned := by
  rw [owned_eq]
  exact List.subset_append_right _ _

theorem owned_subset_of_within {f g : Graph} (h : f.Within g) : f.owned ⊆ g.owned := by
  induction h with
  | self => exact fun _ hv => hv
  | function g e he _ ih =>
    intro v hv
    refine functionsOwned_subset g ?_
    rw [functionsOwned_eq]
    exact List.mem_flatMap.mpr ⟨e, he, ih hv⟩

/-- The variables of the nodes do not depend on what else the nodes have. -/
theorem ownVariables_map (n : Network) (f : GraphNode → GraphNode)
    (hf : ∀ x, (f x).guid = x.guid ∧ (f x).vars = x.vars) :
    ownVariables { n with nodes := n.nodes.map f } = ownVariables n := by
  unfold ownVariables
  rw [Arena.toList_map, List.flatMap_map]
  simp only [hf]

/-- A node without slots and records. -/
def bare (x : GraphNode) : GraphNode := { x with ports := [], records := [] }

/-- Slots and records do not matter for the variables. -/
theorem ownVariables_modify (n : Network) (h : NodeHandle) (f : GraphNode → GraphNode)
    (hf : ∀ x, bare (f x) = bare x) :
    ownVariables { n with nodes := n.nodes.modify h f } = ownVariables n := by
  rw [← ownVariables_map { n with nodes := n.nodes.modify h f } bare fun _ => ⟨rfl, rfl⟩,
    ← ownVariables_map n bare fun _ => ⟨rfl, rfl⟩]
  show ownVariables { n with nodes := (n.nodes.modify h f).map bare } = _
  rw [Arena.map_modify _ _ _ _ hf]

theorem owned_modify (n : Network) (h : NodeHandle) (f : GraphNode → GraphNode)
    (hf : ∀ x, bare (f x) = bare x) :
    Network.owned { n with nodes := n.nodes.modify h f } = n.owned := by
  unfold Network.owned
  rw [ownVariables_modify n h f hf]

theorem ownVariables_unlinked (n : Network) : ownVariables n.unlinked = ownVariables n :=
  ownVariables_map n _ fun _ => ⟨rfl, rfl⟩

/-- Links do not matter for variables. -/
theorem ownVariables_link (n : Network) (conversions : Conversions) :
    ownVariables (n.link conversions).1 = ownVariables n := by
  rw [← ownVariables_unlinked, n.link_unlinked, ownVariables_unlinked]

/-! ## Section 2: Hydrating -/

/-- New unbound variables are added to the table. -/
structure Makes (s t : Store) (ids : List VarId) : Prop where
  rewired : s.vars.Rewired ∅ t.vars
  wellBound : s.vars.WellBound → t.vars.WellBound
  globals : t.globals = s.globals
  nodup : ids.Nodup
  fresh : ∀ v ∈ ids, s.vars.cells.size ≤ v ∧ v < t.vars.cells.size

namespace Makes

variable {s t u : Store} {ids ids' : List VarId}

theorem of_vars (hvars : t.vars = s.vars) (hglobals : t.globals = s.globals) : Makes s t [] :=
  ⟨hvars ▸ .refl _, fun hs => hvars ▸ hs, hglobals, .nil, List.forall_mem_nil _⟩

theorem append (h : Makes s t ids) (h' : Makes t u ids') : Makes s u (ids ++ ids') where
  rewired := h.rewired.trans h'.rewired
  wellBound := fun hs => h'.wellBound (h.wellBound hs)
  globals := h'.globals.trans h.globals
  nodup := List.nodup_append.mpr ⟨h.nodup, h'.nodup, fun _ ha _ hb =>
    ((h.fresh _ ha).2.trans_le (h'.fresh _ hb).1).ne⟩
  fresh := List.forall_mem_append.mpr
    ⟨fun v hv => ⟨(h.fresh v hv).1, (h.fresh v hv).2.trans_le h'.rewired.size⟩,
      fun v hv => ⟨h.rewired.size.trans (h'.fresh v hv).1, (h'.fresh v hv).2⟩⟩

theorem perm (h : Makes s t ids) (hperm : ids'.Perm ids) : Makes s t ids' :=
  ⟨h.rewired, h.wellBound, h.globals, hperm.nodup_iff.mpr h.nodup,
    fun v hv => h.fresh v (hperm.mem_iff.mp hv)⟩

/-- What does not touch the table afterwards. -/
theorem kept (h : Makes s t ids) (hvars : u.vars = t.vars) (hglobals : u.globals = t.globals) :
    Makes s u ids := by
  have hall := h.append (of_vars hvars hglobals)
  rwa [List.append_nil] at hall

end Makes

theorem add_makes (s : Store) (x : Variable) (hx : x.target = none) :
    Makes s { s with vars := (s.vars.add x).2 } [s.vars.cells.size] := by
  refine ⟨s.vars.rewired_add x hx, fun hs => hs.add x hx, rfl, List.nodup_singleton _, ?_⟩
  rw [List.forall_mem_singleton]
  refine ⟨le_rfl, ?_⟩
  show s.vars.cells.size < (s.vars.cells.push x).size
  rw [Array.size_push]
  exact Nat.lt_succ_self _

theorem makeVariables_makes (guid : String) (fields : Json) (ds : List VariableDescriptor)
    (s : Store) :
    Makes s (makeVariables guid fields ds s).2 ((makeVariables guid fields ds s).1.map (·.2)) := by
  induction ds generalizing s with
  | nil => exact .of_vars rfl rfl
  | cons d rest ih =>
    have hadded := add_makes (s.reportAll (declaredVariable guid fields d).2)
      (Variable.ofData (declaredVariable guid fields d).1) rfl
    have hboth := hadded.append (ih _)
    exact ⟨hboth.rewired, hboth.wellBound, hboth.globals, hboth.nodup, hboth.fresh⟩

theorem addVariables_makes (g : Graph) (data : List VariableData) (s : Store) :
    ∃ ids, (g.addVariables data s).1.blackboard = g.blackboard ++ ids ∧
      Makes s (g.addVariables data s).2 ids := by
  induction data generalizing g s with
  | nil => exact ⟨[], (List.append_nil _).symm, .of_vars rfl rfl⟩
  | cons d rest ih =>
    obtain ⟨ids, hboard, hmade⟩ := ih { g with blackboard := g.blackboard ++ [s.vars.cells.size] }
      { s with vars := (s.vars.add (Variable.ofData d)).2 }
    refine ⟨s.vars.cells.size :: ids, ?_, (add_makes s _ rfl).append hmade⟩
    rw [List.append_cons]
    exact hboard

theorem insert_globals (g : Graph) (x : GraphNode) (s : Store) :
    (g.insert x s).2.globals = s.globals := by
  have hensured : (g.ensureGuid x s).2.globals = s.globals := by
    unfold ensureGuid
    split
    · rfl
    · rfl
  obtain ⟨y, t, heq⟩ : ∃ y t, g.ensureGuid x s = (y, t) := ⟨_, _, rfl⟩
  rw [heq] at hensured
  unfold insert
  simp only [bind, StateT.bind, heq]
  cases y.invalid with
  | none => exact hensured
  | some invalid => exact hensured

/-- The variables of a new node stand among those of the others. -/
theorem insert_own (g : Graph) (x : GraphNode) (s : Store) (hg : g.nodes.WellFormed) :
    ((ownVariables (g.insert x s).1.2.toNetwork).map (·.2.2)).Perm
      ((ownVariables g.toNetwork).map (·.2.2) ++ x.vars.map (·.2)) := by
  obtain ⟨y, ⟨guid, rfl⟩, v, _, hinsert⟩ := g.insert_eq x s
  have hlisted := (g.nodes.toList_insert_perm { x with guid } hg).flatMap_right
    fun e => e.2.vars.map (·.2)
  have hown : ∀ n : Network, (ownVariables n).map (·.2.2)
      = n.nodes.toList.flatMap fun e => e.2.vars.map (·.2) := by
    intro n
    unfold ownVariables
    rw [List.map_flatMap]
    simp only [List.map_map, Function.comp_def]
  rw [hinsert, hown, hown]
  refine hlisted.trans ?_
  rw [List.flatMap_cons]
  exact List.perm_append_comm

/-- Only new variables are made before a node is inserted. -/
theorem makeNode_makes (data : NodeData) (resolved : ResolvedNode) (s : Store) :
    Makes s (makeNode data resolved s).2 ((makeNode data resolved s).1.vars.map (·.2)) := by
  have hvars := makeVariables_makes data.guid data.fields resolved.descriptor.vars
    (s.reportAll (Layout.notices data.guid data.ports resolved.descriptor.ports))
  exact ⟨hvars.rewired, hvars.wellBound, hvars.globals, hvars.nodup, hvars.fresh⟩

/-- The network of a graph has exactly the variables that were made since. -/
structure Owns (g : Graph) (s t : Store) : Prop where
  arena : g.nodes.WellFormed
  made : Makes s t g.toNetwork.owned

theorem Owns.addNode {g : Graph} {s t : Store} (h : g.Owns s t) (registry : Registry)
    (data : NodeData) : (g.addNode registry data t).1.2.Owns s (g.addNode registry data t).2 := by
  obtain ⟨x, u, hadd, hmade⟩ : ∃ x u, g.addNode registry data t = g.insert x u ∧
      Makes t u (x.vars.map (·.2)) := by
    refine ⟨_, _, rfl, ?_⟩
    have hvars := makeNode_makes data (registry.resolve data)
      (t.reportAll (registry.resolveNotices data))
    exact ⟨hvars.rewired, hvars.wellBound, hvars.globals, hvars.nodup, hvars.fresh⟩
  have hown := g.insert_own x u h.arena
  have hall := (h.made.append hmade).kept (g.insert_vars x u) (g.insert_globals x u)
  rw [hadd]
  obtain ⟨y, _, v, _, hinsert⟩ := g.insert_eq x u
  rw [hinsert] at hall hown ⊢
  refine ⟨Arena.insert_wellFormed _ _ h.arena, hall.perm ?_⟩
  unfold Network.owned
  rw [List.append_assoc]
  exact List.Perm.append_left _ hown

theorem Owns.addNodes {g : Graph} {s t : Store} (h : g.Owns s t) (registry : Registry)
    (data : List NodeData) :
    (g.addNodes registry data t).1.Owns s (g.addNodes registry data t).2 := by
  induction data generalizing g t with
  | nil => exact h
  | cons d rest ih => exact ih (h.addNode registry d)

/-- Records and slots do not matter for variables. -/
theorem addIncomingSlots_owned (g : Graph) (s : Store) :
    (g.addIncomingSlots s).1.toNetwork.owned = g.toNetwork.owned ∧
      (g.addIncomingSlots s).2.globals = s.globals := by
  have hlayOut : ∀ (k : Graph) (h : NodeHandle) (t : Store),
      (k.layOut h t).1.toNetwork.owned = k.toNetwork.owned ∧
        (k.layOut h t).2.globals = t.globals := by
    intro k h t
    constructor
    · rw [layOut_graph]
      exact owned_modify k.toNetwork h GraphNode.laidOut fun _ => rfl
    · unfold layOut
      cases k.node? h with
      | none => rfl
      | some x => rfl
  have hlayOutAll : ∀ (hs : List NodeHandle) (k : Graph) (t : Store),
      (k.layOutAll hs t).1.toNetwork.owned = k.toNetwork.owned ∧
        (k.layOutAll hs t).2.globals = t.globals := by
    intro hs
    induction hs with
    | nil => exact fun k t => ⟨rfl, rfl⟩
    | cons h rest ih =>
      intro k t
      obtain ⟨hvars, hglobals⟩ := ih (k.layOut h t).1 (k.layOut h t).2
      exact ⟨hvars.trans (hlayOut k h t).1, hglobals.trans (hlayOut k h t).2⟩
  have hrecord : ∀ (missing : List MissingSlot) (k : Graph),
      (missing.foldl (fun g m => g.modifyRecords m.handle (recordSlot m.port m.index)) k
        ).toNetwork.owned = k.toNetwork.owned := by
    intro missing
    induction missing with
    | nil => exact fun k => rfl
    | cons m rest ih => exact fun k => (ih _).trans (owned_modify k.toNetwork m.handle _ fun _ => rfl)
  obtain ⟨hvars, hglobals⟩ := hlayOutAll
    (distinct ((g.missingSlots.filterMap fun r => r.getLeft?).map (·.handle)))
    ((g.missingSlots.filterMap fun r => r.getLeft?).foldl
      (fun g m => g.modifyRecords m.handle (recordSlot m.port m.index)) g)
    (s.reportAll (g.missingSlots.filterMap fun r => r.getRight?))
  exact ⟨hvars.trans (hrecord _ g), hglobals⟩

theorem placeAll_makes (registry : Registry) (data : GraphData) (s : Store) :
    Makes s (placeAll registry data s).2 (placeAll registry data s).1.toNetwork.owned := by
  have hcreated : (create data.name s).1.Owns s (create data.name s).2 :=
    ⟨Arena.wellFormed_empty, .of_vars rfl rfl⟩
  obtain ⟨c, v, hcv⟩ : ∃ c v, create data.name s = (c, v) := ⟨_, _, rfl⟩
  rw [hcv] at hcreated
  have hnodes := hcreated.addNodes registry data.nodes
  obtain ⟨k, t, hkt⟩ : ∃ k t, c.addNodes registry data.nodes v = (k, t) := ⟨_, _, rfl⟩
  rw [hkt] at hnodes
  obtain ⟨ids, hboard, hvars⟩ := k.addVariables_makes data.vars t
  obtain ⟨l, u, hlu⟩ : ∃ l u, k.addVariables data.vars t = (l, u) := ⟨_, _, rfl⟩
  have hown : ownVariables l.toNetwork = ownVariables k.toNetwork := by
    unfold ownVariables
    rw [show l.nodes = k.nodes by rw [← (k.addVariables_eq data.vars t).1, hlu]]
  rw [hlu] at hboard hvars
  obtain ⟨hslots, hglobals⟩ := l.addIncomingSlots_owned u
  have hall : placeAll registry data s = l.addIncomingSlots u := by
    unfold placeAll
    simp only [bind, StateT.bind, hcv, hkt, hlu]
  rw [hall, hslots]
  refine ((hnodes.made.append hvars).perm ?_).kept (l.addIncomingSlots_retains u).vars hglobals
  unfold Network.owned
  rw [hboard, hown, List.append_assoc, List.append_assoc]
  exact List.Perm.append_left _ List.perm_append_comm

mutual

/-- Hydrating makes the variables of a graph. -/
theorem ofData_makes (registry : Registry) (data : GraphData) (s : Store) :
    Makes s (ofData registry data s).2 (ofData registry data s).1.owned := by
  obtain ⟨name, nodes, vars, groups, functions⟩ := data
  rw [ofData_eq, owned_eq]
  exact (placeAll_makes registry ⟨name, nodes, vars, groups, functions⟩ s).append
    (functionsOfData_makes registry functions _)

theorem functionsOfData_makes (registry : Registry) (functions : List (String × GraphData))
    (s : Store) : Makes s (functionsOfData registry functions s).2
      (owned.functionsOwned (functionsOfData registry functions s).1) := by
  match functions with
  | [] => exact .of_vars rfl rfl
  | (name, data) :: rest =>
    exact (ofData_makes registry data s).append
      (functionsOfData_makes registry rest (ofData registry data s).2)

end

end Graph
end FlowGraph
