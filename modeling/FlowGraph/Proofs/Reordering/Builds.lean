import FlowGraph.Proofs.Graph.Owning
import FlowGraph.Proofs.Reordering.Dispatches
import FlowGraph.Proofs.Reordering.Preparing

/-! # Building the same nodes in another order

    The networks of two orders are prepared alike (`Graph.Shuffled.prepared`), and one has
    dependency paths exactly when the other has.  So compiling succeeds on one exactly when it
    does on the other, and then gives graphs that are the same under other names
    (`Graph.Shuffled.compiled`). -/

namespace FlowGraph

/-! ## Section 1: Networks that are linked -/

namespace Graph

/-- A graph that was built from the same nodes in another order: it is the same under other
    names, and names stay but for those of its nodes and their variables. -/
structure Mirrors (ren : Renaming) (g k : Graph) : Prop where
  alike : g.Alike ren k
  renamed : g.id = ren.graph
  elsewhere : ∀ v, v ∉ (ownVariables g.toNetwork).map (·.2.2) → ren.var v v
  /-- Only nodes that run on demand are left aside. -/
  onDemand : ∀ guid, ren.aside guid →
    ∃ h x, g.node? h = some x ∧ x.guid = guid ∧ x.descriptor.path = .dependency

namespace Placed

variable {registry : Registry} {data : GraphData} {s₀ s : Store} {g : Graph}

/-- A linked node is a placed one with links. -/
theorem linked (hg : Placed registry data s₀ g s) (hregistry : registry.OnDemand)
    (conversions : Conversions) (h : NodeHandle) (y : GraphNode)
    (hy : (g.toNetwork.link conversions).1.node? h = some y) :
    ∃ x, g.node? h = some x ∧ y.unlinked = x.unlinked ∧ y.Fits ∧
      ∃ d ∈ data.nodes, y.guid = d.guid ∧ y.descriptor = (registry.resolve d).descriptor ∧
        y.behavior = (registry.resolve d).behavior := by
  obtain ⟨x, hx, hxy⟩ := Network.node?_of_unlinked_eq (g.link_unlinked conversions).symm h y hy
  obtain ⟨d, hd, hrestores, hopens⟩ := hg.saved h x hx
  have hfits : x.Fits := GraphNode.fits_of_declares x hopens.laidOut fun hpath => by
    rw [hrestores.descriptor] at hpath ⊢
    rw [hrestores.behavior]
    exact hregistry d hpath
  refine ⟨x, hx, hxy.symm, GraphNode.fits_of_unlinked_eq x y hxy.symm hfits, d, hd, ?_, ?_, ?_⟩
  · exact (congrArg GraphNode.guid hxy.symm).trans hrestores.guid
  · exact (congrArg GraphNode.descriptor hxy.symm).trans hrestores.descriptor
  · exact (congrArg GraphNode.behavior hxy.symm).trans hrestores.behavior

theorem distinctEntries (hg : Placed registry data s₀ g s) (hregistry : registry.OnDemand)
    (hnamed : data.Named) (hentries : data.DistinctEntries registry) (conversions : Conversions) :
    (g.toNetwork.link conversions).1.DistinctEntries := by
  intro h k x y name hx hy hname hname'
  obtain ⟨x', hx', hxx, _, d, hd, hguid, _, hbehavior⟩ := hg.linked hregistry conversions h x hx
  obtain ⟨y', hy', hyy, _, e, he, hguid', _, hbehavior'⟩ := hg.linked hregistry conversions k y hy
  have hguids : e.guid = d.guid := by
    refine hentries d hd e he ?_ ?_
    · rw [← hbehavior, hname]
      rfl
    · rw [← hbehavior, ← hbehavior', hname, hname']
  refine hg.distinct hnamed h k x' y' hx' hy' ?_
  have hx'' : x'.guid = x.guid := (congrArg GraphNode.guid hxx.symm :)
  have hy'' : y'.guid = y.guid := (congrArg GraphNode.guid hyy.symm :)
  rw [hx'', hy'', hguid, hguid', hguids]

end Placed

namespace Shuffled

variable {registry : Registry} {data data' : GraphData} {s₀ s t : Store} {g k : Graph}

/-- The linked networks with their paths are the same under other names. -/
theorem pathsAlike (h : Shuffled registry data data' s₀ g k s t)
    (hfree : data.OrderFree registry) (conversions : Conversions) (ps ps' : List (List Nat))
    (hps : (g.toNetwork.link conversions).1.dependencies.paths = .ok ps)
    (hps' : (k.toNetwork.link conversions).1.dependencies.paths = .ok ps') :
    Network.PathsAlike h.names { (g.toNetwork.link conversions).1 with paths := some ps }
      { (k.toNetwork.link conversions).1 with paths := some ps' } := by
  have hsingle := h.left.single h.named hfree.single conversions
  have hlinked := h.reordered.link conversions hsingle
  have hconsistent : ∀ (n : Network) (ps : List (List Nat)), n.Sound →
      Network.Consistent { (n.link conversions).1 with paths := some ps } := fun n ps hn =>
    Network.Keeps.consistent (n := (n.link conversions).1) (.of_nodes rfl rfl)
      ⟨n.link_sound conversions hn, n.link_recorded conversions⟩
  have hfits := fun a x hx => h.left.linked hfree.onDemand conversions a x hx
  refine ⟨⟨hconsistent _ ps h.left.sound, hconsistent _ ps' h.right.sound⟩, ⟨fun a x hx => ?_,
    fun b y hy => ?_⟩, ⟨g.link_sourced conversions, k.link_sourced conversions⟩,
    ⟨⟨ps, rfl, hps⟩, ⟨ps', rfl, hps'⟩⟩, fun a b x _ hx => ?_, hlinked.total,
    fun a b c d hab hcd => h.reordered.needs conversions hsingle hab hcd, fun a x hx hpath => ?_⟩
  · exact (hfits a x hx).choose_spec.2.2.1
  · exact (h.right.linked hfree.onDemand conversions b y hy).choose_spec.2.2.1
  · obtain ⟨y, hy, hxy, _⟩ := hfits a x hx
    have hwidth : h.names.width a = y.ports.length := by
      show ((g.node? a).map (·.ports.length)).getD 0 = _
      rw [hy]
      rfl
    rw [hwidth, length_ports_of_unlinked_eq y x hxy]
  · obtain ⟨_, _, _, _, d, hd, hguid, hdescriptor, _⟩ := hfits a x hx
    exact ⟨d, hd, hguid.symm, hdescriptor ▸ hpath⟩

/-- The linked networks are the same under other names. -/
theorem networksAlike (h : Shuffled registry data data' s₀ g k s t)
    (hfree : data.OrderFree registry) (conversions : Conversions) (ps ps' : List (List Nat)) :
    Network.Renamed h.names { (g.toNetwork.link conversions).1 with paths := some ps }
      { (k.toNetwork.link conversions).1 with paths := some ps' } := by
  have hsingle := h.left.single h.named hfree.single conversions
  have hlinked := h.reordered.link conversions hsingle
  have hentries := h.left.distinctEntries hfree.onDemand h.named hfree.entries conversions
  have hid : ∀ n : Network, (n.link conversions).1.id = n.id := fun n => n.link_id conversions
  have hname : ∀ n : Network, (n.link conversions).1.name = n.name := fun n =>
    (congrArg Network.name (n.link_unlinked conversions) :)
  have hboard : ∀ n : Network, (n.link conversions).1.blackboard = n.blackboard := fun n =>
    (congrArg Network.blackboard (n.link_unlinked conversions) :)
  have hnode : h.names.nodeIn (g.toNetwork.link conversions).1.id = h.names.node := by
    rw [hid, h.left.id]
    exact h.names.nodeIn_graph
  refine ⟨?_, ?_, fun a b hab => ?_, fun guid => ?_, fun name => ?_, ?_, fun v hv => ?_⟩
  · show (k.toNetwork.link conversions).1.id = (g.toNetwork.link conversions).1.id
    rw [hid, hid, h.right.id, h.left.id]
  · show (k.toNetwork.link conversions).1.name = (g.toNetwork.link conversions).1.name
    rw [hname, hname, h.right.name, h.left.name, h.name]
  · rw [hnode] at hab ⊢
    obtain ⟨x, y, hx, hy, hxy, _⟩ := hlinked.node a b hab
    exact .found x y hx hy hxy
  · rw [hnode]
    exact hlinked.handle guid
  · rw [hnode]
    exact hlinked.entry hentries name
  · show (k.toNetwork.link conversions).1.blackboard = (g.toNetwork.link conversions).1.blackboard
    rw [hboard, hboard, h.blackboard]
  · have hmem : v ∈ (g.toNetwork.link conversions).1.blackboard := hv
    rw [hboard] at hmem
    exact .other v (h.board v hmem)

theorem var_of_elsewhere (h : Shuffled registry data data' s₀ g k s t) (conversions : Conversions)
    (v : VarId) (hv : v ∉ (ownVariables (g.toNetwork.link conversions).1).map (·.2.2)) :
    h.names.var v v := by
  rw [ownVariables_link, h.numbered.1.mem_own_iff h.left.sound, not_not] at hv
  exact .other v hv

theorem onDemand_of_aside (h : Shuffled registry data data' s₀ g k s t) (conversions : Conversions)
    (guid : String) (haside : h.names.aside guid) :
    ∃ a x, (g.toNetwork.link conversions).1.node? a = some x ∧ x.guid = guid ∧
      x.descriptor.path = .dependency := by
  obtain ⟨d, hd, rfl, hpath⟩ := haside
  obtain ⟨a, x, hx, hdx, _⟩ := h.left.live d hd
  obtain ⟨y, hy, hyx⟩ := Network.node?_of_unlinked_eq (g.link_unlinked conversions) a x hx
  have hguid : y.guid = x.guid := (congrArg GraphNode.guid hyx :)
  have hdescriptor : y.descriptor = x.descriptor := (congrArg GraphNode.descriptor hyx :)
  exact ⟨a, y, hy, hguid.trans hdx.guid, by rw [hdescriptor, hdx.descriptor, hpath]⟩

/-! ## Section 2: Compiling -/

/-- Preparing the networks leaves open stores behind. -/
theorem prepared (h : Shuffled registry data data' s₀ g k s t) (conversions : Conversions)
    {u v : Store} (huv : Store.Open h.names u v)
    (hu : Store.Open (elsewhere s₀ (ownCount registry data.nodes)) u u)
    (hv : Store.Open (elsewhere s₀ (ownCount registry data.nodes)) v v) :
    Store.Open h.names (prepare conversions g.toNetwork u).2
      (prepare conversions k.toNetwork v).2 := by
  have hprepare : ∀ (n : Network) (w : Store), ∃ log, (prepare conversions n w).2
      = { w.setDisposed n.id false with vars := boundVariables w.globals n w.vars, log } := by
    intro n w
    obtain ⟨log, hbound⟩ := bindVariables_eq n (w.setDisposed n.id false)
    refine ⟨((bindVariables n (w.setDisposed n.id false)).2.reportAll
      (n.link conversions).2.2).log, ?_⟩
    have hsteps : (prepare conversions n w).2
        = (bindVariables n (w.setDisposed n.id false)).2.reportAll (n.link conversions).2.2 := rfl
    rw [hsteps, hbound]
    rfl
  obtain ⟨log, hprepared⟩ := hprepare g.toNetwork u
  obtain ⟨log', hprepared'⟩ := hprepare k.toNetwork v
  have hid : k.id = g.id := h.right.id.trans h.left.id.symm
  have hvars : (boundVariables u.globals g.toNetwork u.vars).Alike h.names.var
      (boundVariables u.globals k.toNetwork v.vars) :=
    h.boundVariables_alike hu.shared huv.vars hu.vars hv.vars
  rw [hprepared, hprepared', hid, huv.globals]
  exact ((huv.setDisposed g.id false).withVars hvars (size_boundVariables _ _ _).ge).reported _ _
    log log'

/-- Two compilations fail, or give the same graphs and stores under other names. -/
inductive CompiledAlike (ren : Renaming) :
    (Graph × Except GraphError Unit) × Store → (Graph × Except GraphError Unit) × Store → Prop where
  | failed (g k : Graph) (e e' : GraphError) (s t : Store) :
    CompiledAlike ren ((g, .error e), s) ((k, .error e'), t)
  | compiled (g k : Graph) (s t : Store) (hgraph : g.Mirrors ren k) (hstores : s.Alike ren t) :
    CompiledAlike ren ((g, .ok ()), s) ((k, .ok ()), t)

/-- Compiling the two graphs. -/
theorem compiled (h : Shuffled registry data data' s₀ g k s t) (hfree : data.OrderFree registry)
    (conversions : Conversions) (hfresh : g.paths = none ∧ k.paths = none)
    (groups groups' : List NodeGroup) (functions : List (String × Graph)) (started started' : Bool)
    (hfunctions : ∀ f ∈ functions, f.2.All (Network.Fixed h.names)) {u v : Store}
    (huv : Store.Open h.names u v)
    (hu : Store.Open (elsewhere s₀ (ownCount registry data.nodes)) u u)
    (hv : Store.Open (elsewhere s₀ (ownCount registry data.nodes)) v v) :
    CompiledAlike h.names
      (Graph.compile conversions ⟨g.toNetwork, groups, functions, started⟩ u)
      (Graph.compile conversions ⟨k.toNetwork, groups', functions, started'⟩ v) := by
  have hsingle := h.left.single h.named hfree.single conversions
  have hpaths := (h.reordered.link conversions hsingle).paths_ok_iff fun a b c d hab hcd =>
    h.reordered.needs conversions hsingle hab hcd
  have hfind : ∀ n : Network, n.paths = none → findPaths (n.link conversions).1
      = (n.link conversions).1.dependencies.paths.map fun paths =>
        { (n.link conversions).1 with paths := some paths } := by
    intro n hn
    unfold findPaths
    rw [n.link_paths, hn]
  have hprepared := h.prepared conversions huv hu hv
  obtain ⟨u', hu'⟩ : ∃ u', prepare conversions g.toNetwork u
      = (((g.toNetwork.link conversions).1, (g.toNetwork.link conversions).2.1), u') := ⟨_, rfl⟩
  obtain ⟨v', hv'⟩ : ∃ v', prepare conversions k.toNetwork v
      = (((k.toNetwork.link conversions).1, (k.toNetwork.link conversions).2.1), v') := ⟨_, rfl⟩
  rw [hu', hv'] at hprepared
  unfold compile
  simp only [bind, StateT.bind, hu', hv', hfind _ hfresh.1, hfind _ hfresh.2]
  cases hps : (g.toNetwork.link conversions).1.dependencies.paths with
  | error e =>
    cases hps' : (k.toNetwork.link conversions).1.dependencies.paths with
    | error e' => exact .failed _ _ e e' _ _
    | ok ps' =>
      obtain ⟨ps, hok⟩ := hpaths.mpr ⟨ps', hps'⟩
      rw [hps] at hok
      cases hok
  | ok ps =>
    obtain ⟨ps', hps'⟩ := hpaths.mp ⟨ps, hps⟩
    have hnetworks := h.networksAlike hfree conversions ps ps'
    rw [hps']
    simp only [Except.map]
    -- the functions do not depend on the network, but for its name in reports
    have hsteady : Work.Steady h.names (fun r => ∀ f ∈ r.1, f.2.All (Network.Fixed h.names))
        (compileFunctions conversions (g.toNetwork.link conversions).1.name functions) :=
      compileFunctions_steady conversions _ functions hfunctions
    obtain ⟨hsame, hfixed, hopen⟩ := hsteady u' v' hprepared
    have hname : (k.toNetwork.link conversions).1.name = (g.toNetwork.link conversions).1.name :=
      hnetworks.name
    obtain ⟨⟨fs, result⟩, u'', hfs⟩ : ∃ r u'', compileFunctions conversions
      (g.toNetwork.link conversions).1.name functions u' = (r, u'') := ⟨_, _, rfl⟩
    obtain ⟨r', v'', hfs'⟩ : ∃ r' v'', compileFunctions conversions
      (k.toNetwork.link conversions).1.name functions v' = (r', v'') := ⟨_, _, rfl⟩
    rw [hfs] at hsame hfixed hopen
    rw [← hname, hfs'] at hsame hopen
    obtain rfl : r' = (fs, result) := hsame
    simp only [StateT.bind, hfs, hfs']
    cases result with
    | error e => exact .failed _ _ e e _ _
    | ok _ =>
      have hid : (g.toNetwork.link conversions).1.id = h.names.graph :=
        (g.toNetwork.link_id conversions).trans h.left.id
      exact .compiled _ _ _ _ ⟨⟨hnetworks, rfl, rfl, hfixed, fun hne => absurd hid hne,
        fun _ => h.pathsAlike hfree conversions ps ps' hps hps'⟩, hid, h.var_of_elsewhere conversions,
        h.onDemand_of_aside conversions⟩ (hopen.toAlike.reported _ _ _ _)

end Shuffled

/-! ## Section 3: Building -/

variable {registry : Registry} {data : GraphData} {nodes : List NodeData} {s₀ : Store}

/-- Hydrating the same nodes in another order. -/
theorem placeAll_shuffled (registry : Registry) (hclosed : s₀.Closed) (hnamed : data.Named)
    (hnodes : data.nodes.Perm nodes) : Shuffled registry data { data with nodes } s₀
      (placeAll registry data s₀).1 (placeAll registry { data with nodes } s₀).1
      (placeAll registry data s₀).2 (placeAll registry { data with nodes } s₀).2 := by
  have hnamed' : GraphData.Named { data with nodes } :=
    ⟨(hnodes.map _).nodup_iff.mp hnamed.nodup,
      fun d hd => hnamed.nonempty d (hnodes.mem_iff.mpr hd)⟩
  exact ⟨placeAll_placed registry data s₀ hnamed, placeAll_placed registry _ s₀ hnamed', hnamed,
    hnodes, rfl, rfl, hclosed⟩

/-- Compiling what was hydrated from the same nodes in another order. -/
theorem ofData_compiled (hclosed : s₀.Closed) (hnamed : data.Named)
    (hnodes : data.nodes.Perm nodes) (hfree : data.OrderFree registry)
    (conversions : Conversions) :
    let h := placeAll_shuffled registry hclosed hnamed hnodes
    let hydrated := ofData registry data s₀
    let hydrated' := ofData registry { data with nodes } s₀
    Shuffled.CompiledAlike h.names (hydrated.1.compile conversions hydrated.2)
      (hydrated'.1.compile conversions hydrated'.2) := by
  intro h hydrated hydrated'
  have hopen := h.open_stores
  have hleft := h.left.open_elsewhere hclosed
  have hright := h.right.open_elsewhere hclosed
  rw [ownCount_perm registry hnodes] at hright
  have hfresh : ∀ d, (placeAll registry d s₀).1.paths = none := by
    intro d
    have hpaths := (ofData_fresh registry d s₀).paths
    rw [ofData_eq] at hpaths
    exact hpaths
  -- the functions are hydrated alike, and nothing is bound to variables of the nodes by that
  obtain ⟨hmade, hfixed, hboth⟩ := functionsOfData_steady registry data.functions _ _ hopen
  obtain ⟨_, _, hleft⟩ := functionsOfData_steady registry data.functions _ _ hleft
  obtain ⟨_, _, hright⟩ := functionsOfData_steady registry data.functions _ _ hright
  have hhydrated : hydrated = _ := ofData_eq registry data s₀
  have hhydrated' : hydrated' = _ := ofData_eq registry { data with nodes } s₀
  rw [hhydrated, hhydrated']
  dsimp only
  rw [hmade]
  exact h.compiled hfree conversions ⟨hfresh data, hfresh _⟩ _ _ _ _ _ hfixed hboth hleft hright

end Graph
end FlowGraph
