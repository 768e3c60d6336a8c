import FlowGraph.Proofs.Graph.Linked
import FlowGraph.Proofs.Graph.Loading
import FlowGraph.Proofs.Graph.Marks

/-! # Graphs that have what running nodes look up

    A running graph looks up the dependency paths of nodes, the nodes on them, and the nodes
    that control outputs lead to.  In a network that is `Complete` all of these are there.

    Edits remove nodes and reuse their places, and paths may outlive the links that they were
    found for.  So this is claimed of compiled graphs only; what every operation
    preserves is `Graph.Kept`, and it holds of a hosted graph and of all functions in it
    (`Hosted.kept`). -/

namespace FlowGraph

namespace Network

/-! ## Section 1: Complete networks -/

/-- The handle names a node. -/
def Live (n : Network) (h : NodeHandle) : Prop := ∃ x, n.node? h = some x

/-- Control outputs lead to nodes. -/
def TargetsLive (n : Network) : Prop :=
  ∀ h x, n.node? h = some x → ∀ p ∈ x.ports, ∀ k, p.target = some k → n.Live k

/-- There is a cached path for each node, and it lists positions of nodes. -/
def PathsFit (n : Network) : Prop :=
  ∀ ps, n.paths = some ps → ps.length = n.order.length ∧ ∀ p ∈ ps, ∀ i ∈ p, i < n.order.length

/-- Whatever a running node looks up is there. -/
structure Complete (n : Network) : Prop where
  sound : n.Sound
  cached : ∃ ps, n.paths = some ps
  fit : n.PathsFit
  targets : n.TargetsLive

/-- A position in the order is that of a node. -/
theorem exists_handleAt (n : Network) (hn : n.Sound) (i : Nat) (hi : i < n.order.length) :
    ∃ m, n.handleAt i = some m ∧ n.Live m :=
  ⟨n.order[i], List.getElem?_eq_getElem hi, (hn.mem_order_iff _).mp (List.getElem_mem hi)⟩

/-- Each node has a path, of which no position is dropped, and all nodes on it are there. -/
theorem Complete.dependencyPath {n : Network} (hn : n.Complete) (h : NodeHandle) (hh : n.Live h) :
    ∃ i p path, n.indexOf h = some i ∧ (n.paths.bind (·[i]?)) = some p ∧
      n.dependencyPath h = .ok path ∧ p.map n.handleAt = path.map some ∧
      ∀ m ∈ path, n.Live m := by
  obtain ⟨x, hx⟩ := hh
  obtain ⟨ps, hps⟩ := hn.cached
  obtain ⟨hlength, hpositions⟩ := hn.fit ps hps
  obtain ⟨i, hi, hget⟩ := n.exists_indexOf hn.sound h x hx
  have hlt : i < ps.length := hlength ▸ (List.getElem?_eq_some_iff.mp hget).1
  have hp : ps[i]? = some ps[i] := List.getElem?_eq_getElem hlt
  have hnodes : ∀ j ∈ ps[i], ∃ m, n.handleAt j = some m ∧ n.Live m := fun j hj =>
    n.exists_handleAt hn.sound j (hpositions _ (List.getElem_mem hlt) j hj)
  refine ⟨i, ps[i], ps[i].filterMap n.handleAt, hi, by rw [hps]; exact hp, ?_, ?_, ?_⟩
  · simp [Network.dependencyPath, hps, hi, hp]
  · rw [List.map_filterMap, List.filterMap_eq_map_iff_forall_eq_some.mpr]
    intro j hj
    obtain ⟨m, hm, _⟩ := hnodes j hj
    rw [hm]
    rfl
  · intro m hm
    obtain ⟨j, hj, hjm⟩ := List.mem_filterMap.mp hm
    obtain ⟨k, hk, hlive⟩ := hnodes j hj
    rw [hjm] at hk
    cases hk
    exact hlive

theorem live_of_findEntry (n : Network) (name : String) (h : NodeHandle)
    (hfound : n.findEntry name = some h) : n.Live h := by
  obtain ⟨x, hx, _⟩ := n.entry_of_findEntry name h hfound
  exact ⟨x, hx⟩

theorem live_of_handleOf (n : Network) (guid : String) (h : NodeHandle)
    (hh : n.handleOf guid = some h) : n.Live h := by
  obtain ⟨x, hx, _⟩ := n.exists_of_handleOf guid h hh
  exact ⟨x, hx⟩

/-! ## Section 2: Linking and finding paths -/

/-- Linking leads control outputs to nodes. -/
theorem link_targetsLive (n : Network) (conversions : Conversions) :
    (n.link conversions).1.TargetsLive := by
  intro h x hx p hp k hk
  obtain ⟨i, hi⟩ := List.mem_iff_getElem?.mp hp
  have hport : (n.link conversions).1.port? ⟨h, i⟩ = some p :=
    (port?_eq_some_iff _ ⟨h, i⟩ p).mpr ⟨x, hx, hi⟩
  obtain ⟨_, _, input, _, ⟨_, y, hy, _⟩, hnew | ⟨_, hnew⟩⟩ :=
    checkAll_ok _ _ _ ((n.link_port conversions _ p hport).2 k hk)
  · cases hnew
    rw [node?_unlinked] at hy
    obtain ⟨z, hz, _⟩ := Option.map_eq_some_iff.mp hy
    obtain ⟨w, hw, _⟩ := node?_of_unlinked_eq (n.link_unlinked conversions) _ z hz
    exact ⟨w, hw⟩
  · cases hnew

/-- Paths that were just found fit. -/
theorem fit_of_found (n : Network) (hn : n.Sound) (ps : List (List Nat))
    (hfound : n.dependencies.paths = .ok ps) :
    ps.length = n.order.length ∧ ∀ p ∈ ps, ∀ i ∈ p, i < n.order.length := by
  have hrange := n.dependencies_inRange hn
  have hsize := n.dependencies_size hn
  have hlength := (Dependencies.mapM_ok _ _ ps hfound).length_eq
  rw [List.length_range, hsize] at hlength
  refine ⟨hlength.symm, fun p hp i hi => ?_⟩
  obtain ⟨j, hj, rfl⟩ := List.mem_iff_getElem.mp hp
  have hlt : j < n.dependencies.size := by omega
  obtain ⟨q, hq, hpath⟩ := Dependencies.pathFor_of_paths _ ps hfound j hlt
  rw [List.getElem?_eq_getElem hj] at hq
  cases hq
  -- what a node needs is a node
  have hneeds := (Dependencies.mem_pathFor_iff _ j _ hrange hlt hpath i).mp hi
  rw [← hsize]
  cases hneeds with
  | single hneed => exact hrange _ _ hneed.1
  | tail _ hneed => exact hrange _ _ hneed.1

/-- Paths fit as long as the nodes are the same. -/
theorem PathsFit.of_dependencies {n m : Network} (hn : n.PathsFit) (hsound : n.Sound)
    (hsound' : m.Sound) (hpaths : m.paths = n.paths) (hdependencies : m.dependencies = n.dependencies) :
    m.PathsFit := by
  intro ps hps
  rw [← m.dependencies_size hsound', hdependencies, n.dependencies_size hsound]
  exact hn ps (hpaths ▸ hps)

/-- Records may change as long as ports stay. -/
theorem TargetsLive.of_wiring {n m : Network} (hn : n.TargetsLive) (hwiring : m.wiring = n.wiring) :
    m.TargetsLive := by
  have hnode : ∀ h, (m.node? h).map GraphNode.wiring = (n.node? h).map GraphNode.wiring := by
    intro h
    rw [← node?_wiring, ← node?_wiring, hwiring]
  intro h x hx p hp k hk
  have hsame := hnode h
  rw [hx] at hsame
  obtain ⟨y, hy, hxy⟩ := Option.map_eq_some_iff.mp hsame.symm
  have hports : y.wiring.ports = x.wiring.ports := by rw [hxy]
  change y.ports = x.ports at hports
  obtain ⟨z, hz⟩ := hn h y hy p (hports ▸ hp) k hk
  have hlive := hnode k
  rw [hz] at hlive
  obtain ⟨w, hw, _⟩ := Option.map_eq_some_iff.mp hlive
  exact ⟨w, hw⟩

end Network

namespace Graph

/-! ## Section 3: What every operation preserves -/

/-- The cached paths fit, and a compiled graph has them and leads to nodes only. -/
structure Kept (g : Graph) : Prop where
  consistent : g.toNetwork.Consistent
  fit : g.toNetwork.PathsFit
  cached : g.compiled = true → ∃ ps, g.paths = some ps
  targets : g.compiled = true → g.toNetwork.TargetsLive

theorem Kept.complete {g : Graph} (hg : g.Kept) (hcompiled : g.compiled = true) :
    g.toNetwork.Complete :=
  ⟨hg.consistent.sound, hg.cached hcompiled, hg.fit, hg.targets hcompiled⟩

theorem kept_ofData (registry : Registry) (data : GraphData) (s : Store) :
    (ofData registry data s).1.Kept := by
  have hfresh := ofData_fresh registry data s
  refine ⟨ofData_consistent registry data s, fun ps hps => ?_, fun h => ?_, fun h => ?_⟩
  · rw [hfresh.paths] at hps
    cases hps
  · rw [hfresh.compiled] at h
    cases h
  · rw [hfresh.compiled] at h
    cases h

/-- A slot that is opened leads nowhere. -/
theorem setConstant_targetsLive (g : Graph) (slot : SlotRef) (v : Value) (s : Store)
    (hg : g.toNetwork.TargetsLive) : (g.setConstant slot v s).1.1.toNetwork.TargetsLive := by
  rcases g.setConstant_cases slot v s with heq | ⟨h, heq⟩ | ⟨_, h, heq⟩
  · rw [heq]
    exact hg
  · rw [heq]
    exact hg.of_wiring (g.wiring_constantRecord h slot v)
  · have hkeeps := (g.setConstant_keeps slot v s).network
    rw [heq] at hkeeps ⊢
    intro k y hy p hp l hl
    change ((g.modifyRecords h (constantRecord slot v)).nodes.modify h GraphNode.laidOut).get? k
      = some y at hy
    rw [Arena.get?_modify] at hy
    split at hy
    · obtain ⟨x, _, rfl⟩ := Option.map_eq_some_iff.mp hy
      rw [← GraphNode.portsOf_unlinked _ _ p hp] at hl
      cases hl
    · obtain ⟨x, hx⟩ := hg.of_wiring (g.wiring_constantRecord h slot v) k y hy p hp l hl
      obtain ⟨w, hw, _⟩ := (g.modifyRecords_keeps h _).network.before l x hx
      obtain ⟨z, hz, _⟩ := hkeeps.after l w hw
      exact ⟨z, hz⟩

theorem apply_kept (op : Operation) (st : State) (hst : st.1.Kept) : (op.apply st).1.Kept := by
  have hconsistent := apply_consistent op st hst.consistent
  have heffect := effect_apply op st
  refine ⟨hconsistent, ?_, fun hcompiled => ?_, fun hcompiled => ?_⟩
  · cases heffect with
    | drop hfresh =>
      intro ps hps
      rw [hfresh.paths] at hps
      cases hps
    | keep hpaths _ hdependencies _ =>
      exact hst.fit.of_dependencies hst.consistent.sound hconsistent.sound hpaths hdependencies
    | fill _ ps _ _ hpaths hfound _ _ =>
      intro ps' hps'
      rw [hpaths] at hps'
      cases hps'
      exact Network.fit_of_found _ hconsistent.sound ps hfound
    | reuse conversions ps _ hknown hpaths hdependencies _ =>
      -- linking keeps the nodes in their order
      have hlink : (st.1.link conversions).1.PathsFit := by
        intro ps' hps'
        rw [st.1.link_paths conversions] at hps'
        rw [st.1.link_order conversions]
        exact hst.fit ps' hps'
      refine hlink.of_dependencies (st.1.link_sound conversions hst.consistent.sound)
        hconsistent.sound ?_ hdependencies
      rw [hpaths, st.1.link_paths conversions, hknown]
  · cases heffect with
    | drop hfresh =>
      rw [hfresh.compiled] at hcompiled
      cases hcompiled
    | keep hpaths hbefore _ _ =>
      rw [hpaths]
      exact hst.cached (hbefore hcompiled)
    | fill _ ps _ _ hpaths _ _ _ => exact ⟨ps, hpaths⟩
    | reuse _ ps _ _ hpaths _ _ => exact ⟨ps, hpaths⟩
  · by_cases hop : ∃ conversions, op = .compile conversions
    · obtain ⟨conversions, rfl⟩ := hop
      have hlinked := compile_linked st.1 conversions st.2 hcompiled
      have htargets := Network.link_targetsLive
        (st.1.compile conversions st.2).1.1.toNetwork conversions
      rw [hlinked] at htargets
      exact htargets
    · obtain ⟨hbefore, ⟨slot, v, rfl, _⟩ | hwiring⟩ :=
        wiring_of_compiled op st hcompiled fun c hc => hop ⟨c, hc⟩
      · exact st.1.setConstant_targetsLive slot v st.2 (hst.targets hbefore)
      · exact (hst.targets hbefore).of_wiring hwiring

/-! ## Section 4: Hosted graphs -/

mutual

/-- Induction over a graph and its functions. -/
theorem nested_induction (P : Graph → Prop) (h : ∀ g : Graph, (∀ e ∈ g.functions, P e.2) → P g)
    (g : Graph) : P g := by
  obtain ⟨n, groups, functions, compiled⟩ := g
  exact h _ (nested_functions P h functions)

theorem nested_functions (P : Graph → Prop) (h : ∀ g : Graph, (∀ e ∈ g.functions, P e.2) → P g)
    (functions : List (String × Graph)) : ∀ e ∈ functions, P e.2 := by
  match functions with
  | [] => exact List.forall_mem_nil _
  | (name, f) :: rest =>
    exact List.forall_mem_cons.mpr ⟨nested_induction P h f, nested_functions P h rest⟩

end

variable {P : Graph → Prop}

/-- What compiling preserves of each graph it preserves of all graphs within. -/
theorem compile_within (hcompile : ∀ (g : Graph) c s, P g → P (g.compile c s).1.1)
    (conversions : Conversions) (g : Graph) (s : Store) (hg : ∀ f : Graph, f.Within g → P f) :
    ∀ f : Graph, f.Within (g.compile conversions s).1.1 → P f := by
  induction g using nested_induction generalizing s with
  | h g ih =>
    intro f hf
    have hfunction : ∀ e ∈ g.functions, ∀ k : Graph, k.Within e.2 → P k :=
      fun e he k hk => hg k (.function g e he hk)
    rcases (within_iff f _).mp hf with rfl | ⟨e, he, hfe⟩
    · exact hcompile g conversions s (hg g .self)
    · rcases g.compile_functions conversions s with heq | ⟨graph, t, heq⟩
      · rw [heq] at he
        exact hfunction e he f hfe
      · rw [heq] at he
        obtain ⟨k, hk, hsame | ⟨u, hcompiled⟩⟩ := mem_compileFunctions _ _ _ _ e he
        · exact hfunction k hk f (hsame ▸ hfe)
        · rw [hcompiled] at hfe
          exact ih k hk u (hfunction k hk) f hfe

/-- What operations preserve of each graph holds of all graphs within a hosted one. -/
theorem Hosted.within {g : Graph} (hg : Hosted g)
    (hdata : ∀ registry data s, P (ofData registry data s).1)
    (hstep : ∀ (op : Operation) (st : State), P st.1 → P (op.apply st).1) :
    ∀ f : Graph, f.Within g → P f := by
  induction hg with
  | hydrated registry data s => exact ofData_within P registry (hdata registry) data s
  | apply op g s _ _ ih ihfunction =>
    rcases apply_functions op (g, s) with ⟨conversions, rfl⟩ | ⟨name, k, rfl, hfunctions⟩ | hfunctions
    · exact compile_within (fun g c s => hstep (.compile c) (g, s)) conversions g s ih
    · intro f hf
      rcases (within_iff f _).mp hf with rfl | ⟨e, he, hfe⟩
      · exact hstep _ (g, s) (ih g .self)
      · rw [hfunctions] at he
        rcases List.mem_append.mp he with he | he
        · exact ih f (.function g e (List.mem_filter.mp he).1 hfe)
        · rw [List.mem_singleton.mp he] at hfe
          exact ihfunction name k rfl f hfe
    · intro f hf
      rcases (within_iff f _).mp hf with rfl | ⟨e, he, hfe⟩
      · exact hstep op (g, s) (ih g .self)
      · rw [hfunctions] at he
        exact ih f (.function g e he hfe)

theorem All.within {P : Network → Prop} {f g : Graph} (hg : g.All P) (hf : f.Within g) :
    P f.toNetwork := by
  induction hf with
  | self => exact hg.network
  | function g e he _ ih => exact ih (hg.functions e he)

theorem Hosted.kept {g : Graph} (hg : Hosted g) : ∀ f : Graph, f.Within g → f.Kept :=
  hg.within kept_ofData apply_kept

/-- Compiled graphs are complete, also those within hosted graphs. -/
theorem Hosted.complete {f g : Graph} (hg : Hosted g) (hf : f.Within g) (hcompiled : f.compiled = true) :
    f.toNetwork.Complete := (hg.kept f hf).complete hcompiled

end Graph
end FlowGraph
