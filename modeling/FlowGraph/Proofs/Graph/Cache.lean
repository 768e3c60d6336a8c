import FlowGraph.Proofs.Graph.Editing
import FlowGraph.Proofs.Graph.Wiring

/-! # Dependency paths in the cache

    A compilation finds the dependency paths if none are known, and reuses them otherwise.
    So the paths of a compiled graph are those of the compilation that found them last
    (`Filled`), and they are right for the links that the graph has now if it was linked in
    the same way since (`Steady`): with the same conversions, and with no slot opened by a
    constant.  Both conditions are needed. -/

namespace FlowGraph

namespace Graph

open Relation

/-! ## Section 1: Operations and the cache -/

/-- What an operation does to the cache. -/
inductive Effect (op : Operation) (g k : Graph) : Prop where
  /-- The paths are dropped, and the graph is not compiled. -/
  | drop (fresh : k.Fresh)
  /-- Dependencies stay, and so does the wiring unless a constant opens a slot. -/
  | keep (paths : k.paths = g.paths) (compiled : k.compiled = true → g.compiled = true)
      (dependencies : k.dependencies = g.dependencies)
      (wiring : (∃ slot v, op = .setConstant slot v ∧ g.Lacks slot) ∨
        k.wiring.unlinked = g.wiring.unlinked)
  /-- The paths are found. -/
  | fill (conversions : Conversions) (ps : List (List Nat)) (compile : op = .compile conversions)
      (empty : g.paths = none) (paths : k.paths = some ps) (found : k.dependencies.paths = .ok ps)
      (dependencies : k.dependencies = (g.link conversions).1.dependencies)
      (wiring : k.wiring.unlinked = g.wiring.unlinked)
  /-- The graph is linked anew, but the paths stay. -/
  | reuse (conversions : Conversions) (ps : List (List Nat)) (compile : op = .compile conversions)
      (known : g.paths = some ps) (paths : k.paths = some ps)
      (dependencies : k.dependencies = (g.link conversions).1.dependencies)
      (wiring : k.wiring.unlinked = g.wiring.unlinked)

theorem Effect.unchanged (op : Operation) (g : Graph) : Effect op g g :=
  .keep rfl (fun h => h) rfl (.inr rfl)

/-- Constants are no part of the wiring. -/
theorem connected_constantRecord (slot : SlotRef) (v : Value) (records : List PortData) :
    connected (constantRecord slot v records) = connected records := by
  unfold constantRecord
  induction records with
  | nil => rfl
  | cons r rest ih =>
    unfold NodeData.modifyRecord
    split
    · by_cases hr : r.connections.isEmpty = true
      · simp [connected, hr]
      · simp [connected, hr]
    · unfold connected at ih ⊢
      by_cases hr : r.connections.isEmpty = true
      · simpa [hr] using ih
      · simpa [hr] using ih

theorem wiring_constantRecord (g : Graph) (h : NodeHandle) (slot : SlotRef) (v : Value) :
    (g.modifyRecords h (constantRecord slot v)).wiring = g.wiring := by
  unfold modifyRecords Network.wiring
  dsimp only
  rw [Arena.map_modify]
  intro x
  unfold GraphNode.wiring
  dsimp only
  rw [connected_constantRecord]

theorem effect_setConstant (g : Graph) (slot : SlotRef) (v : Value) (s : Store) :
    Effect (.setConstant slot v) g (g.setConstant slot v s).1.1 := by
  have hk := g.setConstant_keeps slot v s
  refine .keep hk.paths (fun h => by rw [← h, hk.compiled]) hk.network.dependencies ?_
  rcases g.setConstant_cases slot v s with heq | ⟨h, heq⟩ | ⟨hlacks, _⟩
  · right
    rw [heq]
  · right
    rw [heq, wiring_constantRecord]
  · exact .inl ⟨slot, v, rfl, hlacks⟩

theorem effect_compile (g : Graph) (conversions : Conversions) (s : Store) :
    Effect (.compile conversions) g (g.compile conversions s).1.1 := by
  have hwiring : (g.link conversions).1.wiring.unlinked = g.wiring.unlinked := by
    rw [← Network.wiring_unlinked, g.link_unlinked, Network.wiring_unlinked]
  have hpaths := g.link_paths conversions
  rcases g.compile_cases conversions s with ⟨ps, hps, heq⟩ | ⟨hnone, ps, hfound, heq⟩ |
    ⟨hnone, _, heq, hcompiled, _⟩
  · refine .reuse conversions ps rfl hps ?_ ?_ ?_
    · rw [heq, hpaths, hps]
    · rw [heq]
    · rw [heq, hwiring]
  · refine .fill conversions ps rfl hnone ?_ ?_ ?_ ?_
    · rw [heq]
    · rw [heq]
      exact hfound
    · rw [heq]
      rfl
    · rw [heq]
      exact hwiring
  · refine .drop ⟨?_, hcompiled⟩
    rw [heq, hpaths, hnone]

theorem effect_apply (op : Operation) (st : State) : Effect op st.1 (op.apply st).1 := by
  obtain ⟨g, s⟩ := st
  cases op with
  | addNode registry data => exact .drop (insert_fresh _ _ _)
  | addLive guid descriptor behavior => exact .drop (insert_fresh _ _ _)
  | removeNode h =>
    rcases g.removeNode_cases s.vars h with heq | ⟨hpaths, hcompiled⟩
    · show Effect _ g (g.removeNode s.vars h).2
      rw [heq]
      exact .unchanged _ g
    · exact .drop ⟨hpaths, hcompiled⟩
  | connect source target =>
    unfold Operation.apply
    dsimp only
    split
    · rename_i g' s' heq
      obtain ⟨k, _, rfl⟩ := g.connect_invalidates source target s g' (by rw [heq])
      exact .drop k.invalidate_fresh
    · exact .unchanged _ g
  | setConstant slot v => exact g.effect_setConstant slot v s
  | addFunction name f =>
    exact .keep rfl (fun h => by cases h) rfl (.inr rfl)
  | addGroup group => exact .keep rfl (fun h => h) rfl (.inr rfl)
  | clearPaths => exact .drop ⟨rfl, rfl⟩
  | dispose => exact .unchanged _ g
  | compile conversions => exact g.effect_compile conversions s
  | elsewhere work => exact .unchanged _ g

/-! ## Section 2: The compilation that found the paths -/

/-- The paths were found by the compilation after the first operations, and they were kept
    all through the last ones. -/
structure Filled (start : State) (before : List Operation) (conversions : Conversions)
    (after : List Operation) (ps : List (List Nat)) : Prop where
  /-- No paths were known. -/
  empty : (run before start).1.paths = none
  /-- They are the paths of the dependencies that the compilation recorded. -/
  found : (run (before ++ [.compile conversions]) start).1.dependencies.paths = .ok ps
  kept : ∀ p, p <+: after → (run p (run (before ++ [.compile conversions]) start)).1.paths = some ps

/-- A constant was set at a slot that its node lacked. -/
def Opened (st : State) (ops : List Operation) : Prop :=
  ∃ p slot v q, ops = p ++ .setConstant slot v :: q ∧ (run p st).1.Lacks slot

/-- Whenever the graph was compiled it was with these conversions, and no constant had
    opened a slot before. -/
def Steady (conversions : Conversions) (st : State) (ops : List Operation) : Prop :=
  ∀ p c q, ops = p ++ .compile c :: q → c = conversions ∧ ¬ Opened st p

theorem not_opened_of_snoc (st : State) (ops : List Operation) (op : Operation)
    (h : ¬ Opened st (ops ++ [op])) : ¬ Opened st ops := by
  rintro ⟨p, slot, v, q, rfl, hlacks⟩
  exact h ⟨p, slot, v, q ++ [op], by simp, hlacks⟩

theorem steady_of_snoc (conversions : Conversions) (st : State) (ops : List Operation)
    (op : Operation) (h : Steady conversions st (ops ++ [op])) : Steady conversions st ops := by
  rintro p c q rfl
  exact h p c (q ++ [op]) (by simp)

/-- A graph has no paths and is not compiled, or its paths were found by a compilation. -/
theorem exists_filled (start : State) (hstart : start.1.Fresh) (ops : List Operation) :
    (run ops start).1.Fresh ∨ ∃ before conversions after ps,
      ops = before ++ .compile conversions :: after ∧ Filled start before conversions after ps := by
  induction ops using List.reverseRecOn with
  | nil => exact .inl hstart
  | append_singleton ops op ih =>
    have hstep := effect_apply op (run ops start)
    rw [← run_snoc] at hstep
    -- a compilation that filled the cache before is still the one if the paths stay
    have hextend : (∃ before conversions after ps, ops = before ++ .compile conversions :: after ∧
          Filled start before conversions after ps) →
        (run (ops ++ [op]) start).1.paths = (run ops start).1.paths →
        ∃ before conversions after ps, ops ++ [op] = before ++ .compile conversions :: after ∧
          Filled start before conversions after ps := by
      rintro ⟨before, conversions, after, ps, rfl, hfilled⟩ hpaths
      refine ⟨before, conversions, after ++ [op], ps, by simp, hfilled.empty, hfilled.found, ?_⟩
      intro p hp
      rcases List.prefix_concat_iff.mp hp with rfl | hp
      · have hlast := hfilled.kept after (List.prefix_refl after)
        rw [← run_append] at hlast ⊢
        simp only [List.append_assoc, List.cons_append, List.nil_append] at hlast hpaths ⊢
        rw [hpaths, hlast]
      · exact hfilled.kept p hp
    cases hstep with
    | drop hfresh => exact .inl hfresh
    | keep hpaths hcompiled _ _ =>
      rcases ih with hfresh | hfilled
      · -- nothing that keeps the paths compiles the graph
        left
        refine ⟨hpaths.trans hfresh.paths, ?_⟩
        rw [Bool.eq_false_iff]
        intro hk
        have hg := hcompiled hk
        rw [hfresh.compiled] at hg
        cases hg
      · exact .inr (hextend hfilled hpaths)
    | fill conversions ps hop hempty hpaths hfound _ _ =>
      -- from here on this is the compilation
      right
      refine ⟨ops, conversions, [], ps, by rw [hop], hempty, by rw [← hop]; exact hfound, ?_⟩
      intro p hp
      rw [List.prefix_nil.mp hp, ← hop]
      exact hpaths
    | reuse conversions ps hop hknown hpaths _ _ =>
      rcases ih with hfresh | hfilled
      · rw [hfresh.paths] at hknown
        cases hknown
      · exact .inr (hextend hfilled (hpaths.trans hknown.symm))

/-! ## Section 3: Steady runs -/

/-- While the paths are kept, only a constant that opens a slot changes the wiring. -/
theorem wiring_of_kept (st : State) (ops : List Operation) (ps : List (List Nat))
    (hkept : ∀ p, p <+: ops → (run p st).1.paths = some ps) (hopened : ¬ Opened st ops) :
    (run ops st).1.wiring.unlinked = st.1.wiring.unlinked := by
  induction ops using List.reverseRecOn with
  | nil => rfl
  | append_singleton ops op ih =>
    have hbefore := ih (fun p hp => hkept p (hp.trans (List.prefix_append ops [op])))
      (not_opened_of_snoc st ops op hopened)
    have hlast := hkept (ops ++ [op]) (List.prefix_refl _)
    have hstep := effect_apply op (run ops st)
    rw [← run_snoc] at hstep
    cases hstep with
    | drop hfresh =>
      rw [hfresh.paths] at hlast
      cases hlast
    | keep _ _ _ hwiring =>
      rcases hwiring with ⟨slot, v, rfl, hlacks⟩ | hwiring
      · exact absurd ⟨ops, slot, v, [], rfl, hlacks⟩ hopened
      · exact hwiring.trans hbefore
    | fill _ _ _ _ _ _ _ hwiring => exact hwiring.trans hbefore
    | reuse _ _ _ _ _ _ hwiring => exact hwiring.trans hbefore

/-- While the paths are kept and the graph is linked in the same way, every node keeps its
    dependencies. -/
theorem dependencies_of_kept (st : State) (ops : List Operation) (ps : List (List Nat))
    (conversions : Conversions)
    (hlinked : st.1.dependencies = (st.1.link conversions).1.dependencies)
    (hkept : ∀ p, p <+: ops → (run p st).1.paths = some ps) (hsteady : Steady conversions st ops) :
    (run ops st).1.dependencies = st.1.dependencies := by
  induction ops using List.reverseRecOn with
  | nil => rfl
  | append_singleton ops op ih =>
    have hprefix : ∀ p, p <+: ops → (run p st).1.paths = some ps :=
      fun p hp => hkept p (hp.trans (List.prefix_append ops [op]))
    have hbefore := ih hprefix (steady_of_snoc conversions st ops op hsteady)
    have hlast := hkept (ops ++ [op]) (List.prefix_refl _)
    -- linking anew does what the first compilation did
    have hrelink : ∀ c, op = .compile c →
        ((run ops st).1.link c).1.dependencies = st.1.dependencies := by
      rintro c rfl
      obtain ⟨rfl, hopened⟩ := hsteady ops c [] rfl
      rw [hlinked]
      exact Network.link_dependencies_congr _ _ _ (wiring_of_kept st ops ps hprefix hopened)
    have hstep := effect_apply op (run ops st)
    rw [← run_snoc] at hstep
    cases hstep with
    | drop hfresh =>
      rw [hfresh.paths] at hlast
      cases hlast
    | keep _ _ hdependencies _ => exact hdependencies.trans hbefore
    | fill c _ hop _ _ _ hdependencies _ => exact hdependencies.trans (hrelink c hop)
    | reuse c _ hop _ _ hdependencies _ => exact hdependencies.trans (hrelink c hop)

/-- The compilation that found the paths linked the graph with its conversions. -/
theorem filled_linked (start : State) (before after : List Operation) (conversions : Conversions)
    (ps : List (List Nat)) (hfilled : Filled start before conversions after ps) :
    let st := run (before ++ [.compile conversions]) start
    st.1.dependencies = (st.1.link conversions).1.dependencies := by
  intro st
  have hpaths : st.1.paths = some ps := hfilled.kept [] List.nil_prefix
  have hstep : Effect (.compile conversions) (run before start).1 st.1 := by
    show Effect _ _ (run (before ++ [.compile conversions]) start).1
    rw [run_snoc]
    exact effect_apply (.compile conversions) (run before start)
  cases hstep with
  | drop hfresh =>
    rw [hfresh.paths] at hpaths
    cases hpaths
  | keep hkept _ _ _ =>
    rw [hkept, hfilled.empty] at hpaths
    cases hpaths
  | fill c _ hop _ _ _ hdependencies hwiring =>
    -- linking the linked graph again makes the same links
    cases hop
    rw [hdependencies]
    exact Network.link_dependencies_congr _ _ _ hwiring.symm
  | reuse _ _ _ hknown _ _ _ =>
    rw [hfilled.empty] at hknown
    cases hknown

/-! ## Section 4: Coherence -/

/-- A node that runs on demand is linked to an input of another one. -/
def Feeds (n : Network) (m h : NodeHandle) : Prop :=
  (∃ x, n.node? h = some x ∧ ∃ p ∈ x.ports, ∃ link, p.link = some link ∧ link.source.node = m) ∧
    (∃ y, n.node? m = some y ∧ y.descriptor.path = .dependency) ∧ m ≠ h

theorem needsNode_of_feeds (n : Network) (hn : n.Recorded) (m h : NodeHandle)
    (hfeeds : Feeds n m h) : n.NeedsNode h m := by
  obtain ⟨⟨x, hx, p, hp, link, hlink, rfl⟩, ⟨y, hy, hpath⟩, hne⟩ := hfeeds
  refine ⟨x, y, hx, ?_, hy, hpath⟩
  exact (hn h x hx p hp link hlink).resolve_left hne

/-- The paths of a compiled graph are those of the compilation that found them.  If the
    graph was linked in the same way since, they are the paths of the dependencies that its
    nodes have now: whatever feeds a node is in its path, and no node feeds itself through
    others. -/
theorem paths_of_compiled (registry : Registry) (data : GraphData) (s : Store)
    (ops : List Operation) :
    let start := hydrated registry data s
    let g := (run ops start).1
    g.compiled = true →
      ∃ before conversions after ps,
        ops = before ++ .compile conversions :: after ∧
        Filled start before conversions after ps ∧ g.paths = some ps ∧
        (Steady conversions (run (before ++ [.compile conversions]) start) after →
          g.dependencies.paths = .ok ps ∧
          (∀ h x, g.node? h = some x → ∃ path, g.dependencyPath h = .ok path ∧
            ∀ m, Feeds g.toNetwork m h → m ∈ path) ∧
          ∀ h, ¬ TransGen (fun k m => Feeds g.toNetwork m k) h h) := by
  intro start g hcompiled
  rcases exists_filled start (ofData_fresh registry data s) ops with
    hfresh | ⟨before, conversions, after, ps, hops, hfilled⟩
  · rw [hfresh.compiled] at hcompiled
    cases hcompiled
  · have hrun : run ops start = run after (run (before ++ [.compile conversions]) start) := by
      rw [← run_append, hops]
      simp
    have hpaths : g.paths = some ps := by
      show (run ops start).1.paths = some ps
      rw [hrun]
      exact hfilled.kept after (List.prefix_refl after)
    refine ⟨before, conversions, after, ps, hops, hfilled, hpaths, fun hsteady => ?_⟩
    -- paths that are those of the dependencies serve every node, and leave no loop
    have hconsistent : g.toNetwork.Consistent :=
      run_consistent ops start (ofData_consistent registry data s)
    have hdependencies : g.dependencies.paths = .ok ps := by
      show (run ops start).1.dependencies.paths = .ok ps
      rw [hrun, dependencies_of_kept _ after ps conversions
        (filled_linked start before after conversions ps hfilled) hfilled.kept hsteady]
      exact hfilled.found
    have hcoherent : g.Coherent := ⟨ps, hpaths, hdependencies⟩
    refine ⟨hdependencies, fun h x hx => ?_, fun h hloop => ?_⟩
    · obtain ⟨path, hpath, hispath⟩ :=
        g.dependencyPath_isPath hconsistent.sound hcoherent h x hx
      refine ⟨path, hpath, fun m hfeeds => ?_⟩
      exact hispath.complete m (.single (needsNode_of_feeds _ hconsistent.recorded m h hfeeds))
    · refine g.acyclic_of_coherent hconsistent.sound hcoherent h ?_
      exact TransGen.mono (fun k m hfeeds => needsNode_of_feeds _ hconsistent.recorded m k hfeeds) _ _ hloop

/-! ## Section 5: Other links than those of the paths -/

/-- A constant integer at an input for floats. -/
def widened : GraphData where
  name := "widened"
  nodes := [
    { guid := "one", type := "Ceres.Values.Literal", genericArguments := ["int"],
      ports := [{ name := "value", connections := [⟨"sum", "a", 0⟩] }] },
    { guid := "sum", type := "Ceres.Math.Add" }]

/-- Compiled a second time after a constant was set, the graph keeps the paths it had. -/
theorem paths_of_compiled_twice :
    let start := hydrated Registry.builtin widened default
    let ops : List Operation := [.compile .standard, .setConstant ⟨"sum", "b", 0⟩ (.int 1),
      .compile .standard]
    (run ops start).1.compiled = true ∧ ∃ before conversions after ps,
      ops = before ++ .compile conversions :: after ∧
      Filled start before conversions after ps ∧ (run ops start).1.paths = some ps := by
  intro start ops
  have hcompiled : (run ops start).1.compiled = true := by decide +kernel
  obtain ⟨before, conversions, after, ps, hops, hfilled, hpaths, _⟩ :=
    paths_of_compiled Registry.builtin widened default ops hcompiled
  exact ⟨hcompiled, before, conversions, after, ps, hops, hfilled, hpaths⟩

/-- A constant at a slot that no node has yet. -/
def unopened : GraphData where
  name := "unopened"
  nodes := [{
    guid := "one", type := "Ceres.Values.Literal", genericArguments := ["int"],
    ports := [{ name := "value", connections := [⟨"call", "args", 0⟩] }] }]

/-- A sum that is linked to itself. -/
def selfLinked : GraphData where
  name := "selfLinked"
  nodes := [{
    guid := "sum", type := "Ceres.Math.Add",
    ports := [{ name := "result", connections := [⟨"sum", "a", 0⟩] }] }]

/-- Reused paths miss the links that other conversions allow, and those to a slot that a
    constant opened; and a link of a node to itself is in no path. -/
theorem reused_paths :
    (∃ g, g = (run [.compile {}, .compile .standard]
        (hydrated Registry.builtin widened default)).1 ∧
      g.compiled = true ∧ g.paths = some [[], []] ∧
      g.dependencies.paths.toOption = some [[], [0]]) ∧
    (∃ g, g = (run [.addNode Registry.builtin ⟨"call", "Ceres.Functions.InvokeFunction", [], {}, "", []⟩,
          .compile .standard, .setConstant ⟨"call", "args", 0⟩ (.int 1), .compile .standard]
        (hydrated Registry.builtin unopened default)).1 ∧
      g.compiled = true ∧ g.paths = some [[], []] ∧
      g.dependencies.paths.toOption = some [[], [0]]) ∧
    (∃ g, g = (run [.compile .standard] (hydrated Registry.builtin selfLinked default)).1 ∧
      g.compiled = true ∧ g.paths = some [[]] ∧
      ((g.port? ⟨⟨0, 0⟩, 0⟩).bind fun p => p.link.map fun link => link.source.node) = some ⟨0, 0⟩) := by
  refine ⟨⟨_, rfl, ?_⟩, ⟨_, rfl, ?_⟩, ⟨_, rfl, ?_⟩⟩
  · decide +kernel
  · decide +kernel
  · decide +kernel

end Graph
end FlowGraph
