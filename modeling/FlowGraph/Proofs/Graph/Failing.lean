import FlowGraph.Proofs.Graph.Connecting
import FlowGraph.Proofs.Graph.Hosting
import FlowGraph.Proofs.Validation.Cycles

/-! # When compiling fails

    Nodes of a linked network depend on the other nodes with a data connection into them
    (`Network.mem_dependencies_link_iff`), so a network has paths unless the nodes that run on
    demand form a cycle of such connections (`Network.paths_error_iff`).

    A graph is hydrated without paths at all depths.  So building it fails exactly if the
    graph or a function in it has a cycle, and nothing else makes it fail
    (`Graph.build_error_iff`). -/

namespace FlowGraph

open Relation

namespace Network

/-! ## Section 1: Cycles -/

theorem mem_gathered_iff (h : NodeHandle) (links : List NewLink) (found : List NodeHandle)
    (k : NodeHandle) :
    k ∈ links.foldl (gather h) found ↔ k ∈ found ∨ (k ≠ h ∧
      ∃ target link, NewLink.data target link ∈ links ∧ link.source.node = k ∧ target.node = h) := by
  induction links generalizing found with
  | nil => simp
  | cons link rest ih =>
    rw [List.foldl_cons, ih]
    cases link with
    | control source target => simp [gather]
    | data target link =>
      rw [gather_data]
      by_cases hnew : target.node = h ∧ link.source.node ≠ h ∧ link.source.node ∉ found
      · rw [if_pos (by simpa [and_assoc] using hnew)]
        constructor
        · rintro (hk | ⟨hne, t, l, hmem, hl⟩)
          · rcases List.mem_append.mp hk with hk | hk
            · exact .inl hk
            · rw [List.mem_singleton.mp hk]
              exact .inr ⟨hnew.2.1, target, link, List.mem_cons_self, rfl, hnew.1⟩
          · exact .inr ⟨hne, t, l, List.mem_cons_of_mem _ hmem, hl⟩
        · rintro (hk | ⟨hne, t, l, hmem, hl, ht⟩)
          · exact .inl (List.mem_append_left _ hk)
          · rcases List.mem_cons.mp hmem with heq | hmem
            · cases heq
              exact .inl (List.mem_append_right _ (by simp [hl]))
            · exact .inr ⟨hne, t, l, hmem, hl, ht⟩
      · rw [if_neg (by simpa [and_assoc] using hnew)]
        constructor
        · rintro (hk | ⟨hne, t, l, hmem, hl⟩)
          · exact .inl hk
          · exact .inr ⟨hne, t, l, List.mem_cons_of_mem _ hmem, hl⟩
        · rintro (hk | ⟨hne, t, l, hmem, hl, ht⟩)
          · exact .inl hk
          · rcases List.mem_cons.mp hmem with heq | hmem
            · -- the first link is that of a node that was found already
              cases heq
              by_contra hnot
              exact hnew ⟨ht, hl ▸ hne, fun hin => hnot (.inl (hl ▸ hin))⟩
            · exact .inr ⟨hne, t, l, hmem, hl, ht⟩

/-- In a linked network a node depends on the other nodes with a data connection into it. -/
theorem mem_dependencies_link_iff (n : Network) (hn : n.Sound) (conversions : Conversions)
    (h : NodeHandle) (y : GraphNode) (hy : (n.link conversions).1.node? h = some y)
    (k : NodeHandle) : k ∈ y.dependencies ↔ k ≠ h ∧ n.DataConnection conversions k h := by
  obtain ⟨x, hx, _⟩ := node?_of_unlinked_eq (n := (n.link conversions).1) (m := n.unlinked)
    (by rw [n.link_unlinked, n.unlinked_unlinked]) h y hy
  obtain ⟨y', hy', hgathered⟩ := n.unlinked.makeLinks_gathers
    (validLinks (n.unlinked.checkAll conversions)) h x hx
  have hsame : y' = y := Option.some.inj (hy'.symm.trans hy)
  have hnone : x.dependencies = [] := by
    rw [node?_unlinked] at hx
    obtain ⟨z, _, rfl⟩ := Option.map_eq_some_iff.mp hx
    rfl
  have hsound : n.unlinked.Sound := hn.of_unlinked_eq n.unlinked_unlinked
    (Arena.map_wellFormed _ _ hn.arena)
  rw [← hsame, hgathered, hnone, mem_gathered_iff, n.unlinked.dataLink_iff hsound,
    dataConnection_unlinked_iff]
  simp

/-- The node runs on demand. -/
def RunsOnDemand (n : Network) (h : NodeHandle) : Prop :=
  ∃ x, n.node? h = some x ∧ x.descriptor.path = .dependency

/-- Two different nodes that run on demand, the first with a data connection from the second. -/
structure Requires (n : Network) (conversions : Conversions) (h k : NodeHandle) : Prop where
  node : n.RunsOnDemand h
  source : n.RunsOnDemand k
  ne : k ≠ h
  connection : n.DataConnection conversions k h

/-- The nodes that run on demand form a cycle under the data connections. -/
def HasCycle (n : Network) (conversions : Conversions) : Prop :=
  ∃ h, TransGen (n.Requires conversions) h h

/-- In the linked network, required nodes are needed. -/
theorem needsNode_link_iff (n : Network) (hn : n.Sound) (conversions : Conversions)
    (h k : NodeHandle) (hh : n.RunsOnDemand h) :
    (n.link conversions).1.NeedsNode h k ↔ n.Requires conversions h k := by
  have hunlinked : (n.link conversions).1.unlinked = n.unlinked := n.link_unlinked conversions
  constructor
  · rintro ⟨y, z, hy, hk, hz, hpath⟩
    obtain ⟨hne, hconnection⟩ := (n.mem_dependencies_link_iff hn conversions h y hy k).mp hk
    obtain ⟨x, hx, hxz⟩ := node?_of_unlinked_eq hunlinked.symm k z hz
    have hdescriptor : x.unlinked.descriptor = z.unlinked.descriptor := by rw [hxz]
    exact ⟨hh, ⟨x, hx, (congrArg (·.path) hdescriptor).trans hpath⟩, hne, hconnection⟩
  · rintro ⟨⟨x, hx, _⟩, ⟨z, hz, hpath⟩, hne, hconnection⟩
    obtain ⟨y, hy, _⟩ := node?_of_unlinked_eq hunlinked h x hx
    obtain ⟨w, hw, hwz⟩ := node?_of_unlinked_eq hunlinked k z hz
    have hdescriptor : w.unlinked.descriptor = z.unlinked.descriptor := by rw [hwz]
    exact ⟨y, w, hy, (n.mem_dependencies_link_iff hn conversions h y hy k).mpr ⟨hne, hconnection⟩,
      hw, (congrArg (·.path) hdescriptor).trans hpath⟩

/-- A loop of positions is one of nodes. -/
theorem needsNode_of_loop (n : Network) (hn : n.Sound) (i j : Nat)
    (hneeds : TransGen n.dependencies.Needs i j) :
    ∃ h k, n.order[i]? = some h ∧ n.order[j]? = some k ∧ TransGen n.NeedsNode h k := by
  obtain ⟨_, ⟨hmem, _⟩, _⟩ := TransGen.head'_iff.mp hneeds
  have hi : i < n.order.length := by
    by_contra hge
    rw [n.dependencies.needs_eq_nil i (by rw [n.dependencies_size hn]; omega)] at hmem
    cases hmem
  have horder : n.order[i]? = some n.order[i] := List.getElem?_eq_getElem hi
  obtain ⟨k, hj, hchain⟩ := n.transGen_needsNode hn _ i j horder hneeds
  exact ⟨_, k, horder, hj, hchain⟩

/-- Whatever is needed runs on demand. -/
theorem runsOnDemand_of_needsNode (n : Network) (h k : NodeHandle)
    (hneeds : TransGen n.NeedsNode h k) : n.RunsOnDemand k := by
  cases hneeds with
  | single hneed =>
    obtain ⟨_, y, _, _, hy⟩ := hneed
    exact ⟨y, hy⟩
  | tail _ hneed =>
    obtain ⟨_, y, _, _, hy⟩ := hneed
    exact ⟨y, hy⟩

theorem runsOnDemand_link (n : Network) (conversions : Conversions) (h : NodeHandle)
    (hh : (n.link conversions).1.RunsOnDemand h) : n.RunsOnDemand h := by
  obtain ⟨y, hy, hpath⟩ := hh
  obtain ⟨x, hx, hxy⟩ := node?_of_unlinked_eq (n.link_unlinked conversions).symm h y hy
  have hdescriptor : x.unlinked.descriptor = y.unlinked.descriptor := by rw [hxy]
  exact ⟨x, hx, (congrArg (·.path) hdescriptor).trans hpath⟩

/-- **When a network has no paths.**  A linked network has paths unless the nodes that run on
    demand form a cycle. -/
theorem paths_error_iff (n : Network) (hn : n.Sound) (conversions : Conversions) :
    (∃ e, (n.link conversions).1.dependencies.paths = .error e) ↔ n.HasCycle conversions := by
  have hsound := n.link_sound conversions hn
  constructor
  · rintro ⟨e, he⟩
    obtain ⟨_, ⟨v, rest, rfl, hchain⟩, _, hforward, _⟩ :=
      Dependencies.paths_error_loop _ (dependencies_inRange _ hsound) e he
    obtain ⟨h, k, hh, hk, hloop⟩ := needsNode_of_loop _ hsound v v
      (Dependencies.transGen_of_isChain _ v v rest hchain fun x hx =>
        hforward x (List.mem_cons_of_mem v hx))
    rw [hh] at hk
    cases hk
    -- the loop stays among nodes that run on demand
    have hrequires : ∀ k, TransGen (n.link conversions).1.NeedsNode h k →
        TransGen (n.Requires conversions) h k := by
      intro k hk
      induction hk with
      | single hneed =>
        exact .single ((n.needsNode_link_iff hn conversions h _
          (n.runsOnDemand_link conversions h (runsOnDemand_of_needsNode _ h h hloop))).mp hneed)
      | tail hpath hneed ih =>
        exact ih.tail ((n.needsNode_link_iff hn conversions _ _
          (n.runsOnDemand_link conversions _ (runsOnDemand_of_needsNode _ h _ hpath))).mp hneed)
    exact ⟨h, hrequires h hloop⟩
  · rintro ⟨h, hloop⟩
    cases hfound : (n.link conversions).1.dependencies.paths with
    | error e => exact ⟨e, rfl⟩
    | ok ps =>
      -- with paths no node would need itself
      let m : Network := { (n.link conversions).1 with paths := some ps }
      have hacyclic := m.acyclic_of_coherent (hsound.congr hsound.arena rfl fun _ => Iff.rfl)
        ⟨ps, rfl, hfound⟩ h
      refine absurd (TransGen.mono (fun k l hkl => ?_) _ _ hloop) hacyclic
      exact (n.needsNode_link_iff hn conversions k l hkl.node).mpr hkl

end Network

/-! ## Section 2: Compiling -/

namespace Graph

/-- The first graph is the second one, a function of it, a function of a function and so on. -/
inductive Within (f : Graph) : Graph → Prop where
  | self : Within f f
  | function (g : Graph) (e : String × Graph) (member : e ∈ g.functions) (inside : Within f e.2) :
      Within f g

theorem Within.trans {f g k : Graph} (hfg : f.Within g) (hgk : g.Within k) : f.Within k := by
  induction hgk with
  | self => exact hfg
  | function k e he _ ih => exact .function k e he ih

theorem within_iff (f g : Graph) : f.Within g ↔ f = g ∨ ∃ e ∈ g.functions, f.Within e.2 := by
  constructor
  · intro h
    cases h with
    | self => exact .inl rfl
    | function _ e he hf => exact .inr ⟨e, he, hf⟩
  · rintro (rfl | ⟨e, he, hf⟩)
    · exact .self
    · exact .function g e he hf

/-- If every function fails to compile in case of some property, then compiling them fails in
    case one of them has it. -/
theorem compileFunctions_error_iff (conversions : Conversions) (graph : String)
    (functions : List (String × Graph)) (s : Store) (P : Graph → Prop)
    (h : ∀ f ∈ functions, ∀ t, (∃ e, (f.2.compile conversions t).1.2 = .error e) ↔ P f.2) :
    (∃ e, (compileFunctions conversions graph functions s).1.2 = .error e) ↔
      ∃ f ∈ functions, P f.2 := by
  induction functions generalizing s with
  | nil =>
    constructor
    · rintro ⟨_, h⟩
      cases h
    · rintro ⟨_, h, _⟩
      cases h
  | cons first rest ih =>
    obtain ⟨name, f⟩ := first
    obtain ⟨f', result, t, hcompile⟩ : ∃ f' result t,
        f.compile conversions s = ((f', result), t) := ⟨_, _, _, rfl⟩
    have hfirst := h (name, f) List.mem_cons_self s
    have hrest := ih t fun f hf => h f (List.mem_cons_of_mem _ hf)
    simp only [hcompile] at hfirst
    unfold compileFunctions
    simp only [bind, StateT.bind, hcompile]
    cases result with
    | error e =>
      have hP : P f := hfirst.mp ⟨e, rfl⟩
      exact ⟨fun _ => ⟨(name, f), List.mem_cons_self, hP⟩, fun _ => ⟨e, rfl⟩⟩
    | ok _ =>
      have hP : ¬ P f := fun hf => by
        obtain ⟨e, he⟩ := hfirst.mpr hf
        cases he
      rw [List.exists_mem_cons_iff, or_iff_right hP]
      exact hrest

/-- A network for which no paths are known gets them, or has none. -/
theorem findPaths_error_iff (n : Network) (hn : n.Sound) (hpaths : n.paths = none)
    (conversions : Conversions) :
    (∃ e, findPaths (n.link conversions).1 = .error e) ↔ n.HasCycle conversions := by
  have hfind : findPaths (n.link conversions).1 = (n.link conversions).1.dependencies.paths.map
      fun paths => { (n.link conversions).1 with paths := some paths } := by
    unfold findPaths
    rw [n.link_paths, hpaths]
  rw [hfind, ← n.paths_error_iff hn]
  cases (n.link conversions).1.dependencies.paths with
  | error e => exact ⟨fun _ => ⟨e, rfl⟩, fun _ => ⟨e, rfl⟩⟩
  | ok ps =>
    constructor
    · rintro ⟨_, h⟩
      cases h
    · rintro ⟨_, h⟩
      cases h

/-- Whether a graph without paths compiles depends on cycles only, in whatever store. -/
theorem compile_error_iff_cycle (g : Graph) (hg : g.All fun n => n.Sound ∧ n.paths = none)
    (conversions : Conversions) (s : Store) :
    (∃ e, (g.compile conversions s).1.2 = .error e) ↔
      ∃ f : Graph, f.Within g ∧ f.HasCycle conversions := by
  induction hg generalizing s with
  | intro g network functions ih =>
    have hfind := findPaths_error_iff g.toNetwork network.1 network.2 conversions
    have hsplit : (∃ f : Graph, f.Within g ∧ f.HasCycle conversions) ↔ g.HasCycle conversions ∨
        ∃ e ∈ g.functions, ∃ f : Graph, f.Within e.2 ∧ f.HasCycle conversions := by
      constructor
      · rintro ⟨f, hf, hcycle⟩
        rcases (within_iff f g).mp hf with rfl | ⟨e, he, hfe⟩
        · exact .inl hcycle
        · exact .inr ⟨e, he, f, hfe, hcycle⟩
      · rintro (hcycle | ⟨e, he, f, hf, hcycle⟩)
        · exact ⟨g, .self, hcycle⟩
        · exact ⟨f, .function g e he hf, hcycle⟩
    rw [hsplit]
    cases hfound : findPaths (g.link conversions).1 with
    | error e =>
      have hcycle := hfind.mp ⟨e, hfound⟩
      exact ⟨fun _ => .inl hcycle, fun _ => ⟨e, (g.compile_cycle conversions s e hfound).2.2⟩⟩
    | ok m =>
      have hnone : ¬ g.HasCycle conversions := fun hcycle => by
        obtain ⟨e, he⟩ := hfind.mpr hcycle
        rw [hfound] at he
        cases he
      rw [or_iff_right hnone]
      obtain ⟨n, groups, locals, compiled⟩ := g
      obtain ⟨t, ht⟩ : ∃ t, prepare conversions n s
          = (((n.link conversions).1, (n.link conversions).2.1), t) := ⟨_, rfl⟩
      have hlocals := compileFunctions_error_iff conversions m.name locals t
        (fun f => ∃ k : Graph, k.Within f ∧ k.HasCycle conversions) ih
      have hresult : (Graph.compile conversions ⟨n, groups, locals, compiled⟩ s).1.2
          = (compileFunctions conversions m.name locals t).1.2 := by
        obtain ⟨fs, result, u, hfunctions⟩ : ∃ fs result u,
            compileFunctions conversions m.name locals t = ((fs, result), u) := ⟨_, _, _, rfl⟩
        unfold Graph.compile
        simp only [bind, StateT.bind, ht, hfound, hfunctions]
        cases result with
        | error e => rfl
        | ok _ => rfl
      rw [hresult]
      exact hlocals

/-- Finding paths changes nothing else. -/
theorem findPaths_ok (n m : Network) (h : findPaths n = .ok m) : ∃ paths, m = { n with paths } := by
  unfold findPaths at h
  split at h
  · cases h
    exact ⟨n.paths, rfl⟩
  · cases hpaths : n.dependencies.paths with
    | error e =>
      rw [hpaths] at h
      cases h
    | ok ps =>
      rw [hpaths] at h
      cases h
      exact ⟨some ps, rfl⟩

/-! ### The error -/

theorem findPaths_error (n : Network) (e : GraphError) (h : findPaths n = .error e) :
    ∃ chain, e = .circularDependency chain := by
  unfold findPaths at h
  split at h
  · cases h
  · cases hpaths : n.dependencies.paths with
    | ok ps =>
      rw [hpaths] at h
      cases h
    | error e' =>
      rw [hpaths] at h
      cases h
      obtain ⟨v, _, hv⟩ := Dependencies.mapM_error _ _ e hpaths
      unfold Dependencies.pathFor at hv
      split at hv
      · cases hv
      · rename_i chain _
        exact ⟨chain, (Except.error.inj hv).symm⟩

mutual

/-- Nothing but a cycle makes compiling fail. -/
theorem compile_error_circular (conversions : Conversions) (g : Graph) (s : Store) (e : GraphError)
    (h : (g.compile conversions s).1.2 = .error e) : ∃ chain, e = .circularDependency chain := by
  obtain ⟨n, groups, functions, compiled⟩ := g
  obtain ⟨t, ht⟩ : ∃ t, prepare conversions n s
      = (((n.link conversions).1, (n.link conversions).2.1), t) := ⟨_, rfl⟩
  unfold compile at h
  simp only [bind, StateT.bind, ht] at h
  cases hfind : findPaths (n.link conversions).1 with
  | error e' =>
    simp only [hfind] at h
    cases h
    exact findPaths_error _ e hfind
  | ok m =>
    obtain ⟨fs, result, u, hfunctions⟩ : ∃ fs result u,
        compileFunctions conversions m.name functions t = ((fs, result), u) := ⟨_, _, _, rfl⟩
    simp only [hfind, StateT.bind, hfunctions] at h
    cases result with
    | error e' =>
      cases h
      exact compileFunctions_error_circular conversions m.name functions t e (by rw [hfunctions])
    | ok _ => cases h

theorem compileFunctions_error_circular (conversions : Conversions) (graph : String)
    (functions : List (String × Graph)) (s : Store) (e : GraphError)
    (h : (compileFunctions conversions graph functions s).1.2 = .error e) :
    ∃ chain, e = .circularDependency chain := by
  match functions with
  | [] => cases h
  | (name, f) :: rest =>
    obtain ⟨f', result, t, hcompile⟩ : ∃ f' result t,
        f.compile conversions s = ((f', result), t) := ⟨_, _, _, rfl⟩
    unfold compileFunctions at h
    simp only [bind, StateT.bind, hcompile] at h
    cases result with
    | error e' =>
      cases h
      exact compile_error_circular conversions f s e (by rw [hcompile])
    | ok _ => exact compileFunctions_error_circular conversions graph rest t e h

end

/-! ## Section 3: Failing graphs cannot be run -/

theorem compile_error_compiled (g : Graph) (conversions : Conversions) (s : Store) (e : GraphError)
    (h : (g.compile conversions s).1.2 = .error e) : (g.compile conversions s).1.1.compiled = false := by
  obtain ⟨n, groups, functions, compiled⟩ := g
  obtain ⟨t, ht⟩ : ∃ t, prepare conversions n s
      = (((n.link conversions).1, (n.link conversions).2.1), t) := ⟨_, rfl⟩
  unfold compile at h ⊢
  simp only [bind, StateT.bind, ht] at h ⊢
  cases hfind : findPaths (n.link conversions).1 with
  | error e' => rfl
  | ok m =>
    obtain ⟨fs, result, u, hfunctions⟩ : ∃ fs result u,
        compileFunctions conversions m.name functions t = ((fs, result), u) := ⟨_, _, _, rfl⟩
    simp only [hfind, StateT.bind, hfunctions] at h ⊢
    cases result with
    | error e' => rfl
    | ok _ => cases h

/-- Every compilation among the operations fails. -/
def FailsThroughout (st : State) (ops : List Operation) : Prop :=
  ∀ before conversions after, ops = before ++ .compile conversions :: after →
    ∃ e, ((run before st).1.compile conversions (run before st).2).1.2 = .error e

/-- Only a compilation that succeeds makes a graph compiled. -/
theorem compiled_of_apply (op : Operation) (st : State)
    (hop : ∀ conversions, op = .compile conversions →
      ∃ e, (st.1.compile conversions st.2).1.2 = .error e)
    (hcompiled : (op.apply st).1.compiled = true) : st.1.compiled = true := by
  have hfails : ∀ conversions, op = .compile conversions → (op.apply st).1.compiled = false := by
    rintro conversions rfl
    obtain ⟨e, he⟩ := hop conversions rfl
    exact st.1.compile_error_compiled conversions st.2 e he
  cases effect_apply op st with
  | drop hfresh =>
    rw [hfresh.compiled] at hcompiled
    cases hcompiled
  | keep _ hkept _ _ => exact hkept hcompiled
  | fill conversions _ hcompile =>
    rw [hfails conversions hcompile] at hcompiled
    cases hcompiled
  | reuse conversions _ hcompile =>
    rw [hfails conversions hcompile] at hcompiled
    cases hcompiled

/-- A graph that is not compiled stays so until a compilation succeeds. -/
theorem not_compiled_of_fails (st : State) (ops : List Operation) (hst : st.1.compiled = false)
    (hfails : FailsThroughout st ops) : (run ops st).1.compiled = false := by
  induction ops using List.reverseRecOn with
  | nil => exact hst
  | append_singleton ops op ih =>
    have hbefore := ih fun before conversions after heq =>
      hfails before conversions (after ++ [op]) (by rw [heq]; simp)
    rw [run_snoc, Bool.eq_false_iff]
    intro hcompiled
    have := compiled_of_apply op (run ops st) (fun conversions hop => hfails ops conversions []
      (by rw [hop])) hcompiled
    rw [hbefore] at this
    cases this

/-! ## Section 4: The main theorem -/

/-- What a hydrated graph and its functions start from. -/
theorem ofData_unsearched (registry : Registry) (data : GraphData) (s : Store) :
    (ofData registry data s).1.All fun n => n.Sound ∧ n.paths = none :=
  ofData_all registry (fun data s =>
    ⟨(ofData_consistent registry data s).sound, (ofData_fresh registry data s).paths⟩) data s

/-- **Main theorem: when building fails.**  Whatever is saved, building a graph fails exactly
    if in it, or in a function of it at any depth, the nodes that run on demand form a cycle
    under their data connections; the error is then a circular dependency.  And whenever a
    compilation fails, the graph cannot be run until a later one succeeds, whatever is done
    with it in between. -/
theorem build_error_iff (registry : Registry) (conversions : Conversions) (data : GraphData)
    (s : Store) :
    ((∃ e, (build registry conversions data s).1 = .error e) ↔
      ∃ f : Graph, f.Within (ofData registry data s).1 ∧ f.HasCycle conversions) ∧
    (∀ e, (build registry conversions data s).1 = .error e →
      ∃ chain, e = .circularDependency chain) ∧
    ∀ (g : Graph) (c : Conversions) (t : Store) (e : GraphError), (g.compile c t).1.2 = .error e →
      ∀ ops, FailsThroughout ((g.compile c t).1.1, (g.compile c t).2) ops →
        let st := run ops ((g.compile c t).1.1, (g.compile c t).2)
        st.1.isRunnable st.2 = false := by
  have hbuild : ∀ e, (build registry conversions data s).1 = .error e ↔
      ((ofData registry data s).1.compile conversions (ofData registry data s).2).1.2
        = .error e := by
    intro e
    have heq : (build registry conversions data s).1
        = ((ofData registry data s).1.compile conversions (ofData registry data s).2).1.2.map
            fun _ => ((ofData registry data s).1.compile conversions
              (ofData registry data s).2).1.1 := rfl
    rw [heq]
    cases ((ofData registry data s).1.compile conversions (ofData registry data s).2).1.2 with
    | error e' => simp [Except.map]
    | ok _ => simp [Except.map]
  refine ⟨?_, fun e he => ?_, fun g c t e hfailed ops hfails => ?_⟩
  · rw [exists_congr hbuild]
    exact compile_error_iff_cycle _ (ofData_unsearched registry data s) conversions _
  · exact compile_error_circular conversions _ _ e ((hbuild e).mp he)
  · intro st
    unfold isRunnable
    rw [not_compiled_of_fails _ ops (g.compile_error_compiled c t e hfailed) hfails]
    rfl

/-- A sum with a link to itself, a loop through a forward node, connections to a node and to
    a slot that are not there, one to an output, and two into one input. -/
def tolerated : GraphData where
  name := "tolerated"
  nodes := [
    { guid := "sum", type := "Ceres.Math.Add",
      ports := [{ name := "result", connections := [⟨"sum", "a", 0⟩, ⟨"loop", "first", 0⟩,
        ⟨"gone", "a", 0⟩, ⟨"sum", "c", 0⟩, ⟨"loop", "index", 0⟩] }] },
    { guid := "loop", type := "Ceres.Flow.ForLoop",
      ports := [{ name := "index", connections := [⟨"sum", "b", 0⟩] }] },
    { guid := "one", type := "Ceres.Values.Literal", genericArguments := ["int"],
      ports := [{ name := "value", connections := [⟨"sum", "b", 0⟩] }] },
    { guid := "one", type := "Unknown" }]

theorem exists_error_of_isOk {ε α : Type} {r : Except ε α} (h : r.isOk = false) :
    ∃ e, r = .error e := by
  cases r with
  | error e => exact ⟨e, rfl⟩
  | ok a => cases h

/-- A circular function of a function. -/
def nested : GraphData :=
  { tolerated with
    functions := [("outer", { name := "outer", functions := [("inner", circular)] })] }

/-- With a cycle in a function of a function the graph is not built; without it there is no
    cycle, in spite of its other defects.  And it cannot be run after the failure, as compiling
    it again fails as well. -/
theorem build_error_iff_nested :
    (¬ ∃ f : Graph, f.Within (ofData .builtin tolerated default).1 ∧ f.HasCycle .standard) ∧
    (∃ f : Graph, f.Within (ofData .builtin nested default).1 ∧ f.HasCycle .standard) ∧
    ∃ st : State, ((ofData .builtin nested default).1.compile .standard default).1.1 = st.1 ∧
      (run [.compile .standard, .clearPaths] st).1.isRunnable
        (run [.compile .standard, .clearPaths] st).2 = false := by
  have htolerated := build_error_iff .builtin .standard tolerated default
  have hnested := build_error_iff .builtin .standard nested default
  refine ⟨?_, ?_, ?_⟩
  · rw [← htolerated.1]
    rintro ⟨e, h⟩
    have hbuilds : (build .builtin .standard tolerated default).1.isOk = true := by decide +kernel
    rw [h] at hbuilds
    cases hbuilds
  · have hfails : (build .builtin .standard nested default).1.isOk = false := by decide +kernel
    exact hnested.1.mp (exists_error_of_isOk hfails)
  · have hfailed : ((ofData .builtin nested default).1.compile .standard default).1.2.isOk = false :=
      by decide +kernel
    have hagain : (((ofData .builtin nested default).1.compile .standard default).1.1.compile
        .standard ((ofData .builtin nested default).1.compile .standard default).2).1.2.isOk
          = false := by decide +kernel
    obtain ⟨e, he⟩ := exists_error_of_isOk hfailed
    have hstale := hnested.2.2 (ofData .builtin nested default).1 .standard default e he
      [.compile .standard, .clearPaths]
    generalize (ofData .builtin nested default).1.compile .standard default = failed at hagain hstale
    refine ⟨(failed.1.1, failed.2), rfl, hstale fun before c after heq => ?_⟩
    -- the only compilation is the first operation
    rcases before with _ | ⟨op, before⟩
    · obtain ⟨hop, _⟩ := List.cons.inj heq
      rw [← Operation.compile.inj hop]
      exact exists_error_of_isOk hagain
    · rcases before with _ | ⟨op', before⟩
      · cases heq
      · simp at heq

end Graph
end FlowGraph
