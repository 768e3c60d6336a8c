import FlowGraph.Proofs.Graph.Owning

/-! # Compiling a graph again

    Links are made anew from the records by each compilation, and paths that were found are
    reused.  So what a compilation makes of a graph does not depend on the store
    (`Graph.compile_graph_congr`), and compiling that again does the same as compiling the graph
    itself (`Graph.compile_compiled`). -/

namespace FlowGraph

/-! ## Section 1: Linking again -/

namespace Network

theorem makeLinks_withPaths (n : Network) (paths : Option (List (List Nat)))
    (links : List NewLink) : ({ n with paths } : Network).makeLinks links
      = ({ (n.makeLinks links).1 with paths }, (n.makeLinks links).2) := by
  induction links generalizing n with
  | nil => rfl
  | cons link rest ih =>
    have hlink : ({ n with paths } : Network).makeLink link = { n.makeLink link with paths } := by
      cases link with
      | control source target => rfl
      | data target link => rfl
    unfold makeLinks
    simp only [hlink, ih]
    rfl

/-- Paths do not matter for linking. -/
theorem link_withPaths (n : Network) (paths : Option (List (List Nat)))
    (conversions : Conversions) : ({ n with paths } : Network).link conversions
      = ({ (n.link conversions).1 with paths }, (n.link conversions).2) := by
  show (_, _) = _
  rw [show ({ n with paths } : Network).unlinked = { n.unlinked with paths } from rfl,
    makeLinks_withPaths]
  rfl

/-- Linking again makes the same links. -/
theorem link_link (n : Network) (conversions : Conversions) :
    (n.link conversions).1.link conversions = n.link conversions :=
  link_congr _ _ conversions (n.link_unlinked conversions)

end Network

namespace Graph

/-- Only the name, the blackboard and the variables of the nodes matter for binding them. -/
theorem bindVariables_congr {n m : Network} (hname : m.name = n.name)
    (hboard : m.blackboard = n.blackboard) (hown : ownVariables m = ownVariables n) :
    bindVariables m = bindVariables n := by
  unfold bindVariables bindOwnVariable
  rw [hname, hboard, hown]

theorem link_name (n : Network) (conversions : Conversions) :
    (n.link conversions).1.name = n.name := by
  show (n.link conversions).1.unlinked.name = n.unlinked.name
  rw [n.link_unlinked]

/-- A network that was linked, with any paths, is prepared like the network itself. -/
theorem prepare_linked (conversions : Conversions) (n : Network)
    (paths : Option (List (List Nat))) (s : Store) :
    prepare conversions { (n.link conversions).1 with paths } s
      = (({ (n.link conversions).1 with paths }, (n.link conversions).2.1),
        (prepare conversions n s).2) := by
  have hlink : ({ (n.link conversions).1 with paths } : Network).link conversions
      = ({ (n.link conversions).1 with paths }, (n.link conversions).2) := by
    rw [Network.link_withPaths, n.link_link]
  have hbind : bindVariables { (n.link conversions).1 with paths } = bindVariables n :=
    bindVariables_congr (link_name n conversions) (n.link_blackboard conversions)
      (ownVariables_link n conversions)
  have hprepare : ∀ m : Network, prepare conversions m s
      = (((m.link conversions).1, (m.link conversions).2.1),
        (bindVariables m (s.setDisposed m.id false)).2.reportAll (m.link conversions).2.2) :=
    fun m => rfl
  rw [hprepare, hprepare, hbind, hlink]
  simp only [n.link_id conversions]

/-! ## Section 2: The steps of a compilation -/

/-- A compilation prepares the network, finds the paths and compiles the functions. -/
theorem compile_eq (conversions : Conversions) (g : Graph) (s : Store) :
    g.compile conversions s =
      match findPaths (g.link conversions).1 with
      | .error e =>
        ((⟨(g.link conversions).1, g.groups, g.functions, false⟩, .error e),
          (prepare conversions g.toNetwork s).2.report .error ("Graph '" ++
            (g.link conversions).1.name ++ "' failed to compile: " ++ e.message))
      | .ok n =>
        let r := compileFunctions conversions n.name g.functions
          (prepare conversions g.toNetwork s).2
        match r.1.2 with
        | .error e => ((⟨n, g.groups, r.1.1, false⟩, .error e), r.2)
        | .ok () => ((⟨n, g.groups, r.1.1, true⟩, .ok ()),
          r.2.report .info (compiledNotice n (g.link conversions).2.1 r.1.1.length)) := by
  obtain ⟨network, groups, functions, compiled⟩ := g
  obtain ⟨t, ht⟩ : ∃ t, prepare conversions network s
      = (((network.link conversions).1, (network.link conversions).2.1), t) := ⟨_, rfl⟩
  unfold compile
  simp only [bind, StateT.bind, ht]
  cases findPaths (network.link conversions).1 with
  | error e => rfl
  | ok n =>
    obtain ⟨fs, result, u, hfunctions⟩ : ∃ fs result u,
        compileFunctions conversions n.name functions t = ((fs, result), u) := ⟨_, _, _, rfl⟩
    simp only [StateT.bind, hfunctions]
    cases result with
    | error e => rfl
    | ok _ => rfl

/-- Functions are compiled in order, up to the first that fails. -/
theorem compileFunctions_cons (conversions : Conversions) (graph name : String) (f : Graph)
    (rest : List (String × Graph)) (s : Store) :
    compileFunctions conversions graph ((name, f) :: rest) s =
      let first := f.compile conversions s
      match first.1.2 with
      | .error e => (((name, first.1.1) :: rest, .error e),
          first.2.report .error ("Local function '" ++ name ++ "' of graph '" ++ graph
            ++ "' failed to compile: " ++ e.message))
      | .ok () =>
        let others := compileFunctions conversions graph rest first.2
        (((name, first.1.1) :: others.1.1, others.1.2), others.2) := by
  obtain ⟨k, result, t, hcompile⟩ : ∃ k result t,
      f.compile conversions s = ((k, result), t) := ⟨_, _, _, rfl⟩
  conv_lhs => unfold compileFunctions
  simp only [bind, StateT.bind, hcompile]
  cases result with
  | error e => rfl
  | ok _ => rfl

/-! ## Section 3: The graph that is made -/

mutual

/-- Whatever is in the store, a compilation makes the same graph, with the same result. -/
theorem compile_graph_congr (conversions : Conversions) (g : Graph) (s t : Store) :
    (g.compile conversions t).1 = (g.compile conversions s).1 := by
  obtain ⟨n, groups, functions, compiled⟩ := g
  rw [compile_eq, compile_eq]
  cases findPaths (n.link conversions).1 with
  | error e => rfl
  | ok m =>
    have hfunctions := compileFunctions_graph_congr conversions m.name functions
      (prepare conversions n s).2 (prepare conversions n t).2
    dsimp only
    rw [hfunctions]
    split
    · rfl
    · rfl

theorem compileFunctions_graph_congr (conversions : Conversions) (graph : String)
    (functions : List (String × Graph)) (s t : Store) :
    (compileFunctions conversions graph functions t).1
      = (compileFunctions conversions graph functions s).1 := by
  match functions with
  | [] => rfl
  | (name, f) :: rest =>
    rw [compileFunctions_cons, compileFunctions_cons]
    dsimp only
    rw [compile_graph_congr conversions f s t]
    split
    · rfl
    · have hrest := compileFunctions_graph_congr conversions graph rest (f.compile conversions s).2
        (f.compile conversions t).2
      exact congrArg (fun r => ((name, (f.compile conversions s).1.1) :: r.1, r.2)) hrest

end

/-- Paths that were found are reused. -/
theorem findPaths_found {n m : Network} (h : findPaths n = .ok m) : findPaths m = .ok m := by
  have hsome : ∃ ps, m.paths = some ps := by
    unfold findPaths at h
    split at h
    · rename_i ps hps
      cases h
      exact ⟨ps, hps⟩
    · cases hpaths : n.dependencies.paths with
      | error e =>
        rw [hpaths] at h
        cases h
      | ok ps =>
        rw [hpaths] at h
        cases h
        exact ⟨ps, rfl⟩
  obtain ⟨ps, hps⟩ := hsome
  unfold findPaths
  rw [hps]

mutual

/-- **Compiling what was compiled does the same as compiling the graph.** -/
theorem compile_compiled (conversions : Conversions) (g : Graph) (s t : Store) :
    (g.compile conversions s).1.1.compile conversions t = g.compile conversions t := by
  obtain ⟨n, groups, functions, compiled⟩ := g
  rw [compile_eq conversions ⟨n, groups, functions, compiled⟩ s]
  cases hfind : findPaths (n.link conversions).1 with
  | error e =>
    have hprepare : prepare conversions (n.link conversions).1 t = _ :=
      prepare_linked conversions n (n.link conversions).1.paths t
    dsimp only
    rw [compile_eq, compile_eq, n.link_link, hprepare]
  | ok m =>
    obtain ⟨paths, rfl⟩ := findPaths_ok _ m hfind
    have hlink : ({ (n.link conversions).1 with paths } : Network).link conversions
        = ({ (n.link conversions).1 with paths }, (n.link conversions).2) := by
      rw [Network.link_withPaths, n.link_link]
    have hprepare := prepare_linked conversions n paths t
    have hfunctions := compileFunctions_compiled conversions (n.link conversions).1.name functions
      (prepare conversions n s).2 (prepare conversions n t).2
    -- whether the functions could be compiled or not, the network is the same
    have hagain : ∀ done, Graph.compile conversions
        ⟨{ (n.link conversions).1 with paths }, groups,
          (compileFunctions conversions (n.link conversions).1.name functions
            (prepare conversions n s).2).1.1, done⟩ t
        = Graph.compile conversions ⟨n, groups, functions, compiled⟩ t := by
      intro done
      rw [compile_eq, compile_eq]
      dsimp only
      rw [hlink, hfind]
      dsimp only
      rw [findPaths_found hfind]
      dsimp only
      rw [hprepare, hfunctions]
    dsimp only
    split
    · exact hagain false
    · exact hagain true

theorem compileFunctions_compiled (conversions : Conversions) (graph : String)
    (functions : List (String × Graph)) (s t : Store) :
    compileFunctions conversions graph (compileFunctions conversions graph functions s).1.1 t
      = compileFunctions conversions graph functions t := by
  match functions with
  | [] => rfl
  | (name, f) :: rest =>
    have hfirst := compile_compiled conversions f s t
    have hsame := compile_graph_congr conversions f s t
    rw [compileFunctions_cons, compileFunctions_cons conversions graph name f rest t]
    dsimp only
    cases hresult : (f.compile conversions s).1.2 with
    | error e =>
      dsimp only
      rw [compileFunctions_cons, hfirst]
    | ok _ =>
      dsimp only
      rw [compileFunctions_cons, hfirst]
      dsimp only
      rw [hsame, hresult]
      dsimp only
      rw [compileFunctions_compiled conversions graph rest]

end

end Graph

end FlowGraph
