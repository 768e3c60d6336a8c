import FlowGraph.Proofs.Graph.Cache
import FlowGraph.Proofs.Node.Signature

/-! # Graphs of a host

    A host hydrates graphs, edits and compiles them, and gives them other graphs as
    functions (`Hosted`).  What every operation preserves holds of such a graph and of all
    functions in it (`Hosted.all`).  Two facts of this kind matter for running a graph:
    cached paths list nodes on demand only, also when they are outdated
    (`Network.PathsOnDemand`), and a graph that is hydrated with the types of the library
    has nodes of the library (`Network.OfLibrary`). -/

namespace FlowGraph

/-! ## Section 1: A graph and its functions -/

/-- A property of the networks of a graph, its functions, their functions and so on. -/
inductive Graph.All (P : Network → Prop) : Graph → Prop where
  | intro (g : Graph) (network : P g.toNetwork) (functions : ∀ f ∈ g.functions, All P f.2) :
      All P g

namespace Graph

variable {P : Network → Prop}

theorem All.network {g : Graph} (hg : g.All P) : P g.toNetwork := by
  cases hg with
  | intro _ network functions => exact network

theorem All.functions {g : Graph} (hg : g.All P) : ∀ f ∈ g.functions, f.2.All P := by
  cases hg with
  | intro _ network functions => exact functions

theorem All.mono {Q : Network → Prop} {g : Graph} (hg : g.All P) (h : ∀ n, P n → Q n) : g.All Q := by
  induction hg with
  | intro g network functions ih => exact .intro g (h _ network) ih

theorem All.and {Q : Network → Prop} {g : Graph} (hP : g.All P) (hQ : g.All Q) :
    g.All fun n => P n ∧ Q n := by
  induction hP with
  | intro g network functions ih =>
    exact .intro g ⟨network, hQ.network⟩ fun f hf => ih f hf (hQ.functions f hf)

/-- A function that is found by its name is one of the functions. -/
theorem All.function? {g : Graph} (hg : g.All P) (name : String) (f : Graph)
    (hf : g.function? name = some f) : f.All P := by
  unfold Graph.function? at hf
  obtain ⟨e, he, rfl⟩ := Option.map_eq_some_iff.mp hf
  exact hg.functions e (List.mem_of_find?_eq_some he)

/-! ### Hydrating -/

mutual

theorem ofData_all (registry : Registry)
    (hdata : ∀ data s, P (ofData registry data s).1.toNetwork) (data : GraphData) (s : Store) :
    (ofData registry data s).1.All P := by
  obtain ⟨name, nodes, vars, groups, functions⟩ := data
  refine .intro _ (hdata _ s) ?_
  rw [ofData_eq]
  exact functionsOfData_all registry hdata functions _

theorem functionsOfData_all (registry : Registry)
    (hdata : ∀ data s, P (ofData registry data s).1.toNetwork)
    (functions : List (String × GraphData)) (s : Store) :
    ∀ f ∈ (functionsOfData registry functions s).1, f.2.All P := by
  match functions with
  | [] =>
    intro f hf
    cases hf
  | (name, data) :: rest =>
    intro f hf
    rcases List.mem_cons.mp hf with rfl | hf
    · exact ofData_all registry hdata data s
    · exact functionsOfData_all registry hdata rest _ f hf

end

/-! ### Compiling -/

/-- Functions are compiled, or left as they were behind an error. -/
theorem mem_compileFunctions (conversions : Conversions) (graph : String)
    (functions : List (String × Graph)) (s : Store) (e : String × Graph)
    (he : e ∈ (compileFunctions conversions graph functions s).1.1) :
    ∃ f ∈ functions, e.2 = f.2 ∨ ∃ t, e.2 = (f.2.compile conversions t).1.1 := by
  induction functions generalizing s with
  | nil => cases he
  | cons first rest ih =>
    obtain ⟨name, f⟩ := first
    obtain ⟨f', result, t, hcompile⟩ : ∃ f' result t,
        f.compile conversions s = ((f', result), t) := ⟨_, _, _, rfl⟩
    have hfirst : f' = (f.compile conversions s).1.1 := by rw [hcompile]
    unfold compileFunctions at he
    simp only [bind, StateT.bind, hcompile] at he
    cases result with
    | error error =>
      rcases List.mem_cons.mp he with rfl | he
      · exact ⟨(name, f), List.mem_cons_self, .inr ⟨s, hfirst⟩⟩
      · exact ⟨e, List.mem_cons_of_mem _ he, .inl rfl⟩
    | ok _ =>
      rcases List.mem_cons.mp he with rfl | he
      · exact ⟨(name, f), List.mem_cons_self, .inr ⟨s, hfirst⟩⟩
      · obtain ⟨k, hk, hcompiled⟩ := ih t he
        exact ⟨k, List.mem_cons_of_mem _ hk, hcompiled⟩

theorem compile_functions (g : Graph) (conversions : Conversions) (s : Store) :
    (g.compile conversions s).1.1.functions = g.functions ∨ ∃ graph t,
      (g.compile conversions s).1.1.functions
        = (compileFunctions conversions graph g.functions t).1.1 := by
  obtain ⟨network, groups, functions, compiled⟩ := g
  obtain ⟨prepared, t, ht⟩ : ∃ prepared t, prepare conversions network s = (prepared, t) :=
    ⟨_, _, rfl⟩
  unfold compile
  simp only [bind, StateT.bind, ht]
  cases hfind : findPaths prepared.1 with
  | error e => exact .inl rfl
  | ok n =>
    right
    refine ⟨n.name, t, ?_⟩
    obtain ⟨fs, result, u, hfunctions⟩ : ∃ fs result u,
        compileFunctions conversions n.name functions t = ((fs, result), u) := ⟨_, _, _, rfl⟩
    simp only [StateT.bind, hfunctions]
    cases result with
    | error e => rfl
    | ok _ => rfl

theorem All.compile
    (hcompile : ∀ g c s, P g.toNetwork → P (Graph.compile c g s).1.1.toNetwork) {g : Graph}
    (hg : g.All P) (conversions : Conversions) (s : Store) :
    (g.compile conversions s).1.1.All P := by
  induction hg generalizing s with
  | intro g network functions ih =>
    refine .intro _ (hcompile g conversions s network) fun e he => ?_
    rcases g.compile_functions conversions s with heq | ⟨graph, t, heq⟩
    · rw [heq] at he
      exact functions e he
    · rw [heq] at he
      obtain ⟨f, hf, hsame | ⟨u, hcompiled⟩⟩ := mem_compileFunctions _ _ _ _ e he
      · rw [hsame]
        exact functions f hf
      · rw [hcompiled]
        exact ih f hf u

/-! ### Operations -/

theorem insert_functions (g : Graph) (x : GraphNode) (s : Store) :
    (g.insert x s).1.2.functions = g.functions := by
  obtain ⟨_, _, t, _, heq⟩ := g.insert_eq x s
  rw [heq]
  rfl

theorem layOut_functions (g : Graph) (h : NodeHandle) (s : Store) :
    (g.layOut h s).1.functions = g.functions := by
  rw [layOut_graph]

theorem openSlot_functions (g : Graph) (target : SlotRef) (s : Store) :
    (g.openSlot target s).1.functions = g.functions := by
  rcases g.openSlot_cases target s with ⟨heq, _⟩ | ⟨k, _, _, _, _, _, heq⟩
  · rw [heq]
  · rw [heq]
    exact layOut_functions _ k s

theorem recordConnection_functions (g : Graph) (h : NodeHandle) (d : PortDescriptor)
    (source target : SlotRef) (s : Store) :
    (g.recordConnection h d source target s).1.functions = g.functions := by
  unfold recordConnection
  cases d.array with
  | true => exact layOut_functions _ h s
  | false => rfl

theorem connect_functions (g : Graph) (source target : SlotRef) (s : Store) (g' : Graph)
    (hconnect : (g.connect source target s).1 = .ok g') : g'.functions = g.functions := by
  obtain ⟨h, x, d, _, rfl⟩ := g.exists_of_connect source target s g' hconnect
  exact (openSlot_functions _ target _).trans (g.recordConnection_functions h d source target s)

/-- An operation compiles functions or adds one, or leaves them alone. -/
theorem apply_functions (op : Operation) (st : State) :
    (∃ conversions, op = .compile conversions) ∨ (∃ name f, op = .addFunction name f ∧
      (op.apply st).1.functions = st.1.functions.filter (·.1 ≠ name) ++ [(name, f)]) ∨
      (op.apply st).1.functions = st.1.functions := by
  obtain ⟨g, s⟩ := st
  cases op with
  | addNode registry data => exact .inr (.inr (insert_functions _ _ _))
  | addLive guid descriptor behavior => exact .inr (.inr (insert_functions _ _ _))
  | removeNode h =>
    right
    right
    show (g.removeNode s.vars h).2.functions = g.functions
    unfold removeNode
    cases g.nodes.remove h with
    | none => rfl
    | some r => rfl
  | connect source target =>
    right
    right
    unfold Operation.apply
    dsimp only
    split
    · rename_i g' s' heq
      exact g.connect_functions source target s g' (by rw [heq])
    · rfl
  | setConstant slot v =>
    right
    right
    show (g.setConstant slot v s).1.1.functions = g.functions
    rcases g.setConstant_cases slot v s with heq | ⟨h, heq⟩ | ⟨_, h, heq⟩
    · rw [heq]
    · rw [heq]
      rfl
    · rw [heq]
      rfl
  | addFunction name f => exact .inr (.inl ⟨name, f, rfl, rfl⟩)
  | addGroup group => exact .inr (.inr rfl)
  | clearPaths => exact .inr (.inr rfl)
  | dispose => exact .inr (.inr rfl)
  | compile conversions => exact .inl ⟨conversions, rfl⟩
  | elsewhere work => exact .inr (.inr rfl)

/-! ## Section 2: Hosted graphs -/

/-- A graph that was hydrated and then edited and compiled, with such graphs added as its
    functions. -/
inductive Hosted : Graph → Prop where
  | hydrated (registry : Registry) (data : GraphData) (s : Store) :
      Hosted (ofData registry data s).1
  | apply (op : Operation) (g : Graph) (s : Store) (hg : Hosted g)
      (hfunction : ∀ name f, op = .addFunction name f → Hosted f) : Hosted (op.apply (g, s)).1

/-- What operations preserve holds of a graph and of all its functions. -/
theorem Hosted.all {g : Graph} (hg : Hosted g)
    (hdata : ∀ registry data s, P (ofData registry data s).1.toNetwork)
    (hstep : ∀ (op : Operation) (st : State), P st.1.toNetwork → P (op.apply st).1.toNetwork) :
    g.All P := by
  induction hg with
  | hydrated registry data s => exact ofData_all registry (hdata registry) data s
  | apply op g s _ _ ih ihfunction =>
    rcases apply_functions op (g, s) with ⟨conversions, rfl⟩ | ⟨name, f, rfl, hfunctions⟩ | hfunctions
    · exact ih.compile (fun g c s => hstep (.compile c) (g, s)) conversions s
    · refine .intro _ (hstep _ (g, s) ih.network) fun e he => ?_
      rw [hfunctions] at he
      rcases List.mem_append.mp he with he | he
      · exact ih.functions e (List.mem_filter.mp he).1
      · rw [List.mem_singleton.mp he]
        exact ihfunction name f rfl
    · refine .intro _ (hstep op (g, s) ih.network) fun e he => ?_
      rw [hfunctions] at he
      exact ih.functions e he

end Graph

/-! ## Section 3: Outdated paths -/

namespace Network

/-- Cached paths have no forward nodes. -/
def PathsOnDemand (n : Network) : Prop :=
  ∀ ps, n.paths = some ps → ∀ p ∈ ps, ∀ i ∈ p, n.dependencies.isForward i = false

/-- Which nodes are forward nodes does not depend on links. -/
theorem forward_of_unlinked_eq {n m : Network} (heq : m.unlinked = n.unlinked) :
    m.dependencies.forward = n.dependencies.forward := by
  have hview : ∀ l : Network, l.dependencies.forward = l.unlinked.dependencies.forward := by
    intro l
    simp only [dependencies, placed, node?_unlinked, List.map_filterMap, Option.map_map]
    rfl
  rw [hview m, hview n, heq]

/-- Paths that were just found have no forward nodes. -/
theorem isForward_of_found (n : Network) (hn : n.Sound) (ps : List (List Nat))
    (hfound : n.dependencies.paths = .ok ps) (p : List Nat) (hp : p ∈ ps) (i : Nat) (hi : i ∈ p) :
    n.dependencies.isForward i = false := by
  have hall := Dependencies.mapM_ok _ _ ps hfound
  obtain ⟨j, hj, hget⟩ := List.mem_iff_getElem.mp hp
  have hlength := hall.length_eq
  have hpath := hall.get (by omega) hj
  simp only [List.get_eq_getElem, List.getElem_range, hget] at hpath
  have hlt : j < n.dependencies.size := by
    rw [List.length_range] at hlength
    omega
  exact isForward_of_needs _ j i
    ((Dependencies.mem_pathFor_iff _ j p (n.dependencies_inRange hn) hlt hpath i).mp hi)

/-- A cached path lists nodes on demand. -/
theorem onDemand_of_dependencyPath (n : Network) (hn : n.Sound) (hpaths : n.PathsOnDemand)
    (h : NodeHandle) (path : List NodeHandle) (hpath : n.dependencyPath h = .ok path)
    (m : NodeHandle) (hm : m ∈ path) : ∃ y, n.node? m = some y ∧ y.descriptor.path = .dependency := by
  unfold dependencyPath at hpath
  cases hps : n.paths with
  | none =>
    simp only [hps] at hpath
    cases hpath
  | some ps =>
    cases hj : n.indexOf h with
    | none =>
      simp only [hps, hj] at hpath
      cases hpath
    | some j =>
      simp only [hps, hj] at hpath
      obtain rfl := Except.ok.inj hpath
      obtain ⟨i, hi, hget⟩ := List.mem_filterMap.mp hm
      obtain ⟨y, hy⟩ := (hn.mem_order_iff m).mp (List.mem_of_getElem? hget)
      refine ⟨y, hy, ?_⟩
      -- there is a path for the position, since it has an element
      obtain ⟨p, hp, hmem⟩ : ∃ p ∈ ps, i ∈ p := by
        cases hpj : ps[j]? with
        | none =>
          rw [hpj] at hi
          cases hi
        | some p =>
          rw [hpj] at hi
          exact ⟨p, List.mem_of_getElem? hpj, hi⟩
      have hforward := hpaths ps hps p hp i hmem
      rw [n.dependencies_isForward hn i m y hget hy] at hforward
      cases hy' : y.descriptor.path with
      | dependency => rfl
      | forward => simp [hy'] at hforward

end Network

namespace Graph

theorem apply_pathsOnDemand (op : Operation) (st : State)
    (hst : st.1.toNetwork.Consistent ∧ st.1.toNetwork.PathsOnDemand) :
    (op.apply st).1.toNetwork.Consistent ∧ (op.apply st).1.toNetwork.PathsOnDemand := by
  have hconsistent := apply_consistent op st hst.1
  refine ⟨hconsistent, fun ps hps p hp i hi => ?_⟩
  cases effect_apply op st with
  | drop hfresh =>
    rw [hfresh.paths] at hps
    cases hps
  | keep hpaths _ hdependencies _ =>
    rw [hpaths] at hps
    rw [hdependencies]
    exact hst.2 ps hps p hp i hi
  | fill _ _ _ _ hpaths hfound _ _ =>
    rw [hpaths] at hps
    cases hps
    exact Network.isForward_of_found _ hconsistent.sound ps hfound p hp i hi
  | reuse conversions _ _ hknown hpaths hdependencies _ =>
    rw [hpaths] at hps
    cases hps
    have hsame := hst.2 ps hknown p hp i hi
    unfold Dependencies.isForward at hsame ⊢
    rw [hdependencies, Network.forward_of_unlinked_eq (st.1.link_unlinked conversions)]
    exact hsame

/-- In a hosted graph, and in all its functions, cached paths list nodes on demand. -/
theorem Hosted.pathsOnDemand {g : Graph} (hg : Hosted g) :
    g.All fun n => n.Consistent ∧ n.PathsOnDemand := by
  refine hg.all (fun registry data s => ⟨ofData_consistent registry data s, ?_⟩) apply_pathsOnDemand
  intro ps hps
  rw [(ofData_fresh registry data s).paths] at hps
  cases hps

end Graph

/-! ## Section 4: Nodes of the library -/

/-- The node does what one of the library's types does; if it runs on demand then what one
    of those types does that run on demand. -/
def GraphNode.OfLibrary (x : GraphNode) : Prop :=
  x.behavior.isBuiltin = true ∧
    (x.descriptor.path = .dependency → x.behavior.signature.isSome = true)

instance (x : GraphNode) : Decidable x.OfLibrary := by
  unfold GraphNode.OfLibrary
  infer_instance

/-- All nodes are of the library. -/
def Network.OfLibrary (n : Network) : Prop := ∀ h x, n.node? h = some x → x.OfLibrary

/-- The node has the descriptor and the behavior that the library resolves a saved node to. -/
def GraphNode.Typed (x : GraphNode) : Prop :=
  ∃ data, x.descriptor = (Registry.builtin.resolve data).descriptor ∧
    x.behavior = (Registry.builtin.resolve data).behavior

/-- All nodes have types of the library. -/
def Network.Typed (n : Network) : Prop := ∀ h x, n.node? h = some x → x.Typed

/-! ### Hydrating with the library -/

namespace Factory

/-- Whatever the factory makes has a property. -/
def Makes (P : Behavior → Prop) (factory : Factory) : Prop :=
  ∀ fields arguments b, factory fields arguments = .ok b → P b

theorem makes_plain (P : Behavior → Prop) (behavior : Behavior) (h : P behavior) :
    Makes P (plain behavior) := by
  intro fields arguments b hb
  rw [plain_eq_ok behavior b fields arguments hb]
  exact h

theorem makes_withField {α : Type} (P : Behavior → Prop) (name : String) (default : α)
    (decode : Source → Except Fault α) (behavior : α → Behavior) (h : ∀ a, P (behavior a)) :
    Makes P (withField name default decode behavior) := by
  intro fields arguments b hb
  obtain ⟨a, rfl⟩ := withField_eq_ok name default decode behavior b fields arguments hb
  exact h a

theorem makes_literal (P : Behavior → Prop) (h : ∀ type raw, P (.literal type raw)) :
    Makes P literal := by
  intro fields arguments b hb
  obtain ⟨type, raw, rfl⟩ := literal_eq_ok b fields arguments hb
  exact h type raw

end Factory

namespace Registry

/-- The library's factories make no scripts. -/
theorem builtin_makes : ∀ t ∈ Builtin.types, Factory.Makes (·.isBuiltin = true) t.factory := by
  have plain := fun b h => Factory.makes_plain (·.isBuiltin = true) b h
  simp only [Builtin.types, List.forall_mem_cons]
  refine ⟨?event, plain _ rfl, plain _ rfl, plain _ rfl, plain _ rfl, ?log, ?literal, plain _ rfl,
    plain _ rfl, ?compare, plain _ rfl, plain _ rfl, ?input, plain _ rfl, ?invoke, plain _ rfl, ?_⟩
  case event => exact Factory.makes_withField _ _ _ _ _ fun _ => rfl
  case log => exact Factory.makes_withField _ _ _ _ _ fun _ => rfl
  case literal => exact Factory.makes_literal _ fun _ _ => rfl
  case compare => exact Factory.makes_withField _ _ _ _ _ fun _ => rfl
  case input => exact Factory.makes_withField _ _ _ _ _ fun _ => rfl
  case invoke => exact Factory.makes_withField _ _ _ _ _ fun _ => rfl
  exact List.forall_mem_nil _

theorem resolve_isBuiltin (data : NodeData) : (builtin.resolve data).behavior.isBuiltin = true := by
  unfold resolve
  cases hr : builtin.tryResolve data with
  | error e => rfl
  | ok r =>
    obtain ⟨id, t, _, ht, _, _, hb, _⟩ := builtin.tryResolve_eq_ok data r hr
    exact builtin_makes t (builtin.mem_types_of_find? id t ht) data.fields _ r.behavior hb

end Registry

/-- What is resolved is of the library, placeholders included. -/
theorem GraphNode.Typed.ofLibrary {x : GraphNode} (hx : x.Typed) : x.OfLibrary := by
  obtain ⟨data, hdescriptor, hbehavior⟩ := hx
  unfold GraphNode.OfLibrary
  rw [hdescriptor, hbehavior]
  refine ⟨Registry.resolve_isBuiltin data, fun hpath => ?_⟩
  obtain ⟨signature, hsignature, _⟩ := Registry.resolve_signature data hpath
  exact Option.isSome_iff_exists.mpr ⟨signature, hsignature⟩

theorem Network.Typed.ofLibrary {n : Network} (hn : n.Typed) : n.OfLibrary :=
  fun h x hx => (hn h x hx).ofLibrary

theorem Network.Keeps.typed {n m : Network} (hk : n.Keeps m) (hn : n.Typed) : m.Typed := by
  intro h y hy
  obtain ⟨x, hx, hxy⟩ := hk.before h y hy
  obtain ⟨data, hdescriptor, hbehavior⟩ := hn h x hx
  exact ⟨data, hxy.descriptor.trans hdescriptor, hxy.behavior.trans hbehavior⟩

theorem Network.typed_of_unlinked_eq {n m : Network} (heq : m.unlinked = n.unlinked)
    (hn : n.Typed) : m.Typed := by
  intro h y hy
  obtain ⟨x, hx, hxy⟩ := node?_of_unlinked_eq heq.symm h y hy
  have hbehavior : x.unlinked.behavior = y.unlinked.behavior := by rw [hxy]
  have hdescriptor : x.unlinked.descriptor = y.unlinked.descriptor := by rw [hxy]
  have hsame : x.behavior = y.behavior ∧ x.descriptor = y.descriptor := ⟨hbehavior, hdescriptor⟩
  obtain ⟨data, hx'⟩ := hn h x hx
  rw [hsame.1, hsame.2] at hx'
  exact ⟨data, hx'⟩

namespace Graph

theorem insert_typed (g : Graph) (x : GraphNode) (s : Store) (hg : g.toNetwork.Consistent)
    (hnodes : g.toNetwork.Typed) (hx : x.Typed) : (g.insert x s).1.2.toNetwork.Typed := by
  obtain ⟨_, ⟨guid, rfl⟩, t, _, heq⟩ := g.insert_eq x s
  rw [heq]
  intro h y hy
  have hget : (g.nodes.insert { x with guid := guid }).2.get? h = some y := hy
  rw [Arena.get?_insert _ _ _ hg.sound.arena] at hget
  split at hget
  · cases hget
    exact hx
  · exact hnodes h y hget

theorem addNodes_typed (g : Graph) (data : List NodeData) (s : Store)
    (hg : g.toNetwork.Consistent) (hnodes : g.toNetwork.Typed) :
    (g.addNodes Registry.builtin data s).1.toNetwork.Typed := by
  induction data generalizing g s with
  | nil => exact hnodes
  | cons d rest ih =>
    refine ih _ _ (g.addNode_consistent Registry.builtin d s hg) ?_
    exact insert_typed g _ _ hg hnodes ⟨d, rfl, rfl⟩

theorem ofData_typed (data : GraphData) (s : Store) :
    (ofData Registry.builtin data s).1.All Network.Typed := by
  refine ofData_all Registry.builtin (fun data s => ?_) data s
  refine (ofData_keeps Registry.builtin data s).network.typed ?_
  refine addNodes_typed _ _ _ (create_consistent data.name s) fun h x hx => ?_
  rw [create_node?] at hx
  cases hx

theorem compile_typed (g : Graph) (hg : g.All Network.Typed) (conversions : Conversions)
    (s : Store) : (g.compile conversions s).1.1.All Network.Typed := by
  refine hg.compile (fun k c t hk => ?_) conversions s
  have hlink := Network.typed_of_unlinked_eq (k.link_unlinked c) hk
  rcases k.compile_cases c t with ⟨_, _, heq⟩ | ⟨_, _, _, heq⟩ | ⟨_, _, heq, _⟩
  · rw [heq]
    exact hlink
  · rw [heq]
    exact hlink
  · rw [heq]
    exact hlink

/-- A graph that is hydrated with the types of the library and compiled has nodes of these types
    only, and so have its functions. -/
theorem built_typed (data : GraphData) (conversions : Conversions) (s : Store) :
    let g := (run [.compile conversions] (hydrated Registry.builtin data s)).1
    Hosted g ∧ g.All Network.Typed := by
  refine ⟨?_, ?_⟩
  · exact .apply (.compile conversions) _ (ofData Registry.builtin data s).2
      (.hydrated Registry.builtin data s) fun _ _ hop => by cases hop
  · exact compile_typed _ (ofData_typed data s) conversions _

/-- A graph that was built with the types of the library. -/
theorem built_ofLibrary (data : GraphData) (conversions : Conversions) (s : Store) :
    let g := (run [.compile conversions] (hydrated Registry.builtin data s)).1
    Hosted g ∧ g.All Network.OfLibrary := by
  obtain ⟨hhosted, htyped⟩ := built_typed data conversions s
  exact ⟨hhosted, htyped.mono fun _ hn => hn.ofLibrary⟩

end Graph
end FlowGraph
