import FlowGraph.Proofs.Graph.Adding
import FlowGraph.Proofs.Graph.Building

/-! # One function more

    A saved graph may be given another function, behind the ones that it has.  That function
    is hydrated behind the rest of the graph, and compiled behind the rest.  Hydrating it does
    not interfere with compiling the rest, so building the graph with the function makes the
    same as building the graph and then the function (`Graph.build_addFunction`). -/

namespace FlowGraph

/-- The graph with another function behind its own. -/
def Graph.withFunction (g : Graph) (name : String) (k : Graph) : Graph :=
  { g with functions := g.functions ++ [(name, k)] }

/-- A name that was not in a list is found at the end. -/
theorem function?_append (functions : List (String × Graph)) (name other : String) (k : Graph)
    (hname : functions.find? (·.1 = name) = none) :
    ((functions ++ [(name, k)]).find? (·.1 = other)).map Prod.snd
      = if other = name then some k else (functions.find? (·.1 = other)).map Prod.snd := by
  rw [List.find?_append]
  by_cases hother : other = name
  · subst hother
    rw [if_pos rfl, hname]
    simp
  · have hlast : ¬ name = other := fun h => hother h.symm
    rw [if_neg hother]
    simp [hlast]

theorem Graph.function?_withFunction (g : Graph) (name other : String) (k : Graph)
    (hname : g.function? name = none) :
    (g.withFunction name k).function? other = if other = name then some k else g.function? other :=
  function?_append g.functions name other k (Option.map_eq_none_iff.mp hname)

namespace Graph

/-! ## Section 1: Hydrating -/

/-- Hydrating one more function. -/
theorem functionsOfData_concat (registry : Registry) (functions : List (String × GraphData))
    (name : String) (data : GraphData) (s : Store) :
    functionsOfData registry (functions ++ [(name, data)]) s
      = ((functionsOfData registry functions s).1
          ++ [(name, (ofData registry data (functionsOfData registry functions s).2).1)],
        (ofData registry data (functionsOfData registry functions s).2).2) := by
  have hcons : ∀ (f : String × GraphData) (fs : List (String × GraphData)) (t : Store),
      functionsOfData registry (f :: fs) t
        = ((f.1, (ofData registry f.2 t).1) ::
            (functionsOfData registry fs (ofData registry f.2 t).2).1,
          (functionsOfData registry fs (ofData registry f.2 t).2).2) := by
    intro f fs t
    conv_lhs => unfold functionsOfData
    rfl
  induction functions generalizing s with
  | nil =>
    rw [List.nil_append, hcons]
    unfold functionsOfData
    rfl
  | cons f functions ih =>
    rw [List.cons_append, hcons, hcons, ih]
    rfl

/-- The function is hydrated behind the rest of the graph. -/
theorem ofData_addFunction (registry : Registry) (data function : GraphData) (name : String)
    (s : Store) :
    ofData registry (data.addFunction name function) s
      = ((ofData registry data s).1.withFunction name
          (ofData registry function (ofData registry data s).2).1,
        (ofData registry function (ofData registry data s).2).2) := by
  have hplaced : placeAll registry (data.addFunction name function) s = placeAll registry data s :=
    rfl
  have hfunctions : (data.addFunction name function).functions
      = data.functions ++ [(name, function)] := rfl
  rw [ofData_eq, ofData_eq, hplaced, hfunctions]
  dsimp only
  rw [functionsOfData_concat]
  rfl

/-! ## Section 2: Compiling -/

/-- Compiling one more function: it is compiled if there was no error before it. -/
theorem compileFunctions_concat (conversions : Conversions) (graph : String)
    (functions : List (String × Graph)) (name : String) (k : Graph) (s : Store) :
    let first := compileFunctions conversions graph functions s
    let last := k.compile conversions first.2
    (∀ e, first.1.2 = .error e →
      (compileFunctions conversions graph (functions ++ [(name, k)]) s).1.2 = .error e) ∧
    (first.1.2 = .ok () →
      (compileFunctions conversions graph (functions ++ [(name, k)]) s).1
        = (first.1.1 ++ [(name, last.1.1)], last.1.2) ∧
      ∃ log, (compileFunctions conversions graph (functions ++ [(name, k)]) s).2
        = last.2.withLog log) := by
  induction functions generalizing s with
  | nil =>
    obtain ⟨k', result, t, hcompile⟩ : ∃ k' result t,
        k.compile conversions s = ((k', result), t) := ⟨_, _, _, rfl⟩
    unfold compileFunctions
    simp only [List.nil_append, bind, StateT.bind, pure, StateT.pure, hcompile]
    refine ⟨fun e he => (by cases he), fun _ => ?_⟩
    cases result with
    | error e => exact ⟨rfl, _, rfl⟩
    | ok _ =>
      unfold compileFunctions
      exact ⟨rfl, t.log, rfl⟩
  | cons f functions ih =>
    obtain ⟨other, f⟩ := f
    obtain ⟨f', result, t, hcompile⟩ : ∃ f' result t,
        f.compile conversions s = ((f', result), t) := ⟨_, _, _, rfl⟩
    rw [List.cons_append]
    unfold compileFunctions
    simp only [bind, StateT.bind, hcompile]
    cases result with
    | error e => exact ⟨fun _ he => he, fun hok => by cases hok⟩
    | ok _ =>
      obtain ⟨herror, hok⟩ := ih t
      refine ⟨herror, fun h => ?_⟩
      obtain ⟨hresult, log, hstore⟩ := hok h
      exact ⟨congrArg (fun r => ((other, f') :: r.1, r.2)) hresult, log, hstore⟩

/-- If the functions fail to compile, so does the graph. -/
theorem compile_functions_error {conversions : Conversions} {g : Graph} {s t : Store} {n : Network}
    {functions : List (String × Graph)} {e : GraphError}
    (hfind : findPaths (g.link conversions).1 = .ok n)
    (hfunctions : compileFunctions conversions n.name g.functions
      (prepare conversions g.toNetwork s).2 = ((functions, .error e), t)) :
    g.compile conversions s = ((⟨n, g.groups, functions, false⟩, .error e), t) := by
  obtain ⟨network, groups, locals, compiled⟩ := g
  obtain ⟨u, hu⟩ : ∃ u, prepare conversions network s
      = (((network.link conversions).1, (network.link conversions).2.1), u) := ⟨_, rfl⟩
  simp only [hu] at hfunctions
  unfold compile
  simp only [bind, StateT.bind, hu, hfind, hfunctions]
  rfl

/-- If they do not, the graph is compiled, and a line tells so. -/
theorem compile_functions_ok {conversions : Conversions} {g : Graph} {s t : Store} {n : Network}
    {functions : List (String × Graph)} (hfind : findPaths (g.link conversions).1 = .ok n)
    (hfunctions : compileFunctions conversions n.name g.functions
      (prepare conversions g.toNetwork s).2 = ((functions, .ok ()), t)) :
    ∃ log, g.compile conversions s = ((⟨n, g.groups, functions, true⟩, .ok ()), t.withLog log) := by
  obtain ⟨network, groups, locals, compiled⟩ := g
  obtain ⟨u, hu⟩ : ∃ u, prepare conversions network s
      = (((network.link conversions).1, (network.link conversions).2.1), u) := ⟨_, rfl⟩
  simp only [hu] at hfunctions
  unfold compile
  simp only [bind, StateT.bind, hu, hfind, hfunctions]
  exact ⟨_, rfl⟩

/-- Compiling a graph with one more function: that is compiled as if the graph had been
    compiled without it before. -/
theorem compile_withFunction (conversions : Conversions) (g k : Graph) (name : String)
    (s : Store) {G : GraphId → Prop} {V : VarId → Prop} (hk : k.All (Network.Uses G V)) :
    let alone := g.compile conversions s
    let last := k.compile conversions alone.2
    let both := (g.withFunction name k).compile conversions s
    (∀ e, alone.1.2 = .error e → both.1.2 = .error e) ∧
    (alone.1.2 = .ok () → both.1.2 = last.1.2 ∧
      (last.1.2 = .ok () → both.1.1 = alone.1.1.withFunction name last.1.1 ∧
        ∃ log, both.2 = last.2.withLog log)) := by
  intro alone last both
  -- the functions have no part in linking and in the paths
  cases hfind : findPaths (g.link conversions).1 with
  | error e =>
    obtain ⟨_, _, halone⟩ := g.compile_cycle conversions s e hfind
    obtain ⟨_, _, hboth⟩ := (g.withFunction name k).compile_cycle conversions s e hfind
    refine ⟨fun _ he => ?_, fun hok => ?_⟩
    · exact hboth.trans (halone.symm.trans he)
    · cases hok.symm.trans halone
  | ok n =>
    obtain ⟨herror, hok⟩ := compileFunctions_concat conversions n.name g.functions name k
      (prepare conversions g.toNetwork s).2
    obtain ⟨⟨fs, result⟩, t, hfirst⟩ : ∃ r t, compileFunctions conversions n.name g.functions
      (prepare conversions g.toNetwork s).2 = (r, t) := ⟨_, _, rfl⟩
    obtain ⟨⟨fs', result'⟩, t', hsecond⟩ : ∃ r t, compileFunctions conversions n.name
      (g.functions ++ [(name, k)]) (prepare conversions g.toNetwork s).2 = (r, t) := ⟨_, _, rfl⟩
    rw [hfirst, hsecond] at herror hok
    cases result with
    | error e =>
      obtain rfl : result' = .error e := herror e rfl
      have halone : alone = _ := compile_functions_error hfind hfirst
      have hboth : both = _ := compile_functions_error (g := g.withFunction name k) hfind hsecond
      rw [halone, hboth]
      exact ⟨fun _ he => he, fun hok => by cases hok⟩
    | ok _ =>
      obtain ⟨hresult, log, hstore⟩ := hok rfl
      obtain ⟨line, halone⟩ : ∃ line, alone = ((⟨n, g.groups, fs, true⟩, .ok ()), t.withLog line) :=
        compile_functions_ok hfind hfirst
      -- compiled alone, the graph is reported before the function is compiled
      obtain ⟨line', hlast⟩ := compile_withLog conversions k hk t line
      have hlast : last = ((k.compile conversions t).1,
          (k.compile conversions t).2.withLog line') := by
        show k.compile conversions alone.2 = _
        rw [halone, hlast]
      obtain ⟨⟨k', result⟩, u, hcompile⟩ : ∃ r u, k.compile conversions t = (r, u) := ⟨_, _, rfl⟩
      dsimp only at hresult hstore
      rw [hcompile] at hresult hstore hlast
      obtain ⟨rfl, rfl⟩ := Prod.mk.inj hresult
      rw [halone, hlast]
      refine ⟨fun e he => (by cases he), fun _ => ?_⟩
      cases result' with
      | error e =>
        have hboth : both = _ := compile_functions_error (g := g.withFunction name k) hfind hsecond
        rw [hboth]
        exact ⟨rfl, fun hok => by cases hok⟩
      | ok _ =>
        obtain ⟨log', hboth⟩ : ∃ log', both = _ :=
          compile_functions_ok (g := g.withFunction name k) hfind hsecond
        rw [hboth, hstore]
        exact ⟨rfl, fun _ => ⟨rfl, log', rfl⟩⟩

/-! ## Section 3: Building -/

theorem build_eq {registry : Registry} {conversions : Conversions} {data : GraphData}
    {s t : Store} {g : Graph} (hg : ofData registry data s = (g, t)) :
    build registry conversions data s
      = ((g.compile conversions t).1.2.map fun _ => (g.compile conversions t).1.1,
        (g.compile conversions t).2) := by
  unfold build
  simp only [bind, StateT.bind, hg]
  rfl

/-- **One function more.**  Building a graph with another function makes the same as building
    the graph without it, and then the function for itself; only the log differs. -/
theorem build_addFunction (registry : Registry) (conversions : Conversions)
    (data function : GraphData) (name : String) {s : Store} (hs : s.Bound) :
    let both := build registry conversions (data.addFunction name function) s
    let alone := build registry conversions data s
    let added := build registry conversions function alone.2
    both.1 = alone.1.bind (fun g => added.1.map (g.withFunction name)) ∧
      ∀ g k, alone.1 = .ok g → added.1 = .ok k → ∃ log, both.2 = added.2.withLog log := by
  intro both alone added
  obtain ⟨⟨g, s₁⟩, hg⟩ : ∃ r, ofData registry data s = r := ⟨_, rfl⟩
  obtain ⟨⟨k, s₂⟩, hk⟩ : ∃ r, ofData registry function s₁ = r := ⟨_, rfl⟩
  have hguses := ofData_uses registry data s
  have hkuses := ofData_uses registry function s₁
  have hbound := ofData_bound registry data hs
  rw [hg] at hguses hbound
  rw [hk] at hkuses
  -- the function is hydrated before the graph is compiled, or afterwards
  obtain ⟨hmade, hcompiled, log, hstores⟩ :=
    hydrate_compile_comm registry conversions function g hbound hguses
  -- the two ways: `s`, `s₁`, `s₂` with the function, and `s`, `s₁`, `t₁`, `t₂` without it
  obtain ⟨⟨⟨g', result⟩, t₁⟩, hfirst⟩ : ∃ r, g.compile conversions s₁ = r := ⟨_, rfl⟩
  obtain ⟨⟨k₂, t₂⟩, hsecond⟩ : ∃ r, ofData registry function t₁ = r := ⟨_, rfl⟩
  obtain ⟨⟨⟨k', result'⟩, u⟩, hlast⟩ : ∃ r, k.compile conversions t₂ = r := ⟨_, rfl⟩
  simp only [hk, hfirst, hsecond] at hmade hcompiled hstores
  subst hmade
  have halone : alone = (result.map fun _ => g', t₁) := by
    have heq : alone = _ := build_eq hg
    rw [heq, hfirst]
  have hadded : added = (result'.map fun _ => k', u) := by
    have hmade : ofData registry function alone.2 = (k₂, t₂) := by rw [halone, hsecond]
    have heq : added = _ := build_eq hmade
    rw [heq, hlast]
  have hboth : both = _ := build_eq (by rw [ofData_addFunction, hg, hk])
  have hhydrated : g.compile conversions s₂ = ((g', result), t₂.withLog log) :=
    Prod.ext hcompiled hstores
  obtain ⟨log', hlogged⟩ := compile_withLog conversions k₂ hkuses t₂ log
  obtain ⟨herror, hok⟩ := compile_withFunction conversions g k₂ name s₂ hkuses
  simp only [hhydrated, hlogged, hlast] at herror hok
  rw [halone, hadded, hboth]
  cases result with
  | error e =>
    rw [herror e rfl]
    exact ⟨rfl, fun _ _ he => by cases he⟩
  | ok _ =>
    obtain ⟨hresult, hgraph⟩ := hok rfl
    rw [hresult]
    cases result' with
    | error e => exact ⟨rfl, fun _ _ _ he => by cases he⟩
    | ok _ =>
      obtain ⟨hgraph, line, hstore⟩ := hgraph rfl
      rw [hgraph, hstore]
      exact ⟨rfl, fun _ _ _ _ => ⟨line, rfl⟩⟩

/-! ## Section 4: Names of functions -/

theorem compileFunctions_names (conversions : Conversions) (graph : String)
    (functions : List (String × Graph)) (s : Store) :
    (compileFunctions conversions graph functions s).1.1.map Prod.fst
      = functions.map Prod.fst := by
  induction functions generalizing s with
  | nil => rfl
  | cons first rest ih =>
    obtain ⟨name, f⟩ := first
    obtain ⟨⟨f', result⟩, t, hcompile⟩ : ∃ r t, f.compile conversions s = (r, t) := ⟨_, _, rfl⟩
    unfold compileFunctions
    simp only [bind, StateT.bind, hcompile]
    cases result with
    | error e => rfl
    | ok _ => exact congrArg (name :: ·) (ih t)

/-- A built graph has functions of the same names. -/
theorem build_names {registry : Registry} {conversions : Conversions} {data : GraphData}
    {s : Store} {g : Graph} (hg : (build registry conversions data s).1 = .ok g) :
    g.functions.map Prod.fst = data.functions.map Prod.fst := by
  obtain ⟨⟨k, t⟩, hk⟩ : ∃ r, ofData registry data s = r := ⟨_, rfl⟩
  have hhydrated : k.functions.map Prod.fst = data.functions.map Prod.fst := by
    have hall := functionsOfData_forall₂ registry data.functions (placeAll registry data s).2
      (fun _ _ => True) fun _ _ _ _ => trivial
    have hfunctions : k.functions
        = (functionsOfData registry data.functions (placeAll registry data s).2).1 := by
      have heq : k = (ofData registry data s).1 := by rw [hk]
      rw [heq, ofData_eq]
    rw [hfunctions]
    exact ((forall₂_named_iff (fun _ _ => True) _ _).mp hall).1
  rw [build_eq hk] at hg
  cases hresult : (k.compile conversions t).1.2 with
  | error e =>
    rw [hresult] at hg
    cases hg
  | ok _ =>
    rw [hresult] at hg
    cases hg
    rcases k.compile_functions conversions t with hsame | ⟨graph, u, hcompiled⟩
    · rw [hsame, hhydrated]
    · rw [hcompiled, compileFunctions_names, hhydrated]

/-- Names that a saved graph has no function of stay unknown in the graph. -/
theorem function?_build {registry : Registry} {conversions : Conversions} {data : GraphData}
    {s : Store} {g : Graph} (hg : (build registry conversions data s).1 = .ok g) {name : String}
    (hname : data.function? name = none) : g.function? name = none := by
  have hiff : ∀ {α : Type} (xs : List (String × α)),
      (xs.find? (·.1 = name)).map Prod.snd = none ↔ name ∉ xs.map Prod.fst := by
    intro α xs
    rw [Option.map_eq_none_iff, List.find?_eq_none]
    simp only [decide_eq_true_eq, List.mem_map, not_exists, not_and]
  refine (hiff _).mpr ?_
  rw [build_names hg]
  exact (hiff _).mp hname

end Graph
end FlowGraph
