import FlowGraph.Proofs.Graph.Hosting
import FlowGraph.Proofs.Graph.Loading

/-! # Building level by level

    A graph represents a saved one if its network does, and each of its functions the
    saved function of the same position and name (`Graph.Represents`).  Hydrating and
    compiling go through the functions in the same way, so both only have to be looked at
    for one network: `represents_ofData` and `Represents.compile` do the rest. -/

namespace FlowGraph

/-! ## Section 1: Saved graphs and graphs -/

/-- A property of a saved graph, its functions, their functions and so on. -/
inductive GraphData.All (P : GraphData → Prop) : GraphData → Prop where
  | intro (data : GraphData) (network : P data) (functions : ∀ f ∈ data.functions, All P f.2) :
      All P data

/-- A relation of saved graphs and networks holds of a graph, of its functions and so on. -/
inductive Graph.Represents (R : GraphData → Network → Prop) : GraphData → Graph → Prop where
  | intro (data : GraphData) (g : Graph) (network : R data g.toNetwork)
      (names : g.functions.map Prod.fst = data.functions.map Prod.fst)
      (functions : ∀ (i : Nat) e f, data.functions[i]? = some e → g.functions[i]? = some f →
        Represents R e.2 f.2) : Represents R data g

/-- The guids of all nodes, those of the functions included. -/
def GraphData.guids : GraphData → List String
  | ⟨_, nodes, _, _, functions⟩ => nodes.map (·.guid) ++ functionGuids functions
where
  /-- The guids of all nodes of the functions. -/
  functionGuids : List (String × GraphData) → List String
    | [] => []
    | (_, f) :: rest => f.guids ++ functionGuids rest

/-- Named things are related one by one: the names are the same, and what has one position is
    related. -/
theorem forall₂_named_iff {α β : Type} (P : α → β → Prop) (xs : List (String × α))
    (ys : List (String × β)) :
    List.Forall₂ (fun e f => f.1 = e.1 ∧ P e.2 f.2) xs ys ↔ ys.map Prod.fst = xs.map Prod.fst ∧
      ∀ (i : Nat) e f, xs[i]? = some e → ys[i]? = some f → P e.2 f.2 := by
  constructor
  · intro h
    refine ⟨?_, fun i e f he hf => ?_⟩
    · induction h with
      | nil => rfl
      | cons hfirst _ ih => rw [List.map_cons, List.map_cons, hfirst.1, ih]
    · obtain ⟨f', hf', hef⟩ := exists_right_of_forall₂ h i e he
      rw [hf] at hf'
      cases hf'
      exact hef.2
  · rintro ⟨hnames, hall⟩
    refine List.forall₂_iff_get.mpr ⟨?_, fun i hi hi' => ⟨?_, ?_⟩⟩
    · simpa using (congrArg List.length hnames).symm
    · have hname : (ys.map Prod.fst)[i]? = (xs.map Prod.fst)[i]? := by
        rw [hnames]
      simpa [hi, hi'] using hname
    · exact hall i _ _ (List.getElem?_eq_getElem hi) (List.getElem?_eq_getElem hi')

/-- Where the names are the same, what is in one list has something at its position in the
    other. -/
theorem exists_getElem?_of_names {α β : Type} {xs : List (String × α)} {ys : List (String × β)}
    (names : ys.map Prod.fst = xs.map Prod.fst) (i : Nat) (f : String × β)
    (hf : ys[i]? = some f) : ∃ e, xs[i]? = some e := by
  have hlength : ys.length = xs.length := by simpa using congrArg List.length names
  exact ⟨_, List.getElem?_eq_getElem (hlength ▸ (List.getElem?_eq_some_iff.mp hf).1)⟩

namespace GraphData

theorem All.and {P Q : GraphData → Prop} {data : GraphData} (hP : data.All P)
    (hQ : data.All Q) : data.All fun d => P d ∧ Q d := by
  induction hP with
  | intro data network functions ih =>
    cases hQ with
    | intro _ network' functions' =>
      exact .intro data ⟨network, network'⟩ fun f hf => ih f hf (functions' f hf)

theorem All.mono {P Q : GraphData → Prop} {data : GraphData} (hP : data.All P)
    (hPQ : ∀ d, P d → Q d) : data.All Q := by
  induction hP with
  | intro data network functions ih => exact .intro data (hPQ data network) ih

mutual

theorem all_guids_subset (guids : List String) (data : GraphData) (h : data.guids ⊆ guids) :
    data.All fun d => d.nodes.map (·.guid) ⊆ guids := by
  obtain ⟨name, nodes, vars, groups, functions⟩ := data
  unfold GraphData.guids at h
  obtain ⟨hnodes, hfunctions⟩ := List.append_subset.mp h
  exact .intro _ hnodes (all_functionGuids_subset guids functions hfunctions)

theorem all_functionGuids_subset (guids : List String) (functions : List (String × GraphData))
    (h : GraphData.guids.functionGuids functions ⊆ guids) :
    ∀ f ∈ functions, f.2.All fun d => d.nodes.map (·.guid) ⊆ guids := by
  match functions with
  | [] =>
    intro f hf
    cases hf
  | (name, data) :: rest =>
    unfold GraphData.guids.functionGuids at h
    obtain ⟨hfirst, hrest⟩ := List.append_subset.mp h
    intro f hf
    rcases List.mem_cons.mp hf with rfl | hf
    · exact all_guids_subset guids data hfirst
    · exact all_functionGuids_subset guids rest hrest f hf

end

/-- Induction on this goes through the levels of a saved graph. -/
theorem all_true (data : GraphData) : data.All fun _ => True :=
  (all_guids_subset data.guids data (List.Subset.refl _)).mono fun _ _ => trivial

end GraphData

/-- What is not made from here on is not made at any level. -/
theorem Store.Unmade.all {s : Store} {data : GraphData} (hs : s.Unmade data.guids) :
    data.All fun d => s.Unmade (d.nodes.map (·.guid)) :=
  (data.all_guids_subset data.guids fun _ hguid => hguid).mono
    fun _ hsubset t ht hmem => hs t ht (hsubset hmem)

namespace Graph

variable {R R' : GraphData → Network → Prop}

theorem represents_iff (data : GraphData) (g : Graph) :
    g.Represents R data ↔ R data g.toNetwork ∧
      List.Forall₂ (fun e f => f.1 = e.1 ∧ f.2.Represents R e.2) data.functions g.functions := by
  have hnamed := forall₂_named_iff (fun e (f : Graph) => f.Represents R e) data.functions
    g.functions
  refine Iff.trans ?_ (and_congr_right fun _ => hnamed.symm)
  constructor
  · rintro ⟨_, _, hnetwork, hnames, hfunctions⟩
    exact ⟨hnetwork, hnames, hfunctions⟩
  · rintro ⟨hnetwork, hnames, hfunctions⟩
    exact .intro data g hnetwork hnames hfunctions

theorem Represents.mono {data : GraphData} {g : Graph} (hg : g.Represents R data)
    (h : ∀ d n, R d n → R' d n) : g.Represents R' data := by
  induction hg with
  | intro data g network names _ ih => exact .intro data g (h data _ network) names ih

/-- What is said of the saved graph alone holds of it at all levels. -/
theorem Represents.saved {P : GraphData → Prop} {data : GraphData} {g : Graph}
    (hg : g.Represents R data) (h : ∀ d n, R d n → P d) : data.All P := by
  induction hg with
  | intro data g network names _ ih =>
    refine .intro data (h data _ network) fun e he => ?_
    obtain ⟨i, hi⟩ := List.mem_iff_getElem?.mp he
    obtain ⟨f, hf⟩ := exists_getElem?_of_names names.symm i e hi
    exact ih i e f hi hf

/-- What is said of the networks alone holds of a graph at all levels. -/
theorem Represents.all {P : Network → Prop} {data : GraphData} {g : Graph}
    (hg : g.Represents (fun _ n => P n) data) : g.All P := by
  induction hg with
  | intro data g network names _ ih =>
    refine .intro g network fun f hf => ?_
    obtain ⟨i, hi⟩ := List.mem_iff_getElem?.mp hf
    obtain ⟨e, he⟩ := exists_getElem?_of_names names i f hi
    exact ih i e f he hi

/-! ## Section 2: Hydrating -/

mutual

theorem ofData_guidsMade (registry : Registry) (data : GraphData) (s : Store) :
    s.guidsMade ≤ (ofData registry data s).2.guidsMade := by
  obtain ⟨name, nodes, vars, groups, functions⟩ := data
  rw [ofData_eq]
  exact (placeAll_guidsMade registry _ s).trans (functionsOfData_guidsMade registry functions _)

theorem functionsOfData_guidsMade (registry : Registry) (functions : List (String × GraphData))
    (s : Store) : s.guidsMade ≤ (functionsOfData registry functions s).2.guidsMade := by
  match functions with
  | [] => exact le_refl _
  | (name, data) :: rest =>
    exact (ofData_guidsMade registry data s).trans (functionsOfData_guidsMade registry rest _)

end

/-- Functions are hydrated one after the other, each in some later store. -/
theorem functionsOfData_forall₂ (registry : Registry) (functions : List (String × GraphData))
    (s : Store) (P : GraphData → Graph → Prop)
    (h : ∀ f ∈ functions, ∀ t : Store, s.guidsMade ≤ t.guidsMade →
      P f.2 (ofData registry f.2 t).1) :
    List.Forall₂ (fun e f => f.1 = e.1 ∧ P e.2 f.2) functions
      (functionsOfData registry functions s).1 := by
  induction functions generalizing s with
  | nil => exact .nil
  | cons first rest ih =>
    have hmade := ofData_guidsMade registry first.2 s
    refine .cons ⟨rfl, h first List.mem_cons_self s (le_refl _)⟩ (ih _ fun f hf t ht => ?_)
    exact h f (List.mem_cons_of_mem first hf) t (hmade.trans ht)

/-- A hydrated graph represents the saved one as far as its networks do. -/
theorem represents_ofData (registry : Registry) (s : Store) (data : GraphData)
    (h : data.All fun d => ∀ t : Store, s.guidsMade ≤ t.guidsMade →
      R d (placeAll registry d t).1.toNetwork) (t : Store) (ht : s.guidsMade ≤ t.guidsMade) :
    (ofData registry data t).1.Represents R data := by
  induction h generalizing t with
  | intro data network functions ih =>
    rw [represents_iff, ofData_eq]
    refine ⟨network t ht, ?_⟩
    exact functionsOfData_forall₂ registry data.functions _ (fun e f => f.Represents R e)
      fun f hf u hu => ih f hf u ((ht.trans (placeAll_guidsMade registry data t)).trans hu)

/-! ## Section 3: Compiling -/

/-- If every function can be compiled, all are. -/
theorem compileFunctions_ok (conversions : Conversions) (graph : String)
    (saved : List (String × GraphData)) (functions : List (String × Graph)) (s : Store)
    (P : GraphData → Graph → Prop)
    (h : List.Forall₂ (fun e f => f.1 = e.1 ∧ ∀ t, ∃ k u,
      f.2.compile conversions t = ((k, .ok ()), u) ∧ P e.2 k) saved functions) :
    ∃ fs t, compileFunctions conversions graph functions s = ((fs, .ok ()), t) ∧
      List.Forall₂ (fun e f => f.1 = e.1 ∧ P e.2 f.2) saved fs := by
  induction h generalizing s with
  | nil => exact ⟨[], s, rfl, .nil⟩
  | @cons e f saved rest hfirst _ ih =>
    obtain ⟨name, f⟩ := f
    obtain ⟨k, u, hcompile, hk⟩ := hfirst.2 s
    obtain ⟨fs, t, hrest, hfs⟩ := ih u
    refine ⟨(name, k) :: fs, t, ?_, .cons ⟨hfirst.1, hk⟩ hfs⟩
    unfold compileFunctions
    simp only [bind, StateT.bind, hcompile, hrest]
    rfl

/-- A graph of whose networks all have paths can be compiled, and represents what its
    networks represent then. -/
theorem Represents.compile {data : GraphData} {g : Graph} (hg : g.Represents R data)
    (conversions : Conversions)
    (h : ∀ d n, R d n → ∃ m, findPaths (n.link conversions).1 = .ok m ∧ R' d m) (s : Store) :
    ∃ k t, g.compile conversions s = ((k, .ok ()), t) ∧ k.Represents R' data := by
  induction hg generalizing s with
  | intro data g network names functions ih =>
    obtain ⟨m, hfind, hm⟩ := h data g.toNetwork network
    have hall : List.Forall₂ (fun e f => f.1 = e.1 ∧ ∀ t, ∃ k u,
        f.2.compile conversions t = ((k, .ok ()), u) ∧ k.Represents R' e.2)
        data.functions g.functions := by
      have hfunctions := ((represents_iff data g).mp (.intro data g network names functions)).2
      refine List.forall₂_iff_get.mpr ⟨hfunctions.length_eq, fun i hi hi' => ?_⟩
      refine ⟨(List.forall₂_iff_get.mp hfunctions).2 i hi hi' |>.1, fun t => ?_⟩
      exact ih i _ _ (List.getElem?_eq_getElem hi) (List.getElem?_eq_getElem hi') t
    obtain ⟨n, groups, locals, compiled⟩ := g
    obtain ⟨t, ht⟩ : ∃ t, prepare conversions n s
        = (((n.link conversions).1, (n.link conversions).2.1), t) := ⟨_, rfl⟩
    obtain ⟨fs, u, hcompiled, hfs⟩ := compileFunctions_ok conversions m.name data.functions
      locals t (fun e f => f.Represents R' e) hall
    obtain ⟨u', hcompile⟩ : ∃ u', Graph.compile conversions ⟨n, groups, locals, compiled⟩ s
        = ((⟨m, groups, fs, true⟩, .ok ()), u') := by
      unfold Graph.compile
      simp only [bind, StateT.bind, ht, hfind, hcompiled]
      exact ⟨_, rfl⟩
    exact ⟨_, u', hcompile, (represents_iff data _).mpr ⟨hm, hfs⟩⟩

end Graph
end FlowGraph
