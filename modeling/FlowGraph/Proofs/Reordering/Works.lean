import FlowGraph.Proofs.Graph.Alongside
import FlowGraph.Proofs.Graph.Slotted
import FlowGraph.Proofs.Reordering.Binding
import FlowGraph.Proofs.Reordering.Execution

/-! # Making graphs in alike stores

    Two stores are open if they are alike and whatever is made from here on gets the same
    name in both (`Store.Open`).  Every step of hydrating and of compiling keeps this up
    (`Store.open_hydrates`, `Store.open_compiles`).  So hydrating saved functions makes the
    same in both stores (`Graph.functionsOfData_steady`), and compiling functions whose names
    stay has the same result (`Graph.compileFunctions_steady`). -/

namespace FlowGraph

variable {ren : Renaming} {α : Type} {s t : Store}

/-! ## Section 1: Open stores -/

/-- The stores are alike, and new graphs and variables get the same names in both. -/
structure Store.Open (ren : Renaming) (s t : Store) : Prop extends s.Alike ren t where
  graph : ren.graph < s.graphs.size
  fresh : ∀ v, s.vars.cells.size ≤ v → ren.var v v
  shared : ∀ e ∈ s.globals.entries, ren.var e.2 e.2

namespace Store.Open

theorem reported (h : Store.Open ren s t) (events events' : Array GraphEvent) (log log' : Log) :
    Store.Open ren { s with events, log } { t with events := events', log := log' } :=
  ⟨h.toAlike.reported events events' log log', h.graph, h.fresh, h.shared⟩

theorem withVars (h : Store.Open ren s t) {vs ws : Variables} (hvars : vs.Alike ren.var ws)
    (hsize : s.vars.cells.size ≤ vs.cells.size) :
    Store.Open ren { s with vars := vs } { t with vars := ws } :=
  ⟨h.toAlike.withVars hvars, h.graph, fun v hv => h.fresh v (hsize.trans hv), h.shared⟩

theorem withGuids (h : Store.Open ren s t) (n : Nat) :
    Store.Open ren { s with guidsMade := n } { t with guidsMade := n } :=
  ⟨⟨h.objects, h.globals, h.scheduler, rfl, h.dispatchesMade, h.vars, h.graphs, h.others,
    h.disposedThere, h.rowThere, h.cellThere, h.held⟩, h.graph, h.fresh, h.shared⟩

/-- Changing another graph in the same way. -/
theorem modifyOther (h : Store.Open ren s t) (g : GraphId) (hg : g ≠ ren.graph)
    (f : GraphState → GraphState) :
    Store.Open ren { s with graphs := s.graphs.modify g f }
      { t with graphs := t.graphs.modify g f } := by
  have hkept : ∀ u : Store, (u.graphs.modify g f)[ren.graph]? = u.graphs[ren.graph]? := by
    intro u
    rw [Array.getElem?_modify, if_neg hg]
  refine ⟨⟨h.objects, h.globals, h.scheduler, h.guidsMade, h.dispatchesMade, h.vars, ?_, ?_, ?_, ?_,
    ?_, ?_⟩, ?_, h.fresh, h.shared⟩
  · simpa using h.graphs
  · intro k hk
    rw [Array.getElem?_modify, Array.getElem?_modify, h.others k hk]
  · simpa only [Store.isDisposed, hkept] using h.disposedThere
  · simpa only [Store.rowSize, hkept] using h.rowThere
  · simpa only [Store.cell, hkept] using h.cellThere
  · simpa only [Store.rowSize, hkept] using h.held
  · simpa using h.graph

theorem setDisposed (h : Store.Open ren s t) (g : GraphId) (disposed : Bool) :
    Store.Open ren (s.setDisposed g disposed) (t.setDisposed g disposed) := by
  by_cases hg : g = ren.graph
  · have hrows : ∀ u : Store, ∀ i, (u.setDisposed g disposed).rowSize ren.graph i
        = u.rowSize ren.graph i := fun u i =>
      (Store.rowsKept_setDisposed (fun _ => True) u g disposed).row ren.graph trivial i
    have hcells : ∀ u : Store, ∀ a, (u.setDisposed g disposed).cell ren.graph a
        = u.cell ren.graph a := by
      intro u a
      unfold Store.setDisposed Store.cell
      rw [Array.getElem?_modify, if_pos hg]
      cases u.graphs[ren.graph]? with
      | none => rfl
      | some x => rfl
    refine ⟨⟨h.objects, h.globals, h.scheduler, h.guidsMade, h.dispatchesMade, h.vars, ?_, ?_, ?_,
      ?_, ?_, ?_⟩, ?_, h.fresh, h.shared⟩
    · simpa [Store.setDisposed] using h.graphs
    · intro k hk
      unfold Store.setDisposed
      rw [Array.getElem?_modify, Array.getElem?_modify, h.others k hk]
    · -- both graphs are there
      have hmarked : ∀ u : Store, ren.graph < u.graphs.size →
          (u.setDisposed g disposed).isDisposed ren.graph = disposed := by
        intro u hu
        unfold Store.setDisposed Store.isDisposed
        rw [Array.getElem?_modify, if_pos hg, Array.getElem?_eq_getElem hu]
        rfl
      rw [hmarked s h.graph, hmarked t (h.graphs ▸ h.graph)]
    · intro a b hab
      rw [hrows, hrows, h.rowThere a b hab]
    · intro a b hab hport
      rw [hcells, hcells, h.cellThere a b hab hport]
    · intro a b hab
      rw [hrows, h.held a b hab]
    · simpa [Store.setDisposed] using h.graph
  · exact h.modifyOther g hg _

theorem addGraph (h : Store.Open ren s t) :
    t.addGraph.1 = s.addGraph.1 ∧ s.addGraph.1 ≠ ren.graph ∧
      Store.Open ren s.addGraph.2 t.addGraph.2 := by
  have hkept : ∀ u : Store, ren.graph < u.graphs.size →
      (u.graphs.push {})[ren.graph]? = u.graphs[ren.graph]? := by
    intro u hu
    rw [Array.getElem?_push, if_neg hu.ne]
  have hs := hkept s h.graph
  have ht := hkept t (h.graphs ▸ h.graph)
  refine ⟨h.graphs, h.graph.ne', ⟨h.objects, h.globals, h.scheduler, h.guidsMade, h.dispatchesMade,
    h.vars, ?_, ?_, ?_, ?_, ?_, ?_⟩, ?_, h.fresh, h.shared⟩
  · simpa [Store.addGraph] using h.graphs
  · intro k hk
    unfold Store.addGraph
    rw [Array.getElem?_push, Array.getElem?_push, h.others k hk, h.graphs]
  · simpa only [Store.addGraph, Store.isDisposed, hs, ht] using h.disposedThere
  · simpa only [Store.addGraph, Store.rowSize, hs, ht] using h.rowThere
  · simpa only [Store.addGraph, Store.cell, hs, ht] using h.cellThere
  · simpa only [Store.addGraph, Store.rowSize, hs] using h.held
  · simpa [Store.addGraph] using Nat.lt_succ_of_lt h.graph

theorem addVariable (h : Store.Open ren s t) (x : Variable) (hx : x.target = none) :
    (t.vars.add x).1 = (s.vars.add x).1 ∧ ren.var (s.vars.add x).1 (s.vars.add x).1 ∧
      Store.Open ren { s with vars := (s.vars.add x).2 } { t with vars := (t.vars.add x).2 } := by
  have hnew := h.fresh s.vars.cells.size le_rfl
  refine ⟨h.vars.size, hnew, h.withVars ?_ ?_⟩
  · exact h.vars.add ren.var_unique hnew x x (.of_unbound hx)
  · simp [Variables.add]

end Store.Open

/-! ## Section 2: Steady work -/

/-- Work that makes the same in open stores, something with a property, and leaves open
    stores behind. -/
def Work.Steady (ren : Renaming) (P : α → Prop) (x : Work α) : Prop :=
  ∀ s t, Store.Open ren s t → (x t).1 = (x s).1 ∧ P (x s).1 ∧ Store.Open ren (x s).2 (x t).2

/-- What a network names stays if it is not in the graph that is renamed. -/
theorem Network.fixed_iff (n : Network) :
    n.Fixed ren ↔ n.Uses (· ≠ ren.graph) fun v => ren.var v v :=
  ⟨fun h => ⟨h.other, h.vars, h.board⟩, fun h => ⟨h.id, h.vars, h.board⟩⟩

/-! ## Section 3: Hydrating -/

theorem Store.open_hydrates :
    Store.Hydrates (Store.Open ren) (· ≠ ren.graph) fun v => ren.var v v where
  logs := fun s t log log' h => h.reported s.events t.events log log'
  guid := by
    intro s t h
    unfold Store.freshGuid
    rw [h.guidsMade]
    exact ⟨rfl, h.withGuids _⟩
  graph := fun _ _ h => h.addGraph
  vars := fun _ _ x h hx => h.addVariable x hx
  cells := fun _ _ g _ _ h hg => h.modifyOther g hg _

namespace Graph

/-- Hydrating saved functions makes the same in both stores. -/
theorem functionsOfData_steady (registry : Registry) (functions : List (String × GraphData)) :
    Work.Steady ren (fun fs => ∀ f ∈ fs, f.2.All (Network.Fixed ren))
      (functionsOfData registry functions) := by
  intro s t h
  obtain ⟨hsame, huses, hopen⟩ :=
    functionsOfData_agrees Store.open_hydrates registry functions s t h
  exact ⟨hsame, fun f hf => (huses f hf).mono fun n => n.fixed_iff.mpr, hopen⟩

/-! ## Section 4: Compiling -/

/-- Variables whose names stay are bound alike. -/
theorem boundVariables_alike {globals : Globals} (hglobals : ∀ e ∈ globals.entries, ren.var e.2 e.2)
    (n : Network) (hn : n.Fixed ren) {vs ws : Variables} (h : vs.Alike ren.var ws) :
    (boundVariables globals n vs).Alike ren.var (boundVariables globals n ws) := by
  have hboard : (n.blackboard.foldl (Variables.boundBoard globals) vs).Alike ren.var
      (n.blackboard.foldl (Variables.boundBoard globals) ws) :=
    List.foldl_rel h fun v hv _ _ hvs => hvs.boundBoard ren.var_unique hglobals (hn.board v hv)
  refine List.foldl_rel hboard fun v hv _ _ hvs => hvs.boundOwn ren.var_unique hglobals hn.board ?_
  obtain ⟨⟨guid, field, w⟩, he, rfl⟩ := List.mem_map.mp hv
  obtain ⟨⟨k, x⟩, hx, hown⟩ := List.mem_flatMap.mp he
  obtain ⟨e, hmem, hsame⟩ := List.mem_map.mp hown
  cases hsame
  exact hn.vars k x ((Arena.mem_toList_iff n.nodes k x).mp hx) e hmem

theorem size_boundVariables (globals : Globals) (n : Network) (vs : Variables) :
    (boundVariables globals n vs).cells.size = vs.cells.size := by
  have hfold : ∀ (F : Variables → VarId → Variables)
      (_ : ∀ us v, (F us v).cells.size = us.cells.size) (ids : List VarId) (us : Variables),
      (ids.foldl F us).cells.size = us.cells.size := by
    intro F hF ids
    induction ids with
    | nil => exact fun _ => rfl
    | cons v rest ih =>
      intro us
      rw [List.foldl_cons, ih, hF]
  unfold boundVariables
  rw [hfold _ fun _ v => Variables.size_boundOwn _ _ v,
    hfold _ fun _ v => Variables.size_boundBoard _ v]

end Graph

theorem Store.open_compiles :
    Store.Compiles (Store.Open ren) (· ≠ ren.graph) fun v => ren.var v v where
  logs := Store.open_hydrates.logs
  restored := fun _ _ g h _ => h.setDisposed g false
  bound := by
    intro s t n h hn
    refine h.withVars ?_ (Graph.size_boundVariables _ n s.vars).ge
    rw [h.globals]
    exact Graph.boundVariables_alike h.shared n (n.fixed_iff.mpr hn) h.vars

namespace Graph

/-- Compiling functions whose names stay has the same result in both stores. -/
theorem compileFunctions_steady (conversions : Conversions) (graph : String)
    (functions : List (String × Graph)) (h : ∀ f ∈ functions, f.2.All (Network.Fixed ren)) :
    Work.Steady ren (fun r => ∀ f ∈ r.1, f.2.All (Network.Fixed ren))
      (compileFunctions conversions graph functions) := by
  have huses : ∀ f ∈ functions, f.2.All (Network.Uses (· ≠ ren.graph) fun v => ren.var v v) :=
    fun f hf => (h f hf).mono fun n => n.fixed_iff.mp
  intro s t hst
  obtain ⟨hsame, hall, hopen⟩ := compileFunctions_agrees Store.open_compiles conversions graph
    functions (fun f hf => ⟨huses f hf, compile_agrees Store.open_compiles conversions f.2
      (huses f hf)⟩) s t hst
  exact ⟨hsame, fun f hf => (hall f hf).mono fun n => n.fixed_iff.mpr, hopen⟩

end Graph
end FlowGraph
