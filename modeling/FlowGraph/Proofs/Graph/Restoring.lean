import FlowGraph.Proofs.Dispatch.Sharing
import FlowGraph.Proofs.Graph.Standing

/-! # Compiling again, and disposing

    A second compilation right after the first one changes nothing but bindings and the log.
    Nor does it change bindings if both were not hindered, that is, if no bind was refused on
    account of a variable whose turn was still to come (`Graph.Unhindered`).

    Disposing unbinds the variables of all graphs within that are not disposed, and each of
    them shows its own value again.  Compiling then restores the bindings
    (`Graph.recompile_restores`). -/

namespace FlowGraph

/-! ## Section 1: Plans of rosters -/

/-- No variable of a node is on a blackboard. -/
def Roster.Separate (rs : List Roster) : Prop := ∀ r ∈ rs, ∀ k ∈ rs, ∀ v ∈ r.own, v ∉ k.board

namespace Roster

variable {rs : List Roster} {s : Store}

theorem mem_plan {globals : Globals} {vs : Variables} {r : Roster} {e : VarId × Option VarId} :
    e ∈ r.plan globals vs ↔ e.1 ∈ r.board ∧ e.2 = vs.boardSource globals e.1 ∨
      e.1 ∈ r.own ∧ e.2 = vs.ownSource globals r.board e.1 := by
  obtain ⟨v, source⟩ := e
  have hlisted : ∀ (ids : List VarId) (f : VarId → Option VarId),
      (v, source) ∈ ids.map (fun u => (u, f u)) ↔ v ∈ ids ∧ source = f v := by
    intro ids f
    constructor
    · intro h
      obtain ⟨u, hu, heq⟩ := List.mem_map.mp h
      cases heq
      exact ⟨hu, rfl⟩
    · rintro ⟨hv, rfl⟩
      exact List.mem_map.mpr ⟨v, hv, rfl⟩
  unfold plan
  rw [List.mem_append, hlisted, hlisted]

/-- Variables and their sources are there. -/
theorem Sound.fits (h : Sound rs s) : (s.planOf rs).Fits s.vars := by
  intro e he
  obtain ⟨r, hr, hplan⟩ := List.mem_flatMap.mp he
  rcases mem_plan.mp hplan with ⟨hin, hsource⟩ | ⟨hin, hsource⟩
  · refine ⟨h.housed r hr _ (List.mem_append_left _ hin), fun t ht => ?_⟩
    obtain ⟨name, hname⟩ := Variables.boardSource_cases (hsource.symm.trans ht)
    exact h.bound.globals name t hname
  · refine ⟨h.housed r hr _ (List.mem_append_right _ hin), fun t ht => ?_⟩
    rcases Variables.ownSource_cases (hsource.symm.trans ht) with ⟨name, hname⟩ | hboard
    · exact h.bound.globals name t hname
    · exact h.housed r hr t (List.mem_append_left _ hboard)

/-- A variable on several blackboards has the same source on all of them. -/
theorem Sound.single (h : Sound rs s) (hseparate : Separate rs) : (s.planOf rs).Single := by
  intro e he e' he' hsame
  obtain ⟨r, hr, hplan⟩ := List.mem_flatMap.mp he
  obtain ⟨k, hk, hplan'⟩ := List.mem_flatMap.mp he'
  rcases mem_plan.mp hplan with ⟨hin, hsource⟩ | ⟨hin, hsource⟩ <;>
    rcases mem_plan.mp hplan' with ⟨hin', hsource'⟩ | ⟨hin', hsource'⟩
  · rw [hsource, hsource', hsame]
  · exact absurd (hsame ▸ hin) (hseparate k hk r hr _ hin')
  · exact absurd (hsame ▸ hin') (hseparate r hr k hk _ hin)
  · rw [← hsame] at hin' hsource'
    rw [h.apart r hr k hk _ hin hin'] at hsource
    rw [hsource, hsource']

theorem Separate.sublist {rs' : List Roster} (h : Separate rs) (hsub : rs'.Sublist rs) :
    Separate rs' := fun r hr k hk => h r (hsub.subset hr) k (hsub.subset hk)

theorem ids_planOf (s : Store) (rs : List Roster) :
    (s.planOf rs).ids = rs.flatMap (·.owned) := by
  induction rs with
  | nil => rfl
  | cons r rest ih =>
    rw [Store.planOf_cons, List.flatMap_cons, ← ih, ← ids_plan s.globals s.vars r]
    exact List.map_append

end Roster

namespace Graph

/-! ## Section 2: Compiling -/

/-- No bind of the compilation is refused on account of a variable whose turn is still to come. -/
def Unhindered (g : Graph) (conversions : Conversions) (s : Store) : Prop :=
  s.vars.Unhindered (s.planOf (g.reached conversions))

section Stores

variable {g : Graph} {s : Store} (conversions : Conversions)

/-- The graphs that the compilation comes to are not disposed afterwards. -/
theorem isDisposed_compile (hroom : Housed g.rosters s.vars) {r : Roster}
    (hr : r ∈ g.reached conversions) : (g.compile conversions s).2.isDisposed r.id = false := by
  obtain ⟨log, hstore⟩ := compile_store conversions g s hroom
  rw [hstore, Store.preparedAll_eq]
  exact s.isDisposed_markAll_false _ r.id (List.mem_map_of_mem hr)

/-- The plan is carried out, and sources stay. -/
theorem vars_compile (hroom : Housed g.rosters s.vars) :
    let plan := s.planOf (g.reached conversions)
    (g.compile conversions s).2.vars = s.vars.carryOut plan ∧
      (g.compile conversions s).2.planOf (g.reached conversions) = plan := by
  obtain ⟨log, hstore⟩ := compile_store conversions g s hroom
  rw [hstore, Store.preparedAll_eq]
  refine ⟨rfl, Store.planOf_congr (Variables.cut_carryOut _) ?_ _⟩
  show (s.markAll _ false).globals = s.globals
  rw [Store.markAll_eq]

theorem housed_compile (hroom : Housed g.rosters s.vars) :
    Housed g.rosters (g.compile conversions s).2.vars := by
  rw [(vars_compile conversions hroom).1]
  intro r hr v hv
  exact (hroom r hr v hv).trans_eq (Variables.size_of_cut (Variables.cut_carryOut _)).symm

/-- **A second compilation only carries out the plan again.** -/
theorem compile_again (hroom : Housed g.rosters s.vars) :
    let first := g.compile conversions s
    ∃ log, (g.compile conversions first.2).2 = { first.2 with
      vars := first.2.vars.carryOut (s.planOf (g.reached conversions)), log } := by
  intro first
  obtain ⟨log, hstore⟩ :=
    compile_store conversions g first.2 (housed_compile conversions hroom)
  have hmarks : first.2.markAll ((g.reached conversions).map (·.id)) false = first.2 := by
    refine Store.markAll_of_unmarked _ _ fun id hid => ?_
    obtain ⟨r, hr, rfl⟩ := List.mem_map.mp hid
    exact isDisposed_compile conversions hroom hr
  rw [Store.preparedAll_eq, hmarks, (vars_compile conversions hroom).2] at hstore
  exact ⟨log, hstore⟩

/-! ## Section 3: Disposing -/

theorem vars_dispose (hg : Roster.Sound g.rosters s) :
    (g.dispose s).2.vars = s.vars.unbindAll ((g.undisposed s).flatMap (·.owned)) := by
  rw [dispose_store g s hg.distinct, Store.releasedAll_eq]

/-- A second time there is nothing to dispose. -/
theorem dispose_dispose (hg : Roster.Sound g.rosters s) :
    (g.dispose (g.dispose s).2).2 = (g.dispose s).2 := by
  refine g.dispose_of_disposed _ (isDisposed_dispose g s fun id hid => ?_)
  rw [ids_eq_rosters] at hid
  obtain ⟨r, hr, rfl⟩ := List.mem_map.mp hid
  exact hg.marked r hr

/-- Variables of graphs that are not disposed are unbound, and show their own values. -/
theorem released_dispose (hg : Roster.Sound g.rosters s) {r : Roster} (hr : r ∈ g.undisposed s)
    {v : VarId} (hv : v ∈ r.owned) :
    (g.dispose s).2.vars.targetOf v = none ∧ (g.dispose s).2.vars.get v = s.vars.own v := by
  have hunbound : (g.dispose s).2.vars.targetOf v = none := by
    rw [vars_dispose hg, Variables.targetOf_unbindAll,
      if_pos (List.mem_flatMap.mpr ⟨r, hr, hv⟩)]
  refine ⟨hunbound, ?_⟩
  rw [Variables.get_eq_own, Variables.root_of_unbound (dispose_sound hg).bound.wellBound v hunbound,
    vars_dispose hg]
  exact Variables.own_of_cut (Variables.cut_unbindAll _) v

/-- A graph that was compiled without errors is disposed with all its functions. -/
theorem dispose_compiled (hg : Roster.Sound g.rosters s)
    (hok : (g.compile conversions s).1.2 = .ok ()) :
    let first := g.compile conversions s
    first.1.1.undisposed first.2 = g.rosters := by
  intro first
  rw [undisposed_eq_rosters, rosters_compile]
  intro r hr
  rw [rosters_compile, ← reached_of_ok conversions g s hok] at hr
  exact isDisposed_compile conversions hg.housed hr

/-- **Compiling after disposing.** -/
theorem compile_disposed (hg : Roster.Sound g.rosters s)
    (hok : (g.compile conversions s).1.2 = .ok ()) (hun : g.Unhindered conversions s) :
    let first := g.compile conversions s
    ∃ log, (g.compile conversions (first.1.1.dispose first.2).2).2 = first.2.withLog log := by
  intro first
  have hreached := reached_of_ok conversions g s hok
  have hdispose : (first.1.1.dispose first.2).2 = first.2.releasedAll g.rosters := by
    have hdistinct := hg.distinct
    rw [← rosters_compile conversions g s] at hdistinct
    rw [dispose_store _ _ hdistinct, dispose_compiled conversions hg hok]
  obtain ⟨hvars, hplan⟩ := vars_compile conversions hg.housed
  rw [hreached] at hvars hplan
  have hrange : Housed g.rosters (first.2.releasedAll g.rosters).vars := by
    rw [Store.releasedAll_eq]
    intro r hr v hv
    exact (housed_compile conversions hg.housed r hr v hv).trans_eq
      (Variables.size_of_cut (Variables.cut_unbindAll _)).symm
  obtain ⟨log, hstore⟩ := compile_store conversions g _ hrange
  -- the same plan is carried out
  have hsame : (first.2.releasedAll g.rosters).planOf g.rosters = s.planOf g.rosters := by
    rw [← hplan, Store.releasedAll_eq]
    refine Store.planOf_congr (Variables.cut_unbindAll _) ?_ _
    show (first.2.markAll _ true).globals = first.2.globals
    rw [Store.markAll_eq]
  have hbindings : (first.2.releasedAll g.rosters).vars.carryOut (s.planOf g.rosters)
      = first.2.vars := by
    rw [Store.releasedAll_eq, hvars]
    unfold Unhindered at hun
    rw [hreached] at hun
    refine Variables.carryOut_unbindAll hg.bound.wellBound hg.fits hun fun v => ?_
    rw [Roster.ids_planOf]
  have hmarks : (first.2.markAll (g.rosters.map (·.id)) true).markAll
      (g.rosters.map (·.id)) false = first.2 := by
    refine Store.markAll_markAll _ _ fun id hid => ?_
    obtain ⟨r, hr, rfl⟩ := List.mem_map.mp hid
    exact isDisposed_compile conversions hg.housed (hreached ▸ hr)
  refine ⟨log, ?_⟩
  rw [hdispose, hstore, hreached, Store.preparedAll_eq, hsame, hbindings, Store.releasedAll_eq,
    Store.markAll_withVars, hmarks]

end Stores

/-! ## Section 4: The main theorem -/

/-- **Main theorem: compiling again, and disposing.**  Whatever was done with a graph, a second
    compilation makes the same graph with the same result, and nothing else changes but bindings
    and the log.  Bindings change neither if both compilations were not hindered.  If no
    variable of a node is on a blackboard, the second one is not hindered if the first one was
    not, and a third one changes nothing at all.

    Disposing unbinds the variables of the graphs within that are not disposed, and no others.
    Each of them shows what it showed when it was unbound before, if it was bound whenever
    something was written.  A second time nothing changes.

    After a compilation without errors it unbinds the variables of all graphs within; and if
    the compilation was not hindered, compiling once more leaves the graph and the store as they
    were before they were disposed. -/
theorem recompile_restores {g : Graph} {s : Store} (hg : g.Reachable s)
    (conversions : Conversions) :
    let first := g.compile conversions s
    let again := first.1.1.compile conversions first.2
    let disposed := (first.1.1.dispose first.2).2
    let restored := first.1.1.compile conversions disposed
    (again.1 = first.1 ∧
      (∃ vars log, again.2 = { first.2 with vars, log } ∧ vars.cut = first.2.vars.cut) ∧
      (g.Unhindered conversions s → first.1.1.Unhindered conversions first.2 →
        ∃ log, again.2 = first.2.withLog log) ∧
      (Roster.Separate g.rosters →
        (g.Unhindered conversions s → first.1.1.Unhindered conversions first.2) ∧
        ∃ log, (again.1.1.compile conversions again.2).2 = again.2.withLog log)) ∧
    ((∀ r ∈ g.undisposed s, ∀ v ∈ r.owned,
        (g.dispose s).2.vars.targetOf v = none ∧ (g.dispose s).2.vars.get v = s.vars.own v ∧
        ∀ vs : Variables, vs.WellBound → v < vs.cells.size → vs.targetOf v = none →
          Variables.WrittenWhileBound v vs s.vars → (g.dispose s).2.vars.get v = vs.get v) ∧
      (∀ v, (∀ r ∈ g.undisposed s, v ∉ r.owned) →
        (g.dispose s).2.vars.targetOf v = s.vars.targetOf v) ∧
      (g.dispose (g.dispose s).2).2 = (g.dispose s).2) ∧
    (first.1.2 = .ok () →
      (∀ f : Graph, f.Within first.1.1 → ∀ v ∈ f.toNetwork.owned,
        disposed.vars.targetOf v = none ∧ disposed.vars.get v = first.2.vars.own v) ∧
      (g.Unhindered conversions s →
        restored.1 = first.1 ∧ ∃ log, restored.2 = first.2.withLog log)) := by
  intro first again disposed restored
  have hsound := hg.sound
  have hcompiled := compile_sound hsound conversions
  have hagain : again = g.compile conversions first.2 := compile_compiled conversions g s first.2
  have hrestored : restored = g.compile conversions disposed :=
    compile_compiled conversions g s disposed
  obtain ⟨hvars, hplan⟩ := vars_compile conversions hsound.housed
  have hreached := hsound.sublist (reached_sublist conversions g)
  have hfits := hreached.fits
  have hsingle : Roster.Separate g.rosters → (s.planOf (g.reached conversions)).Single :=
    fun hseparate => hreached.single (hseparate.sublist (reached_sublist conversions g))
  have hwell := hsound.bound.wellBound
  -- whatever is compiled next, it is the same plan
  obtain ⟨log, hstore⟩ := compile_again conversions hsound.housed
  obtain ⟨log', hstore'⟩ := compile_again conversions (housed_compile conversions hsound.housed)
  rw [← hagain] at hstore hstore'
  rw [hplan, hstore] at hstore'
  have hsame : again.1 = first.1 := by
    rw [hagain]
    exact compile_graph_congr conversions g s first.2
  refine ⟨⟨hsame, ⟨_, log, hstore, Variables.cut_carryOut _⟩, fun hun hun' => ?_,
      fun hseparate => ⟨fun hun => ?_, ?_⟩⟩,
    ⟨fun r hr v hv => ?_, fun v hv => ?_, dispose_dispose hsound⟩,
    fun hok => ⟨fun f hf v hv => ?_, fun hun => ⟨?_, ?_⟩⟩⟩
  · -- both times the plan is carried out as if its variables had been unbound
    unfold Unhindered at hun'
    rw [reached_compiled, hplan, hvars] at hun'
    refine ⟨log, ?_⟩
    rw [hstore, hvars, Variables.carryOut_twice hwell hfits hun hun', ← hvars]
    rfl
  · -- what the first one left does not hinder the second one
    unfold Unhindered
    rw [reached_compiled, hplan, hvars]
    exact Variables.unhindered_carryOut hwell hfits (hsingle hseparate) hun
  · have hthird : again.1.1.compile conversions again.2 = g.compile conversions again.2 := by
      rw [hsame]
      exact compile_compiled conversions g s again.2
    refine ⟨log', ?_⟩
    rw [hthird, hstore, hstore', hvars, Variables.carryOut_thrice hwell hfits (hsingle hseparate)]
    rfl
  · -- no write reaches the own value of a bound variable
    obtain ⟨hunbound, hshows⟩ := released_dispose hsound hr hv
    refine ⟨hunbound, hshows, fun vs hvs hlt hfree hwritten => ?_⟩
    obtain ⟨_, _, hown⟩ := hwritten.own hvs hlt
    rw [hshows, hown, Variables.get_eq_own, Variables.root_of_unbound hvs v hfree]
  · rw [vars_dispose hsound, Variables.targetOf_unbindAll, if_neg]
    intro hin
    obtain ⟨r, hr, howned⟩ := List.mem_flatMap.mp hin
    exact hv r hr howned
  · -- no graph within is disposed after a compilation without errors
    refine released_dispose hcompiled (r := f.toNetwork.roster) ?_ hv
    rw [dispose_compiled conversions hsound hok, ← rosters_compile conversions g s]
    exact roster_mem_of_within hf
  · rw [hrestored]
    exact compile_graph_congr conversions g s disposed
  · rw [hrestored]
    exact compile_disposed conversions hsound hok hun

/-! ## Section 5: Hosts with globals -/

/-- Do what a host can do with global variables and bindings. -/
def hosted (op : Host.Operation) (st : State) : State := (st.1, (op.apply { store := st.2 }).store)

theorem Reachable.hosted (st : State) (h : st.1.Reachable st.2) {work : Store → Store}
    {keeps : ∀ s, (work s).marks = s.marks} (hplain : (Host.Operation.elsewhere work keeps).Plain) :
    (Graph.hosted (.elsewhere work keeps) st).1.Reachable
      (Graph.hosted (.elsewhere work keeps) st).2 := by
  obtain ⟨hbound, hsize⟩ := hplain st.2 h.sound.bound
  exact h.elsewhere hbound hsize (Store.size_congr (keeps st.2)).ge

/-- A graph with a global variable, and a function with a variable of its own; a node of each
    gets the variable. -/
def tally : GraphData where
  name := "tally"
  nodes := [
    { guid := "get", type := "Ceres.Variables.GetVariable",
      serializedData := "\x7b\"variable\": \"x\"\x7d" }]
  vars := [{ name := "x", valueType := .int, value := .int 3, isShared := true, isGlobal := true }]
  functions := [("again", {
    name := "again"
    nodes := [
      { guid := "get", type := "Ceres.Variables.GetVariable",
        serializedData := "\x7b\"variable\": \"y\"\x7d" }]
    vars := [{ name := "y", valueType := .int, value := .int 4, isShared := true }] })]

/-- The graph is hydrated, and its variable is in the table of globals. -/
def tallied : State :=
  hosted (Host.setGlobal "x" (.int 9)) (hydrated Registry.builtin tally default)

theorem tallied_reachable : tallied.1.Reachable tallied.2 :=
  .hosted (hydrated Registry.builtin tally default)
    (.hydrate Registry.builtin tally Host.bound_default) (Host.setGlobal_plain "x" (.int 9)).1

theorem tallied_unhindered : tallied.1.Unhindered .standard tallied.2 := by
  have hunbound : (tallied.2.planOf (tallied.1.reached .standard)).ids.Nodup ∧
      ∀ e ∈ tallied.2.planOf (tallied.1.reached .standard), tallied.2.vars.targetOf e.1 = none := by
    decide +kernel
  exact Variables.unhindered_of_unbound hunbound.1 hunbound.2

/-- The graph is compiled, compiled again, disposed and compiled.  In between its variable shows the
    value that was saved. -/
theorem recompile_restores_tallied :
    let first := tallied.1.compile .standard tallied.2
    let disposed := (first.1.1.dispose first.2).2
    first.2.vars.targetOf 1 = some 4 ∧ first.2.vars.get 0 = .int 9 ∧
      (∃ log, (first.1.1.compile .standard first.2).2 = first.2.withLog log) ∧
      disposed.vars.targetOf 1 = none ∧ disposed.vars.get 1 = .int 3 ∧
      disposed.vars.targetOf 2 = none ∧
      (first.1.1.compile .standard disposed).1 = first.1 ∧
      ∃ log, (first.1.1.compile .standard disposed).2 = first.2.withLog log := by
  have hmain := recompile_restores tallied_reachable .standard
  have hun := tallied_unhindered
  have hseparate : Roster.Separate tallied.1.rosters := by
    unfold Roster.Separate
    decide +kernel
  have hfirst : let first := tallied.1.compile .standard tallied.2
      first.1.2.isOk = true ∧ first.2.vars.targetOf 1 = some 4 ∧ first.2.vars.get 0 = .int 9 ∧
        first.2.vars.own 1 = .int 3 ∧ 1 ∈ first.1.1.toNetwork.owned ∧
        ∃ e ∈ first.1.1.functions, 2 ∈ e.2.toNetwork.owned := by decide +kernel
  generalize tallied = st at *
  intro first disposed
  obtain ⟨⟨_, _, htwice, hfree⟩, _, hrest⟩ := hmain
  obtain ⟨hdone, htarget, hvalue, hown, hself, e, he, hfunction⟩ := hfirst
  have hok : (st.1.compile .standard st.2).1.2 = .ok () := by
    cases hresult : (st.1.compile .standard st.2).1.2 with
    | ok _ => rfl
    | error e =>
      rw [hresult] at hdone
      cases hdone
  obtain ⟨hwithin, hrestored⟩ := hrest hok
  obtain ⟨hunbound, hshows⟩ := hwithin _ .self 1 hself
  obtain ⟨hunbound', _⟩ := hwithin e.2 (.function _ _ he .self) 2 hfunction
  obtain ⟨hgraph, hstore⟩ := hrestored hun
  exact ⟨htarget, hvalue, htwice hun ((hfree hseparate).1 hun), hunbound, hshows.trans hown,
    hunbound', hgraph, hstore⟩

/-- A graph with two global variables. -/
def twins : GraphData where
  name := "twins"
  vars := [{ name := "x", valueType := .int, value := .int 0, isShared := true, isGlobal := true },
    { name := "y", valueType := .int, value := .int 0, isShared := true, isGlobal := true }]

/-- The graph is disposed, and then the host binds one of its variables to the other one. -/
def leftBound : State :=
  hosted (Host.bindVariable 0 1) (Operation.dispose.apply (hydrated Registry.builtin twins default))

/-- First only the second variable is in the table of globals, and is bound there to the first
    variable of the graph; with that the graph is compiled.  Then it is the other way round. -/
def swapped : State :=
  let early := hosted (Host.bindVariable 2 0)
    (hosted (Host.setGlobal "y" (.int 1)) (hydrated Registry.builtin twins default))
  let later := hosted (Host.setGlobal "x" (.int 2)) ((Operation.compile .standard).apply early)
  hosted (Host.removeGlobal "y") (hosted (Host.bindVariable 3 1) later)

/-- What is disposed already is not disposed again, whatever was bound since; and a bind that is
    refused for a binding that the same compilation undoes is not refused the next time. -/
theorem recompile_restores_twins :
    (leftBound.1.Reachable leftBound.2 ∧ 0 ∈ leftBound.1.blackboard ∧
      (leftBound.1.dispose leftBound.2).2.vars.targetOf 0 = some 1) ∧
    swapped.1.Reachable swapped.2 ∧
      let first := swapped.1.compile .standard swapped.2
      first.1.2.isOk = true ∧ first.2.vars.targetOf 0 = none ∧
        (first.1.1.compile .standard first.2).2.vars.targetOf 0 = some 3 := by
  have hhydrated : (hydrated Registry.builtin twins default).1.Reachable
      (hydrated Registry.builtin twins default).2 :=
    .hydrate Registry.builtin twins Host.bound_default
  refine ⟨⟨?_, ?_⟩, ?_, ?_⟩
  · exact .hosted _ (hhydrated.operate .dispose trivial) (Host.bindVariable_plain 0 1)
  · decide +kernel
  · have hearly := Reachable.hosted _ (.hosted _ hhydrated (Host.setGlobal_plain "y" (.int 1)).1)
      (Host.bindVariable_plain 2 0)
    have hlater := Reachable.hosted _ (hearly.operate (.compile .standard) trivial)
      (Host.setGlobal_plain "x" (.int 2)).1
    exact .hosted _ (.hosted _ hlater (Host.bindVariable_plain 3 1)) (Host.removeGlobal_plain "y")
  · decide +kernel

end Graph
end FlowGraph
