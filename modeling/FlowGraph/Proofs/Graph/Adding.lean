import FlowGraph.Proofs.Dispatch.Logging
import FlowGraph.Proofs.Graph.Alongside
import FlowGraph.Proofs.Graph.Rebinding

/-! # Stores with more in them

    Hydrating only adds to the store, and what it adds depends on how much is there
    (`Graph.ofData_adds`).  Compiling a graph does not look at what was added behind it
    (`Graph.compile_adding`).  So it does not matter whether a second graph is hydrated before
    the first one is compiled or afterwards (`Graph.hydrate_compile_comm`). -/

namespace FlowGraph

/-! ## Section 1: Tables with more variables -/

namespace Variables

/-- The table with some variables behind its own. -/
def adding (vs : Variables) (xs : Array Variable) : Variables := ⟨vs.cells ++ xs⟩

variable {vs : Variables} {xs : Array Variable}

theorem size_adding : vs.cells.size ≤ (vs.adding xs).cells.size := by
  show _ ≤ (vs.cells ++ xs).size
  rw [Array.size_append]
  exact Nat.le_add_right _ _

theorem find?_adding {v : VarId} (hv : v < vs.cells.size) : (vs.adding xs).find? v = vs.find? v :=
  Array.getElem?_append_left hv

theorem modify_adding {v : VarId} (hv : v < vs.cells.size) (f : Variable → Variable) :
    (vs.adding xs).modify v f = (vs.modify v f).adding xs := by
  unfold modify adding
  congr 1
  refine Array.ext_getElem? fun i => ?_
  rw [Array.getElem?_modify]
  by_cases hi : i < vs.cells.size
  · rw [Array.getElem?_append_left hi, Array.getElem?_append_left (by simpa using hi),
      Array.getElem?_modify]
  · have hle := Nat.le_of_not_lt hi
    have hne : ¬ v = i := fun h => hi (h ▸ hv)
    rw [if_neg hne, Array.getElem?_append_right hle,
      Array.getElem?_append_right (by simpa using hle)]
    simp

section Unbound

variable (hxs : ∀ x ∈ xs, x.target = none)

include hxs

theorem targetOf_adding (v : VarId) : (vs.adding xs).targetOf v = vs.targetOf v := by
  unfold targetOf
  by_cases hv : v < vs.cells.size
  · rw [find?_adding hv]
  · have hle := Nat.le_of_not_lt hv
    -- a new variable or none at all: nothing is bound either way
    have hnone : vs.find? v = none := Array.getElem?_eq_none hle
    have hnew : (vs.adding xs).find? v = xs[v - vs.cells.size]? := Array.getElem?_append_right hle
    rw [hnone, hnew]
    cases hx : xs[v - vs.cells.size]? with
    | none => rfl
    | some x => exact hxs x (Array.mem_of_getElem? hx)

/-- Nothing is bound to the new variables, and they are bound to nothing. -/
theorem rewired_adding : vs.Rewired ∅ (vs.adding xs) :=
  ⟨size_adding, fun v hv => by rw [find?_adding hv], fun v _ _ => targetOf_adding hxs v⟩

theorem forwards_adding : (vs.adding xs).Forwards = vs.Forwards := by
  funext v t
  unfold Forwards
  rw [targetOf_adding hxs]

theorem WellBound.adding (hvs : vs.WellBound) : (vs.adding xs).WellBound :=
  hvs.mono size_adding fun v t h => by rwa [forwards_adding hxs] at h

theorem bound_adding (hvs : vs.WellBound) {v w : VarId} (hv : v < vs.cells.size) :
    (vs.adding xs).bound v w = (vs.bound v w).adding xs := by
  -- whether a bind closes a chain is told by the chains, and those are the same
  have hreaches : (vs.adding xs).reaches v (vs.adding xs).cells.size w
      = vs.reaches v vs.cells.size w := by
    rw [Bool.eq_iff_iff, reaches_iff (hvs.adding hxs), reaches_iff hvs, forwards_adding hxs]
  unfold bound bind
  rw [hreaches, modify_adding hv]
  by_cases h : vs.reaches v vs.cells.size w = true
  · rw [if_pos h, if_pos h]
  · rw [if_neg h, if_neg h]

theorem rebound_adding (hvs : vs.WellBound) {v : VarId} (hv : v < vs.cells.size)
    (source : Option VarId) :
    (vs.adding xs).rebound v source = (vs.rebound v source).adding xs := by
  have hunbind : (vs.adding xs).unbind v = (vs.unbind v).adding xs := modify_adding hv _
  cases source with
  | none => exact hunbind
  | some t =>
    show ((vs.adding xs).unbind v).bound v t = ((vs.unbind v).bound v t).adding xs
    rw [hunbind]
    exact bound_adding hxs (hvs.unbind v) (hv.trans_eq (size_unbind v).symm)

theorem rewire_adding (hvs : vs.WellBound) {source source' : VarId → Option VarId}
    (ids : List VarId) (hids : ∀ v ∈ ids, v < vs.cells.size)
    (hsame : ∀ v ∈ ids, source' v = source v)
    (hsource : ∀ v ∈ ids, ∀ t, source v = some t → t < vs.cells.size) :
    (vs.adding xs).rewire source' ids = (vs.rewire source ids).adding xs := by
  -- one variable after the other: the table stays well bound, and its size stays
  induction ids generalizing vs with
  | nil => rfl
  | cons v rest ih =>
    rw [List.forall_mem_cons] at hids hsame hsource
    show ((vs.adding xs).rebound v (source' v)).rewire source' rest
      = ((vs.rebound v (source v)).rewire source rest).adding xs
    rw [hsame.1, rebound_adding hxs hvs hids.1]
    refine ih (hvs.rebound v hsource.1) (fun u hu => ?_) hsame.2 fun u hu t ht => ?_
    · rw [size_rebound]
      exact hids.2 u hu
    · rw [size_rebound]
      exact hsource.2 u hu t ht

/-- The variables of a network are bound as if no others were added. -/
theorem boundVariables_adding (hvs : vs.WellBound) {globals : Globals}
    (hglobals : ∀ name t, globals.find? name = some t → t < vs.cells.size) {n : Network}
    (hrange : ∀ v ∈ n.owned, v < vs.cells.size) :
    Graph.boundVariables globals n (vs.adding xs)
      = (Graph.boundVariables globals n vs).adding xs := by
  have hadded : vs.Rewired ∅ (vs.adding xs) := rewired_adding hxs
  have hboard := Graph.board_lt hrange
  have hown := Graph.own_lt hrange
  rw [Graph.boundVariables_rewire hrange,
    Graph.boundVariables_rewire fun v hv => (hrange v hv).trans_le size_adding]
  rw [rewire_adding hxs hvs n.blackboard hboard
    (fun v hv => boardSource_congr hadded (hboard v hv))
    fun v _ => Graph.boardSource_lt hglobals v]
  refine rewire_adding hxs (hvs.rewire fun v _ => Graph.boardSource_lt hglobals v) _
    (fun v hv => ?_) (fun v hv => ownSource_congr hadded hboard (hown v hv)) fun v _ t ht => ?_
  · rw [size_rewire]
    exact hown v hv
  · rw [size_rewire]
    exact Graph.ownSource_lt hrange hglobals v t ht

end Unbound
end Variables

/-! ## Section 2: Stores with more in them -/

/-- New graphs, new variables, none of them bound, and a number of guids that were made. -/
structure Addition where
  graphs : Array GraphState := #[]
  vars : Array Variable := #[]
  guids : Nat := 0
  unbound : ∀ x ∈ vars, x.target = none

namespace Store

/-- The store with an addition. -/
def adding (s : Store) (a : Addition) : Store :=
  { s with
    graphs := s.graphs ++ a.graphs
    vars := s.vars.adding a.vars
    guidsMade := s.guidsMade + a.guids }

/-- Two stores with equally many graphs, variables and guids. -/
structure Level (s t : Store) : Prop where
  graphs : t.graphs.size = s.graphs.size
  vars : t.vars.cells.size = s.vars.cells.size
  guids : t.guidsMade = s.guidsMade

/-- What was added to the first two stores is the same, the log apart. -/
def AddedTo (s t u v : Store) : Prop :=
  ∃ a log log', u = (s.adding a).withLog log ∧ v = (t.adding a).withLog log'

theorem addedTo_self (s t : Store) : AddedTo s t s t := by
  refine ⟨{ unbound := fun x hx => by simp at hx }, s.log, t.log, ?_, ?_⟩
  · simp [adding, withLog, Variables.adding]
  · simp [adding, withLog, Variables.adding]

theorem modify_append_left (xs ys : Array GraphState) (i : Nat) (hi : i < xs.size)
    (f : GraphState → GraphState) : (xs ++ ys).modify i f = xs.modify i f ++ ys := by
  refine Array.ext_getElem? fun j => ?_
  rw [Array.getElem?_modify, Array.getElem?_append, Array.getElem?_append, Array.getElem?_modify,
    Array.size_modify]
  by_cases hj : j < xs.size
  · rw [if_pos hj, if_pos hj]
  · have hne : i ≠ j := fun h => hj (h ▸ hi)
    rw [if_neg hj, if_neg hj, if_neg hne]

theorem modify_append_right (xs ys : Array GraphState) (i : Nat) (hi : xs.size ≤ i)
    (f : GraphState → GraphState) :
    (xs ++ ys).modify i f = xs ++ ys.modify (i - xs.size) f := by
  refine Array.ext_getElem? fun j => ?_
  rw [Array.getElem?_modify, Array.getElem?_append, Array.getElem?_append, Array.getElem?_modify]
  by_cases hj : j < xs.size
  · have hne : i ≠ j := fun h => by omega
    rw [if_pos hj, if_pos hj, if_neg hne]
  · have heq : i = j ↔ i - xs.size = j - xs.size := by omega
    rw [if_neg hj, if_neg hj]
    simp only [heq]

/-- Hydrating adds the same to stores that are level. -/
theorem addedTo_hydrates {s t : Store} (hst : s.Level t) :
    Store.Hydrates (AddedTo s t) (s.graphs.size ≤ ·) (s.vars.cells.size ≤ ·) where
  logs := by
    rintro _ _ log log' ⟨a, _, _, rfl, rfl⟩
    exact ⟨a, log, log', rfl, rfl⟩
  guid := by
    rintro _ _ ⟨a, log, log', rfl, rfl⟩
    have hnext : (t.adding a).guidsMade + 1 = (s.adding a).guidsMade + 1 :=
      congrArg (· + a.guids + 1) hst.guids
    exact ⟨congrArg (fun n => "fresh-" ++ GraphError.number n) hnext,
      { a with guids := a.guids + 1 }, log, log', rfl, rfl⟩
  graph := by
    rintro _ _ ⟨a, log, log', rfl, rfl⟩
    have hsize : ∀ u : Store, (u.graphs ++ a.graphs).size = u.graphs.size + a.graphs.size :=
      fun _ => Array.size_append
    have hpush : ∀ u : Store, ((u.adding a).withLog u.log).addGraph.2
        = (u.adding { a with graphs := a.graphs.push {} }).withLog u.log := by
      intro u
      simp [addGraph, adding, withLog]
    refine ⟨?_, ?_, { a with graphs := a.graphs.push {} }, log, log', ?_, ?_⟩
    · show (t.graphs ++ a.graphs).size = (s.graphs ++ a.graphs).size
      rw [hsize, hsize, hst.graphs]
    · show s.graphs.size ≤ (s.graphs ++ a.graphs).size
      rw [hsize]
      exact Nat.le_add_right _ _
    · exact congrArg (·.withLog log) (hpush s)
    · exact congrArg (·.withLog log') (hpush t)
  vars := by
    rintro _ _ x ⟨a, log, log', rfl, rfl⟩ hx
    have hsize : ∀ u : Store, (u.vars.cells ++ a.vars).size = u.vars.cells.size + a.vars.size :=
      fun _ => Array.size_append
    -- the variable is new, so it joins the addition unbound
    let b : Addition := { a with
      vars := a.vars.push x
      unbound := fun y hy => (Array.mem_push.mp hy).elim (a.unbound y) fun h => h ▸ hx }
    have hpush : ∀ u : Store, { (u.adding a).withLog u.log with
        vars := ((u.adding a).vars.add x).2 } = (u.adding b).withLog u.log := by
      intro u
      simp [Variables.add, adding, withLog, Variables.adding, b]
    refine ⟨?_, ?_, b, log, log', ?_, ?_⟩
    · show (t.vars.cells ++ a.vars).size = (s.vars.cells ++ a.vars).size
      rw [hsize, hsize, hst.vars]
    · show s.vars.cells.size ≤ (s.vars.cells ++ a.vars).size
      rw [hsize]
      exact Nat.le_add_right _ _
    · exact congrArg (·.withLog log) (hpush s)
    · exact congrArg (·.withLog log') (hpush t)
  cells := by
    rintro _ _ g h values ⟨a, log, log', rfl, rfl⟩ hg
    -- a graph of the addition is filled, so only the addition changes
    have hfill : ∀ u : Store, u.graphs.size = s.graphs.size →
        ((u.adding a).withLog u.log).fill g h values = (u.adding { a with
          graphs := a.graphs.modify (g - s.graphs.size) fun x =>
            { x with cells := setRow x.cells h.index values.toArray } }).withLog u.log := by
      intro u hu
      unfold fill adding withLog
      dsimp only
      rw [modify_append_right _ _ _ (hu ▸ hg), hu]
    exact ⟨_, log, log', congrArg (·.withLog log) (hfill s rfl),
      congrArg (·.withLog log') (hfill t hst.graphs)⟩

/-- The second store is the first one with an addition, the log apart; and the first one has as
    much in it as another store. -/
def Widens (base : Store) (a : Addition) (u v : Store) : Prop :=
  u.Bound ∧ base.Level u ∧ ∃ log, v = (u.adding a).withLog log

/-- Compiling does not look at an addition. -/
theorem widens_compiles (base : Store) (a : Addition) :
    Store.Compiles (Widens base a) (· < base.graphs.size) (· < base.vars.cells.size) where
  logs := by
    rintro u _ log log' ⟨hu, hlevel, _, rfl⟩
    exact ⟨hu.of_vars rfl rfl, ⟨hlevel.graphs, hlevel.vars, hlevel.guids⟩, log', rfl⟩
  restored := by
    rintro u _ g ⟨hu, hlevel, log, rfl⟩ hg
    refine ⟨hu.of_vars rfl rfl, ⟨?_, hlevel.vars, hlevel.guids⟩, log, ?_⟩
    · rw [← hlevel.graphs]
      exact Array.size_modify
    · unfold setDisposed adding withLog
      dsimp only
      rw [modify_append_left _ _ _ (hlevel.graphs ▸ hg)]
  bound := by
    rintro u _ n ⟨hu, hlevel, log, rfl⟩ hn
    have hrange : ∀ v ∈ n.owned, v < u.vars.cells.size := by
      rw [hlevel.vars]
      exact List.forall_mem_append.mpr ⟨hn.board, hn.own⟩
    have hsize : (Graph.boundVariables u.globals n u.vars).cells.size = u.vars.cells.size := by
      rw [Graph.boundVariables_rewire hrange, Variables.size_rewire, Variables.size_rewire]
    refine ⟨⟨Graph.boundVariables_wellBound hrange hu.globals hu.wellBound, fun name t ht => ?_⟩,
      ⟨hlevel.graphs, hsize.trans hlevel.vars, hlevel.guids⟩, log, ?_⟩
    · exact (hu.globals name t ht).trans_eq hsize.symm
    · have hvars := Variables.boundVariables_adding a.unbound hu.wellBound hu.globals hrange
      unfold adding withLog
      dsimp only
      rw [hvars]

/-- Compiling does not look at the log. -/
theorem withLog_compiles : Store.Compiles (fun u v => ∃ log, v = u.withLog log) (fun _ => True)
    fun _ => True where
  logs := fun _ _ _ log' ⟨_, h⟩ => ⟨log', h ▸ rfl⟩
  restored := fun _ _ _ ⟨log, h⟩ _ => ⟨log, h ▸ rfl⟩
  bound := fun _ _ _ ⟨log, h⟩ _ => ⟨log, h ▸ rfl⟩

end Store

/-! ## Section 3: Hydrating and compiling -/

namespace Graph

variable {G : GraphId → Prop} {V : VarId → Prop}

/-- What a graph names is below the bounds of its ids and variables. -/
theorem uses_of_lt {g : Graph} (hg : g.All (Network.Uses G V)) {n m : Nat}
    (hids : ∀ id ∈ g.ids, id < n) (howned : ∀ v ∈ g.owned, v < m) :
    g.All (Network.Uses (· < n) (· < m)) := by
  -- by induction on the graph: it has its own ids and variables, and those of its functions
  induction hg with
  | intro g network functions ih =>
    rw [ids_eq, List.forall_mem_cons] at hids
    rw [owned_eq, List.forall_mem_append] at howned
    refine .intro g ⟨hids.1, fun h x hx e he => howned.1 e.2 ?_,
      fun v hv => howned.1 v (List.mem_append_left _ hv)⟩ fun f hf => ih f hf (fun id hid => ?_) ?_
    · refine List.mem_append_right _ (List.mem_map.mpr ⟨(x.guid, e.1, e.2), ?_, rfl⟩)
      exact List.mem_flatMap.mpr ⟨(h, x), (Arena.mem_toList_iff g.nodes h x).mpr hx,
        List.mem_map_of_mem he⟩
    · exact hids.2 id ((mem_functionIds_iff _ _).mpr ⟨f, hf, hid⟩)
    · intro v hv
      refine howned.2 v ?_
      rw [functionsOwned_eq]
      exact List.mem_flatMap.mpr ⟨f, hf, hv⟩

/-- A hydrated graph names what is in the store afterwards. -/
theorem ofData_uses (registry : Registry) (data : GraphData) (s : Store) :
    (ofData registry data s).1.All (Network.Uses (· < (ofData registry data s).2.graphs.size)
      (· < (ofData registry data s).2.vars.cells.size)) := by
  have hlevel : s.Level s := ⟨rfl, rfl, rfl⟩
  have huses := (ofData_agrees (Store.addedTo_hydrates hlevel) registry data s s
    (s.addedTo_self s)).2.1
  obtain ⟨n, hnumbers⟩ := ofData_numbers registry data s
  have hmade := ofData_makes registry data s
  refine uses_of_lt huses (fun id hid => ?_) fun v hv => (hmade.fresh v hv).2
  rw [hnumbers.ids, List.mem_range'_1] at hid
  rw [hnumbers.size]
  exact hid.2

theorem ofData_bound (registry : Registry) (data : GraphData) {s : Store} (hs : s.Bound) :
    (ofData registry data s).2.Bound := by
  have hmade := ofData_makes registry data s
  refine ⟨hmade.wellBound hs.wellBound, fun name v hv => ?_⟩
  rw [hmade.globals] at hv
  exact (hs.globals name v hv).trans_le hmade.rewired.size

/-- What hydrating adds depends on how much is in the store. -/
theorem ofData_adds (registry : Registry) (data : GraphData) {s t : Store} (hst : s.Level t) :
    ∃ g a log log', ofData registry data s = (g, (s.adding a).withLog log) ∧
      ofData registry data t = (g, (t.adding a).withLog log') := by
  obtain ⟨hsame, _, a, log, log', hs, ht⟩ :=
    ofData_agrees (Store.addedTo_hydrates hst) registry data s t (s.addedTo_self t)
  exact ⟨_, a, log, log', Prod.ext rfl hs, Prod.ext hsame ht⟩

/-- An addition does not matter for compiling. -/
theorem compile_adding (conversions : Conversions) (g : Graph) {s : Store} (hs : s.Bound)
    (hg : g.All (Network.Uses (· < s.graphs.size) (· < s.vars.cells.size))) (a : Addition)
    (log : Log) :
    s.Level (g.compile conversions s).2 ∧ ∃ log',
      g.compile conversions ((s.adding a).withLog log)
        = ((g.compile conversions s).1, ((g.compile conversions s).2.adding a).withLog log') := by
  obtain ⟨hsame, _, _, hlevel, log', hadded⟩ :=
    compile_agrees (Store.widens_compiles s a) conversions g hg s ((s.adding a).withLog log)
      ⟨hs, ⟨rfl, rfl, rfl⟩, log, rfl⟩
  exact ⟨hlevel, log', Prod.ext hsame hadded⟩

theorem all_uses_true (g : Graph) (h : g.All (Network.Uses G V)) :
    g.All (Network.Uses (fun _ => True) fun _ => True) :=
  h.mono fun _ _ => ⟨trivial, fun _ _ _ _ _ => trivial, fun _ _ => trivial⟩

/-- The log does not matter for compiling. -/
theorem compile_withLog (conversions : Conversions) (g : Graph) (hg : g.All (Network.Uses G V))
    (s : Store) (log : Log) : ∃ log', g.compile conversions (s.withLog log)
      = ((g.compile conversions s).1, (g.compile conversions s).2.withLog log') := by
  obtain ⟨hsame, _, log', hleft⟩ := compile_agrees Store.withLog_compiles conversions g
    (all_uses_true g hg) s (s.withLog log) ⟨log, rfl⟩
  exact ⟨log', Prod.ext hsame hleft⟩

/-- **Hydrating and compiling commute.**  A graph may be hydrated before another one is
    compiled or afterwards; nothing but the log differs. -/
theorem hydrate_compile_comm (registry : Registry) (conversions : Conversions) (data : GraphData)
    (g : Graph) {s : Store} (hs : s.Bound)
    (hg : g.All (Network.Uses (· < s.graphs.size) (· < s.vars.cells.size))) :
    let hydrated := ofData registry data s
    let compiled := g.compile conversions s
    (ofData registry data compiled.2).1 = hydrated.1 ∧
      (g.compile conversions hydrated.2).1 = compiled.1 ∧
      ∃ log, (g.compile conversions hydrated.2).2
        = (ofData registry data compiled.2).2.withLog log := by
  intro hydrated compiled
  -- compiling leaves a level store behind, so hydrating adds the same there; and that addition
  -- does not matter for compiling
  obtain ⟨hlevel, _⟩ := compile_adding conversions g hs hg { unbound := by simp } #[]
  obtain ⟨k, a, log, log', hfirst, hsecond⟩ := ofData_adds registry data hlevel
  obtain ⟨_, log'', hadded⟩ := compile_adding conversions g hs hg a log
  have hhydrated : hydrated = (k, (s.adding a).withLog log) := hfirst
  rw [hhydrated, hsecond, hadded]
  exact ⟨rfl, rfl, log'', rfl⟩

end Graph
end FlowGraph
