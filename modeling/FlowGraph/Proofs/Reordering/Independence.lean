import FlowGraph.Proofs.Reordering.Builds

/-! # The order of the nodes does not matter

    Names inside of a graph cannot be seen from outside: ports are looked up by guids, and
    variables by guids and fields.  Two graphs have the same values if all look-ups give the
    same (`Graph.SameValues`), and two runs are the same if they end in the same way, or stand
    at the same wait, with the same values (`Process.SameRun`); their traces differ at most in
    nodes that run on demand.

    The main theorem, `Graph.build_reordered`: if the nodes of a saved graph are listed in
    another order, the build succeeds or fails as before, and all dispatches are the same. -/

namespace FlowGraph

/-! ## Section 1: What can be seen -/

namespace Graph

/-- The value of a node's variable, by its field. -/
def ownValue (g : Graph) (s : Store) (guid field : String) : Option Value :=
  ((g.nodeOf guid).bind (·.ownVariable field)).map s.vars.get

/-- What a slot holds. -/
def slotValue (g : Graph) (s : Store) (guid port : String) (index : Nat) : Option Value :=
  (g.address? guid port index).map (s.cell g.id)

/-- What is read at a slot, through its link if it is linked. -/
def portValue (g : Graph) (s : Store) (guid port : String) (index : Nat) : Option Value :=
  (g.address? guid port index).map (g.readPort s)

/-- The ports and variables of two graphs have the same values, guid by guid, and so have all
    other variables and graphs. -/
structure SameValues (g k : Graph) (s t : Store) : Prop where
  slots : ∀ guid port index, k.slotValue t guid port index = g.slotValue s guid port index
  ports : ∀ guid port index, k.portValue t guid port index = g.portValue s guid port index
  own : ∀ guid field, k.ownValue t guid field = g.ownValue s guid field
  vars : ∀ v, v ∉ (ownVariables g.toNetwork).map (·.2.2) → t.vars.get v = s.vars.get v
  graphs : ∀ id, id ≠ g.id → t.graphs[id]? = s.graphs[id]?

/-- A filter drops the nodes of a graph that run on demand. -/
def DropsOnDemand (g : Graph) (keep : String → Bool) : Prop :=
  ∀ h x, g.node? h = some x → x.descriptor.path = .dependency → keep x.guid = false

end Graph

/-- Two outcomes are the same, but for nodes that run on demand in the traces. -/
structure DispatchOutcome.SameAs (g : Graph) (o o' : DispatchOutcome) : Prop where
  dispatchId : o'.dispatchId = o.dispatchId
  entry : o'.entry = o.entry
  nodesExecuted : o'.nodesExecuted = o.nodesExecuted
  trace : ∀ keep, g.DropsOnDemand keep → o'.trace.filter keep = o.trace.filter keep
  returned : o'.returned = o.returned

/-- Two runs end in the same way, or stand at the same wait, or were both cut off; and all
    values are the same. -/
inductive Process.SameRun (g k : Graph) : Process DispatchOutcome → Process DispatchOutcome → Prop
  where
  | completed (o o' : DispatchOutcome) (s t : DispatchState) (outcomes : o.SameAs g o')
      (values : g.SameValues k s.store t.store) :
    SameRun g k (.done (.ok o) s) (.done (.ok o') t)
  | failed (e : GraphError) (s t : DispatchState) (values : g.SameValues k s.store t.store) :
    SameRun g k (.done (.error e) s) (.done (.error e) t)
  | waiting (key : WaitKey) (s t : DispatchState)
      (resume resume' : Except GraphError Unit → Store → Process DispatchOutcome)
      (values : g.SameValues k s.store t.store) :
    SameRun g k (.waiting key s resume) (.waiting key t resume')
  | exhausted (s t : DispatchState) (values : g.SameValues k s.store t.store) :
    SameRun g k (.exhausted s) (.exhausted t)

/-! ## Section 2: Waits -/

/-- What a wait ends with, and what goes on meanwhile: timers run, and objects come and go. -/
structure Elapse where
  answer : Except GraphError Unit
  scheduler : Scheduler
  objects : HostObjects

/-- What becomes of a process whose waits end in turn. -/
def Process.elapsed {α : Type} : Process α → List Elapse → Process α
  | .waiting _ s resume, e :: rest =>
    (resume e.answer { s.store with scheduler := e.scheduler, objects := e.objects }).elapsed rest
  | p, _ => p

variable {ren : Renaming}

theorem Process.Alike.elapsed {α β : Type} {N : NodeHandle → NodeHandle → Prop} {Q : α → β → Prop}
    {p : Process α} {q : Process β} (h : Process.Alike ren N Q p q) (waits : List Elapse) :
    Process.Alike ren N Q (p.elapsed waits) (q.elapsed waits) := by
  induction waits generalizing p q with
  | nil =>
    cases h with
    | done r r' s t same states => exact .done r r' s t same states
    | waiting key s t resume resume' states resumes =>
      exact .waiting key s t resume resume' states resumes
    | exhausted s t states => exact .exhausted s t states
  | cons e rest ih =>
    cases h with
    | done r r' s t same states => exact .done r r' s t same states
    | waiting key s t resume resume' states resumes =>
      have hstores : Store.Alike ren
          { s.store with scheduler := e.scheduler, objects := e.objects }
          { t.store with scheduler := e.scheduler, objects := e.objects } := by
        have hst := states.store
        exact ⟨rfl, hst.globals, rfl, hst.guidsMade, hst.dispatchesMade, hst.vars, hst.graphs,
          hst.others, hst.disposedThere, hst.rowThere, hst.cellThere, hst.held⟩
      exact ih (resumes e.answer _ _ hstores)
    | exhausted s t states => exact .exhausted s t states

/-! ## Section 3: Alike graphs cannot be told apart -/

namespace Network.Renamed

variable {n m : Network} {s t : Store}

theorem nodeOf (h : n.Renamed ren m) (guid : String) :
    Option.Rel (GraphNode.Alike ren (ren.nodeIn n.id)) (n.nodeOf guid) (m.nodeOf guid) := by
  have hhandle := h.handle guid
  unfold Network.nodeOf
  generalize n.handleOf guid = a, m.handleOf guid = b at hhandle
  cases hhandle with
  | none => exact .none
  | @some a b hab =>
    rw [Option.bind_some, Option.bind_some]
    cases h.node a b hab with
    | found x y hx hy hxy =>
      rw [hx, hy]
      exact .some hxy
    | missing _ hn hm =>
      rw [hn, hm]
      exact .none

theorem address? (h : n.Renamed ren m) (guid port : String) (index : Nat) :
    Option.Rel (ren.SlotIn n.id) (n.address? guid port index) (m.address? guid port index) := by
  have hposition : (m.nodeOf guid).bind (·.portIndex port index)
      = (n.nodeOf guid).bind (·.portIndex port index) := by
    have hnode := h.nodeOf guid
    generalize n.nodeOf guid = x, m.nodeOf guid = y at hnode
    cases hnode with
    | none => rfl
    | some hxy => exact GraphNode.portIndex_matches hxy.ports port index
  unfold Network.address?
  rw [hposition]
  cases (n.nodeOf guid).bind (·.portIndex port index) with
  | none => exact .none
  | some i =>
    have hhandle := h.handle guid
    rw [Option.bind_some, Option.bind_some]
    unfold addressAt?
    generalize n.handleOf guid = a, m.handleOf guid = b at hhandle
    cases hhandle with
    | none => exact .none
    | @some a b hab =>
      -- there is a slot at the position on one side if there is one on the other
      have hslot : ren.SlotIn n.id ⟨a, i⟩ ⟨b, i⟩ := ⟨hab, rfl⟩
      have hport := h.port? hslot
      rw [Option.map_some, Option.map_some]
      generalize hp : n.port? ⟨a, i⟩ = p, hq : m.port? ⟨b, i⟩ = q at hport
      cases hport with
      | none => simp [Option.filter, hp, hq]
      | some _ => simpa [Option.filter, hp, hq] using hslot

end Network.Renamed

/-- Related names give equal values. -/
theorem map_eq_of_rel {α β γ : Type} {S : α → β → Prop} {a : Option α} {b : Option β}
    (h : Option.Rel S a b) (f : α → γ) (g : β → γ) (hfg : ∀ x y, S x y → g y = f x) :
    b.map g = a.map f := by
  cases h with
  | none => rfl
  | some hxy => exact congrArg some (hfg _ _ hxy)

/-- A network of another graph, in which no variable of a node of this one is used. -/
structure Network.Apart (g : Graph) (n : Network) : Prop where
  other : n.id ≠ g.id
  vars : ∀ h x, n.node? h = some x → ∀ e ∈ x.vars,
    e.2 ∉ (Graph.ownVariables g.toNetwork).map (·.2.2)
  board : ∀ v ∈ n.blackboard, v ∉ (Graph.ownVariables g.toNetwork).map (·.2.2)

namespace Graph.Mirrors

variable {g k : Graph}

/-- In alike stores they have the same values. -/
theorem sameValues (h : g.Mirrors ren k) {s t : Store} (hst : s.Alike ren t) :
    g.SameValues k s t := by
  have hgraphs := h.alike.toRenamed
  refine ⟨fun guid port index => ?_, fun guid port index => ?_, fun guid field => ?_,
    fun v hv => hst.vars.get (h.elsewhere v hv), fun id hne => hst.others id (h.renamed ▸ hne)⟩
  · refine map_eq_of_rel (hgraphs.address? guid port index) _ _ fun a b hab => ?_
    rw [hgraphs.id]
    exact hst.cell g.id a b hab
  · exact map_eq_of_rel (hgraphs.address? guid port index) _ _ fun a b hab =>
      hgraphs.readPort hst hab
  · have hnode := hgraphs.nodeOf guid
    unfold ownValue
    generalize g.nodeOf guid = x, k.nodeOf guid = y at hnode
    cases hnode with
    | none => rfl
    | some hxy => exact map_eq_of_rel (hxy.ownVariable field) _ _ fun v w hvw => hst.vars.get hvw

/-- What drops the nodes on demand drops those that are left aside. -/
theorem drops (h : g.Mirrors ren k) {keep : String → Bool} (hkeep : g.DropsOnDemand keep)
    (guid : String) (haside : ren.aside guid) : keep guid = false := by
  obtain ⟨a, x, hx, rfl, hpath⟩ := h.onDemand guid haside
  exact hkeep a x hx hpath

/-- Runs that are alike are the same. -/
theorem sameRun (h : g.Mirrors ren k) {N : NodeHandle → NodeHandle → Prop}
    {p q : Process DispatchOutcome} (hpq : Process.Alike ren N (DispatchOutcome.Alike ren) p q) :
    Process.SameRun g k p q := by
  have hvalues := h.sameValues hpq.state.store
  cases hpq with
  | done result result' s t same _ =>
    cases same with
    | ok o o' ho =>
      exact .completed o o' s t ⟨ho.dispatchId, ho.entry, ho.nodesExecuted,
        fun keep hkeep => ho.trace keep (h.drops hkeep), ho.returned⟩ hvalues
    | error e => exact .failed e s t hvalues
  | waiting key s t resume resume' _ _ => exact .waiting key s t resume resume' hvalues
  | exhausted s t _ => exact .exhausted s t hvalues

/-- Other graphs keep their names. -/
theorem fixed_of_apart (h : g.Mirrors ren k) {n : Network} (hn : n.Apart g) : n.Fixed ren :=
  ⟨h.renamed ▸ hn.other, fun a x hx e he => h.elsewhere _ (hn.vars a x hx e he),
    fun v hv => h.elsewhere v (hn.board v hv)⟩

/-- A request does the same in both. -/
theorem start_same (h : g.Mirrors ren k) {s t : Store} (hst : s.Alike ren t) (fuel : Nat)
    (engine : Engine) (hunlimited : engine.config.maxChainSteps = none)
    (hlibrary : ∀ f ∈ engine.library, f.2.All (Network.Apart g)) (r : DispatchRequest)
    (waits : List Elapse) : Process.SameRun g k
      ((Dispatch.start fuel engine g r s).elapsed waits)
      ((Dispatch.start fuel engine k r t).elapsed waits) := by
  have hfixed : ∀ f ∈ engine.library, f.2.All (Network.Fixed ren) := fun f hf =>
    (hlibrary f hf).mono fun _ hn => h.fixed_of_apart hn
  exact h.sameRun ((Dispatch.start_alike fuel engine hfixed hunlimited h.alike r hst).elapsed waits)

end Graph.Mirrors

/-! ## Section 4: The main theorem -/

namespace Graph

/-- **Main theorem: the order of the nodes does not matter.**  Take a saved graph whose nodes
    have distinct guids, no data input with connections from two slots and no two entries of
    one name, and list its nodes in another order.  From the same store, both build or neither
    does.  The two graphs have the same values, and a request does the same in both, without a
    limit on steps: it fails in the same way, or ends with the same entry, result and number of
    nodes, with traces that differ in nodes on demand only, and the values are the same. -/
theorem build_reordered (registry : Registry) (conversions : Conversions) (data : GraphData)
    (nodes : List NodeData) (s₀ : Store) (hregistry : registry.OnDemand) (hclosed : s₀.Closed)
    (hnamed : data.Named) (hsingle : data.SinglyConnected registry)
    (hentries : data.DistinctEntries registry) (hnodes : data.nodes.Perm nodes) :
    ((∃ g s, build registry conversions data s₀ = (.ok g, s)) ↔
      ∃ k t, build registry conversions { data with nodes } s₀ = (.ok k, t)) ∧
    ∀ g s k t, build registry conversions data s₀ = (.ok g, s) →
      build registry conversions { data with nodes } s₀ = (.ok k, t) →
      g.SameValues k s t ∧
      ∀ (fuel : Nat) (engine : Engine) (r : DispatchRequest) (waits : List Elapse),
        engine.config.maxChainSteps = none →
        (∀ f ∈ engine.library, f.2.All (Network.Apart g)) →
        Process.SameRun g k ((Dispatch.start fuel engine g r s).elapsed waits)
          ((Dispatch.start fuel engine k r t).elapsed waits) := by
  obtain ⟨ren, hcompiled⟩ : ∃ ren, Shuffled.CompiledAlike ren
      ((ofData registry data s₀).1.compile conversions (ofData registry data s₀).2)
      ((ofData registry { data with nodes } s₀).1.compile conversions
        (ofData registry { data with nodes } s₀).2) :=
    ⟨_, ofData_compiled hclosed hnamed hnodes ⟨hregistry, hsingle, hentries⟩ conversions⟩
  have hbuild : ∀ d, build registry conversions d s₀
      = (((ofData registry d s₀).1.compile conversions (ofData registry d s₀).2).1.2.map fun _ =>
          ((ofData registry d s₀).1.compile conversions (ofData registry d s₀).2).1.1,
        ((ofData registry d s₀).1.compile conversions (ofData registry d s₀).2).2) := fun _ => rfl
  rw [hbuild, hbuild]
  generalize (ofData registry data s₀).1.compile conversions (ofData registry data s₀).2 = c,
    (ofData registry { data with nodes } s₀).1.compile conversions
      (ofData registry { data with nodes } s₀).2 = c' at hcompiled
  cases hcompiled with
  | failed g k e e' s t =>
    refine ⟨⟨fun ⟨_, _, h⟩ => ?_, fun ⟨_, _, h⟩ => ?_⟩, fun _ _ _ _ h => ?_⟩
    all_goals cases h
  | compiled g k s t hgraph hstores =>
    refine ⟨⟨fun _ => ⟨k, t, rfl⟩, fun _ => ⟨g, s, rfl⟩⟩, ?_⟩
    rintro _ _ _ _ ⟨⟩ ⟨⟩
    exact ⟨hgraph.sameValues hstores, fun fuel engine r waits hunlimited hlibrary =>
      hgraph.start_same hstores fuel engine hunlimited hlibrary r waits⟩

/-- A loop between two constants. -/
def counting : GraphData where
  name := "counting"
  nodes := [
    { guid := "go", type := "Ceres.Flow.ExecutionEvent",
      serializedData := "\x7b\"eventName\": \"go\"\x7d",
      ports := [{ name := "next", connections := [⟨"loop", "input", 0⟩] }] },
    { guid := "one", type := "Ceres.Values.Literal", genericArguments := ["int"],
      serializedData := "\x7b\"value\": 1\x7d",
      ports := [{ name := "value", connections := [⟨"loop", "first", 0⟩] }] },
    { guid := "three", type := "Ceres.Values.Literal", genericArguments := ["int"],
      serializedData := "\x7b\"value\": 3\x7d",
      ports := [{ name := "value", connections := [⟨"loop", "last", 0⟩] }] },
    { guid := "loop", type := "Ceres.Flow.ForLoop" }]

/-- The trace of a request to the graph of some saved data, if it builds and the request ends. -/
def traceOf (data : GraphData) (r : DispatchRequest) : Option (List String) :=
  match build .builtin .standard data default with
  | (.ok g, s) =>
    match Dispatch.start 10 {} g r s with
    | .done (.ok o) _ => some o.trace
    | _ => none
  | _ => none

theorem exists_of_traceOf {data : GraphData} {r : DispatchRequest} {trace : List String}
    (h : traceOf data r = some trace) :
    ∃ g s o u, build .builtin .standard data default = (.ok g, s) ∧
      Dispatch.start 10 {} g r s = .done (.ok o) u ∧ o.trace = trace := by
  unfold traceOf at h
  split at h
  · rename_i g s hbuild
    split at h
    · rename_i o u hstart
      exact ⟨g, s, o, u, hbuild, hstart, Option.some.inj h⟩
    · cases h
  · cases h

/-- Listed the other way round, the nodes of the loop's path run in another order, and all else
    is the same. -/
theorem build_reordered_counting :
    let r : DispatchRequest := { entry := .event "go" }
    ∃ g s k t o o' u v,
      build .builtin .standard counting default = (.ok g, s) ∧
      build .builtin .standard { counting with nodes := counting.nodes.reverse } default
        = (.ok k, t) ∧
      Dispatch.start 10 {} g r s = .done (.ok o) u ∧
      Dispatch.start 10 {} k r t = .done (.ok o') v ∧
      o.trace = ["go", "one", "three", "loop"] ∧ o'.trace = ["go", "three", "one", "loop"] ∧
      o.SameAs g o' ∧ g.SameValues k u.store v.store := by
  intro r
  obtain ⟨g, s, o, u, hg, ho, htrace⟩ := exists_of_traceOf
    (show traceOf counting r = some ["go", "one", "three", "loop"] by decide +kernel)
  obtain ⟨k, t, o', v, hk, ho', htrace'⟩ := exists_of_traceOf
    (show traceOf { counting with nodes := counting.nodes.reverse } r
      = some ["go", "three", "one", "loop"] by decide +kernel)
  have hsame := ((build_reordered .builtin .standard counting counting.nodes.reverse default
    Registry.resolve_signature Store.closed_default (by decide +kernel) (by decide +kernel)
    (by decide +kernel) (List.reverse_perm _).symm).2 g s k t hg hk).2 10 {} r [] rfl
    (List.forall_mem_nil _)
  rw [ho, ho'] at hsame
  cases hsame with
  | completed _ _ _ _ houtcomes hvalues =>
    exact ⟨g, s, k, t, o, o', u, v, hg, hk, ho, ho', htrace, htrace', houtcomes, hvalues⟩

end Graph
end FlowGraph
