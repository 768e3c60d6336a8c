import FlowGraph.Proofs.Dispatch.Words

/-! # Traces are words

    A dispatch that completes ran the word of its entry's chain: its trace lists the guids of
    the word (`trace_of_dispatch`).  The proof follows the definitions that run a chain, by
    induction on the fuel; sub-executions get the words of the chains that they run. -/

namespace FlowGraph

/-- Chains that return run their words. -/
def Chain.Worded (chain : Chain) : Prop :=
  ∀ (frame : Frame) (h : NodeHandle) (s t : DispatchState), frame.All Network.Orderly →
    (chain frame h).Returns s () t → ∃ w, Word (.chain frame h) s w t

/-! ## Section 1: Sub-executions -/

section

variable {chain : Chain} (hchain : chain.Worded) {site : Site}
  (hsite : site.frame.All Network.Orderly)

include hchain hsite

theorem word_port (name : String) (index : Nat) (s t : DispatchState)
    (h : (site.forwardPort chain name index).Returns s () t) :
    ∃ w, Word (.port site name index) s w t ∧ t.next = s.next := by
  rcases site.returns_forwardPort chain name index s t h with
    ⟨hnone, rfl⟩ | ⟨start, u, hsome, hrun, rfl⟩
  · exact ⟨[], .unlinked site name index t hnone, rfl⟩
  · obtain ⟨w, hw⟩ := hchain site.inner start s u hsite.inner hrun
    exact ⟨w, .linked site name index start s u w hsome hw, rfl⟩

theorem word_slots (indices : List Nat) (s t : DispatchState)
    (h : (Exec.forEach indices (site.forwardPort chain "then")).Returns s () t) :
    ∃ w, Word (.slots site indices) s w t ∧ t.next = s.next := by
  induction indices generalizing s with
  | nil =>
    obtain ⟨_, rfl⟩ := (Exec.returns_pure_iff _ _ _ _).mp h
    exact ⟨[], .slotsEnd site s, rfl⟩
  | cons index rest ih =>
    obtain ⟨_, u, hfirst, hrest⟩ := Exec.returns_bind _ _ _ _ _ h
    obtain ⟨first, hw, hnext⟩ := word_port hchain hsite "then" index s u hfirst
    obtain ⟨later, hv, hnext'⟩ := ih u hrest
    exact ⟨first ++ later, .slot site index rest s u t first later hw hv, hnext'.trans hnext⟩

theorem word_turns (count : Nat) (index : Int) (s t : DispatchState)
    (h : (site.loop chain count index).Returns s () t) :
    ∃ w, Word (.turns site count index) s w t := by
  induction count generalizing index s with
  | zero =>
    obtain ⟨_, rfl⟩ := (Exec.returns_pure_iff _ _ _ _).mp h
    exact ⟨[], .turnsEnd site index s⟩
  | succ count ih =>
    replace h := Exec.returns_modify_bind _ _ _ _ _ h
    obtain ⟨_, u, hbody, hrest⟩ := Exec.returns_bind _ _ _ _ _ h
    obtain ⟨first, hw, _⟩ := word_port hchain hsite "body" 0 _ u hbody
    obtain ⟨later, hv⟩ := ih (index + 1) u hrest
    exact ⟨first ++ later, .turn site count index s u t first later hw hv⟩

/-- A node of the library runs its sub-executions and selects its successor. -/
theorem word_inside (b : Behavior) (hb : b.isBuiltin = true) (s t : DispatchState)
    (hnext : s.next = none) (h : (site.execute chain b).Returns s () t) :
    ∃ w u, Word (.inside site b) s w u ∧ t = { u with next := site.selected s.store b } := by
  cases hstarts : b.startsChains with
  | false =>
    obtain ⟨store, returned, next, rfl, hselected⟩ := site.returns_plain chain b hstarts s t h
    rw [site.execute_plain chain .idle b hstarts] at h
    exact ⟨[], _, .plain site b s _ hstarts h, by rw [hselected hnext]⟩
  | true =>
    cases b with
    | sequence =>
      obtain ⟨w, hw, hsame⟩ := word_slots hchain hsite _ s t h
      -- nothing is selected, as before
      have hselected : site.selected s.store .sequence = t.next := hnext.symm.trans hsame.symm
      exact ⟨w, t, .sequence site s t w hw, by rw [hselected]⟩
    | forLoop =>
      replace h := Exec.returns_read_bind _ _ _ _ _ h
      replace h := Exec.returns_read_bind _ _ _ _ _ h
      obtain ⟨_, u, hloop, hrest⟩ := Exec.returns_bind _ _ _ _ _ h
      obtain rfl := (Exec.returns_modify_iff _ _ _).mp hrest
      obtain ⟨w, hw⟩ := word_turns hchain hsite _ _ s u hloop
      exact ⟨w, u, .forLoop site s u w _ _ rfl rfl hw, rfl⟩
    | invokeFunction name =>
      replace h := Exec.returns_read_bind _ _ _ _ _ h
      obtain ⟨result, u, hcall, hrest⟩ := Exec.returns_bind _ _ _ _ _ h
      obtain ⟨g, entry, v, hcallee, hrun, rfl, rfl⟩ := site.returns_call chain name _ s u result hcall
      replace hrest := Exec.returns_modify_bind _ _ _ _ _ hrest
      obtain rfl := (Exec.returns_modify_iff _ _ _).mp hrest
      obtain ⟨w, hw⟩ := hchain _ entry _ v (hsite.callFrame name s.store g entry _ hcallee) hrun
      exact ⟨w, _, .call site name g entry s v w hcallee hw, rfl⟩
    | script script => cases hb
    | _ => cases hstarts

end

/-! ## Section 2: Nodes and chains -/

section

variable {chain : Chain} (hchain : chain.Worded) {frame : Frame}
  (hframe : frame.All Network.Orderly)

include hchain hframe

theorem word_visit (h : NodeHandle) (s t : DispatchState) (hnext : s.next = none)
    (hinvoke : (frame.invoke chain h).Returns s () t) : ∃ w, Word (.visit frame h) s w t := by
  obtain ⟨x, u, hx, hexecute, rfl⟩ := frame.returns_invoke chain h s t hinvoke
  have hbuiltin := (hframe.graph.network.ofLibrary h x hx).1
  have hsite : (Site.mk frame h).frame.All Network.Orderly := hframe
  have hstarted : (frame.started x s).next = none := hnext
  obtain ⟨w, v, hw, rfl⟩ := word_inside hchain hsite x.behavior hbuiltin _ u hstarted hexecute
  exact ⟨⟨frame, h⟩ :: w, .visit frame h x s v w hx hw⟩

omit hchain hframe in
/-- A node that runs no chains is visited alone. -/
theorem word_visit_onDemand (h : NodeHandle) (x : GraphNode)
    (hx : frame.graph.node? h = some x) (hsignature : x.behavior.signature.isSome = true)
    (s t : DispatchState) (w : List Site) (hw : Word (.visit frame h) s w t) :
    w = [⟨frame, h⟩] ∧ t.next = none := by
  obtain ⟨signature, hsignature⟩ := Option.isSome_iff_exists.mp hsignature
  cases hw with
  | visit _ _ y _ u v hy hinside =>
    rw [hx] at hy
    cases hy
    have hnil : v = [] := by
      cases hb : x.behavior with
      | sequence => rw [hb] at hsignature; cases hsignature
      | forLoop => rw [hb] at hsignature; cases hsignature
      | invokeFunction name => rw [hb] at hsignature; cases hsignature
      | script script => rw [hb] at hsignature; cases hsignature
      | _ =>
        rw [hb] at hinside
        cases hinside
        rfl
    rw [hnil]
    exact ⟨rfl, Site.selected_onDemand _ _ x.behavior signature hsignature⟩

theorem word_path (path : List NodeHandle) (s t : DispatchState) (hnext : s.next = none)
    (hdemand : ∀ m ∈ path, ∃ x, frame.graph.node? m = some x ∧
      x.behavior.signature.isSome = true)
    (hrun : (Exec.forEach path (frame.invoke chain)).Returns s () t) :
    ∃ w, Word (.path frame path) s w t := by
  induction path generalizing s with
  | nil =>
    obtain ⟨_, rfl⟩ := (Exec.returns_pure_iff _ _ _ _).mp hrun
    exact ⟨[], .pathEnd frame s⟩
  | cons m rest ih =>
    obtain ⟨_, u, hfirst, hrest⟩ := Exec.returns_bind _ _ _ _ _ hrun
    obtain ⟨x, hx, hsignature⟩ := hdemand m List.mem_cons_self
    obtain ⟨w, hw⟩ := word_visit hchain hframe m s u hnext hfirst
    obtain ⟨rfl, hnone⟩ := word_visit_onDemand m x hx hsignature s u w hw
    obtain ⟨v, hv⟩ := ih u hnone (fun k hk => hdemand k (List.mem_cons_of_mem m hk)) hrest
    exact ⟨⟨frame, m⟩ :: v, .pathNode frame m rest s u t v hw hv⟩

end

/-- Every chain that returns runs its word. -/
theorem runChain_worded (fuel : Nat) : Chain.Worded (Frame.runChain fuel) := by
  induction fuel with
  | zero => exact fun frame h s t _ hrun => absurd hrun (Process.not_ends_exhausted _ _ _)
  | succ fuel ih =>
    intro frame h s t hframe hrun
    obtain ⟨next, u, hnode, hrest⟩ := Frame.returns_runChain fuel frame h s t hrun
    obtain ⟨path, p, v, hpath, hdependencies, hinvoke, rfl, rfl⟩ :=
      Frame.returns_runNode _ frame h next s u hnode
    obtain ⟨before, hbefore⟩ := word_path ih hframe path _ p rfl (fun m hm => by
      obtain ⟨x, hx, _, hsignature⟩ := hframe.onDemand h path hpath m hm
      exact ⟨x, hx, hsignature⟩) hdependencies
    obtain ⟨own, hown⟩ := word_visit ih hframe h _ v rfl hinvoke
    have hafter : ∃ after, Word (.rest frame v.next) { v with next := none } after t := by
      rcases hrest with ⟨hnone, rfl⟩ | ⟨k, hk, hrun'⟩
      · rw [hnone]
        exact ⟨[], .stop frame _⟩
      · obtain ⟨after, hw⟩ := ih frame k _ t hframe hrun'
        rw [hk]
        exact ⟨after, .follow frame k _ t after hw⟩
    obtain ⟨after, hafter⟩ := hafter
    exact ⟨_, .chain frame h path s p v t before own after hpath hbefore hown hafter⟩

/-! ## Section 3: Dispatches -/

namespace Dispatch

/-- The state in which the chain of the entry starts. -/
def opening (g : Graph) (r : DispatchRequest) (entry : NodeHandle) (s : Store) : DispatchState where
  store := s.freshDispatch.2.emit
    (.dispatchStarted g.name s.freshDispatch.1 (((g.node? entry).map (·.guid)).getD ""))
  returned := r.effectivePayload.returned

/-- A dispatch that completes ran the chain of its entry, and its outcome is read off the state
    at the end of it. -/
theorem ends_start_outcome (fuel : Nat) (engine : Engine) (g : Graph) (r : DispatchRequest)
    (s : Store) (outcome : DispatchOutcome) (t : DispatchState)
    (h : (start fuel engine g r s).Ends (.ok outcome) t) :
    ∃ entry u, r.entry.find? g.toNetwork = some entry ∧
      (Frame.runChain fuel (frameOf engine g r s) entry).Returns (opening g r entry s) () u ∧
      outcome = ⟨s.freshDispatch.1, ((g.node? entry).map (·.guid)).getD "", u.steps,
        u.trace.toList, u.returned⟩ := by
  unfold start at h
  split at h
  · cases ((Process.ends_done_iff _ _ _ _).mp h).1
  · split at h
    · cases ((Process.ends_done_iff _ _ _ _).mp h).1
    · rename_i entry hentry
      replace h := Exec.returns_modify_bind _ _ _ _ _ h
      obtain ⟨result, u, hchain, hconclude⟩ := Exec.returns_bind _ _ _ _ _ h
      replace hchain := Exec.returns_attempt _ _ _ u hchain
      cases result with
      | error e =>
        replace hconclude := Exec.returns_modify_bind _ _ _ _ _ hconclude
        replace hconclude := Exec.returns_modify_bind _ _ _ _ _ hconclude
        exact absurd hconclude (Exec.not_returns_fail _ _ _ _)
      | ok _ =>
        replace hconclude := Exec.returns_read_bind _ _ _ _ _ hconclude
        replace hconclude := Exec.returns_modify_bind _ _ _ _ _ hconclude
        obtain ⟨rfl, rfl⟩ := (Exec.returns_read_iff _ _ _ _).mp hconclude
        exact ⟨entry, u, hentry, hchain, rfl⟩

/-- A dispatch that completes ran the chain of its entry. -/
theorem ends_start (fuel : Nat) (engine : Engine) (g : Graph) (r : DispatchRequest) (s : Store)
    (outcome : DispatchOutcome) (t : DispatchState)
    (h : (start fuel engine g r s).Ends (.ok outcome) t) :
    ∃ entry u, r.entry.find? g.toNetwork = some entry ∧
      (Frame.runChain fuel (frameOf engine g r s) entry).Returns (opening g r entry s) () u ∧
      outcome.trace = u.trace.toList ∧ outcome.nodesExecuted = u.steps := by
  obtain ⟨entry, u, hentry, hrun, rfl⟩ := ends_start_outcome fuel engine g r s outcome t h
  exact ⟨entry, u, hentry, hrun, rfl, rfl⟩

/-- **Main theorem: the trace of a dispatch.**  A dispatch of a hosted graph with nodes of the
    library runs, if it completes, a word of the chain of its entry, and the trace lists the
    guids of the word.  In this word the dependency path of a forward node stands right
    before the node, each time that the node is visited; and the node is the entry, with
    nothing but its path before it, or an earlier node leads to it. -/
theorem trace_of_dispatch (fuel : Nat) (engine : Engine) (g : Graph) (r : DispatchRequest)
    (s : Store) (outcome : DispatchOutcome) (t : DispatchState)
    (hhosted : Graph.Hosted g) (hnodes : g.All Network.OfLibrary)
    (hlibrary : ∀ f ∈ engine.library, Graph.Hosted f.2 ∧ f.2.All Network.OfLibrary)
    (h : (start fuel engine g r s).Ends (.ok outcome) t) :
    let frame := frameOf engine g r s
    ∃ entry word u, r.entry.find? g.toNetwork = some entry ∧
      Word (.chain frame entry) (opening g r entry s) word u ∧
      outcome.trace = word.map Site.guid ∧ outcome.nodesExecuted = word.length ∧
      ∀ before v after, word = before ++ v :: after → v.IsForward → v.Preceded before ∧
        ((v = ⟨frame, entry⟩ ∧ v.RunsPath before) ∨ ∃ u ∈ before, u.LeadsTo v) := by
  intro frame
  have hframe : frame.All Network.Orderly := ⟨hhosted.orderly hnodes, fun f hf =>
    (hlibrary f hf).1.orderly (hlibrary f hf).2⟩
  obtain ⟨entry, u, hentry, hrun, htrace, hsteps⟩ := ends_start fuel engine g r s outcome t h
  obtain ⟨word, hword⟩ := runChain_worded fuel frame entry _ u hframe hrun
  obtain ⟨hlisted, hcounted⟩ := hword.listed
  refine ⟨entry, word, u, hentry, hword, ?_, ?_, ?_⟩
  · rw [htrace, hlisted]
    exact List.nil_append _
  · rw [hsteps, hcounted]
    exact Nat.zero_add _
  · intro before v after hsplit hv
    rcases hword.accounted hframe before after v hsplit hv with ⟨hentered, hpath⟩ | ⟨hpath, hleads⟩
    · exact ⟨⟨before, hpath, List.suffix_refl before⟩, .inl ⟨hentered, hpath⟩⟩
    · exact ⟨hpath, .inr hleads⟩

/-- A function that only has its entry. -/
def answering : GraphData where
  name := "answering"
  nodes := [
    { guid := "asked", type := "Ceres.Functions.FunctionInput",
      serializedData := "\x7b\"functionName\": \"answer\"\x7d" }]

/-- A sequence of a message and a call. -/
def greeting : GraphData where
  name := "greeting"
  nodes := [
    { guid := "go", type := "Ceres.Flow.ExecutionEvent",
      serializedData := "\x7b\"eventName\": \"go\"\x7d",
      ports := [{ name := "next", connections := [⟨"each", "input", 0⟩] }] },
    { guid := "each", type := "Ceres.Flow.Sequence",
      ports := [{ name := "then", connections := [⟨"say", "input", 0⟩] },
        { name := "then", index := 1, connections := [⟨"call", "input", 0⟩] }] },
    { guid := "text", type := "Ceres.Values.Literal", genericArguments := ["string"],
      serializedData := "\x7b\"value\": \"hello\"\x7d",
      ports := [{ name := "value", connections := [⟨"say", "message", 0⟩] }] },
    { guid := "say", type := "Ceres.Flow.Log" },
    { guid := "call", type := "Ceres.Functions.InvokeFunction",
      serializedData := "\x7b\"functionName\": \"answer\"\x7d" }]
  functions := [("answer", answering)]

/-- The graph as it is built. -/
def greetingState : Graph.State :=
  Graph.run [.compile .standard] (Graph.hydrated Registry.builtin greeting default)

/-- The first slot of the sequence runs the message, and before it the text; the second one
    calls the function. -/
theorem trace_of_dispatch_greeting :
    let g := greetingState.1
    let s := greetingState.2
    let r : DispatchRequest := { entry := .event "go" }
    ∃ outcome t, (start 10 {} g r s).Ends (.ok outcome) t ∧
      outcome.trace = ["go", "each", "text", "say", "call", "asked"] ∧
      ∃ entry word u, Word (.chain (frameOf {} g r s) entry) (opening g r entry s) word u ∧
        outcome.trace = word.map Site.guid := by
  intro g s r
  have hresult : ((start 10 {} g r s).result?.bind Except.toOption).map (·.trace)
      = some ["go", "each", "text", "say", "call", "asked"] := by decide +kernel
  obtain ⟨outcome, hbind, htrace⟩ := Option.map_eq_some_iff.mp hresult
  obtain ⟨result, hdone, hok⟩ := Option.bind_eq_some_iff.mp hbind
  cases result with
  | error e => cases hok
  | ok o =>
    cases hok
    obtain ⟨t, hends⟩ := (start 10 {} g r s).ends_of_result? _ hdone
    obtain ⟨hhosted, hnodes⟩ := Graph.built_ofLibrary greeting .standard default
    obtain ⟨entry, word, u, _, hword, hlisted, _⟩ := trace_of_dispatch 10 {} g r s outcome t
      hhosted hnodes (List.forall_mem_nil _) hends
    exact ⟨outcome, t, hends, htrace, entry, word, u, hword, hlisted⟩

end Dispatch
end FlowGraph
