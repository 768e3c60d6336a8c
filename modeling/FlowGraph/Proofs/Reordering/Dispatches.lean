import FlowGraph.Proofs.Reordering.Paths

/-! # Dispatches under other names

    A chain runs a node after the other, each behind its path, so by induction on the fuel
    alike graphs run alike chains (`runChain_alike`), and a request does the same in both
    (`Dispatch.start_alike`): the same error, or outcomes that differ in traces only, and
    there only in nodes that are left aside. -/

namespace FlowGraph

variable {ren : Renaming}

/-! ## Section 1: Nodes of a chain -/

namespace Frame

/-- The path of a node is run before the node. -/
theorem runNode_eq (frame : Frame) (chain : Chain) (h : NodeHandle) :
    frame.runNode chain h = (do
      clearNext
      frame.runPath chain h
      clearNext
      frame.invoke chain h
      let next ← Exec.read (·.next)
      clearNext
      return next) := by
  funext s
  unfold runNode runPath
  cases frame.graph.dependencyPath h with
  | ok path => rfl
  | error e => rfl

namespace Alike

variable {frame frame' : Frame} (hframe : frame.Alike ren frame')

include hframe

theorem announce (event event' : GraphEvent) :
    Exec.Alike ren (frame.nodeIn ren) Eq (frame.announce event) (frame'.announce event') := by
  unfold Frame.announce
  rw [hframe.engine]
  split
  · exact .update _ _ fun _ _ hst => hst.reported _ _ _ _
  · exact .pure () () rfl

/-- There is no limit to exceed. -/
theorem count : Exec.Alike ren (frame.nodeIn ren) Eq frame.count frame'.count := by
  unfold Frame.count
  rw [hframe.engine, hframe.unlimited]
  exact (Exec.Alike.modify _ _ fun _ _ hst => hst.withSteps 1).bindEq fun _ => .pure () () rfl

theorem conclude (guid : String) (r r' : Except GraphError Unit) (hr : SameResult Eq r r') :
    Exec.Alike ren (frame.nodeIn ren) Eq (frame.conclude guid r) (frame'.conclude guid r') := by
  cases hr with
  | ok _ _ _ => exact hframe.announce _ _
  | error e =>
    refine (Exec.Alike.update _ _ fun _ _ hst => hst.reported _ _ _ _).bindEq fun _ => ?_
    exact (Exec.Alike.update _ _ fun _ _ hst => hst.reported _ _ _ _).bindEq fun _ => .fail e

variable {chain chain' : Chain} (hchain : chain.Alike ren chain')

include hchain

theorem invoke {h k : NodeHandle} (hhk : frame.nodeIn ren h k) :
    Exec.Alike ren (frame.nodeIn ren) Eq (frame.invoke chain h) (frame'.invoke chain' k) := by
  unfold Frame.invoke
  cases hframe.graph.node h k hhk with
  | found x y hx hy hxy =>
    have hsite : (Site.mk frame h).Alike ren ⟨frame', k⟩ := ⟨hframe, hhk⟩
    rw [hx, hy]
    dsimp only
    rw [hxy.guid, hxy.behavior]
    refine hframe.count.bindEq fun _ => ?_
    refine (Exec.Alike.modify _ _ fun _ _ hst => hst.withTrace x.guid).bindEq fun _ => ?_
    refine (hframe.announce _ _).bindEq fun _ => ?_
    exact (hsite.execute hchain x.behavior).attempt.bind fun r r' hr => hframe.conclude x.guid r r' hr
  | missing hsame hn hm =>
    rw [hn, hm, hsame]
    exact .fail _

/-- The path of a node that keeps its handle is the same list. -/
theorem runPath {h k : NodeHandle} (hhk : frame.nodeIn ren h k) :
    Exec.Alike ren (frame.nodeIn ren) Eq (frame.runPath chain h) (frame'.runPath chain' k) := by
  by_cases hid : frame.graph.id = ren.graph
  · exact hframe.path hid chain chain' hhk
  · have hnode : frame.nodeIn ren = Eq := Renaming.nodeIn_other hid
    have hsame : k = h := (congrFun (congrFun hnode h) k ▸ hhk : h = k).symm
    unfold Frame.runPath
    rw [hframe.graph.same hid, hsame]
    cases frame.graph.dependencyPath h with
    | error e => exact .fail e
    | ok path =>
      refine Exec.Alike.forEach (S := Eq) _ _ (List.forall₂_refl path) ?_
      rintro m _ rfl
      exact hframe.invoke hchain (congrFun (congrFun hnode m) m ▸ rfl)

/-- The nodes select related successors. -/
theorem runNode {h k : NodeHandle} (hhk : frame.nodeIn ren h k) :
    Exec.Alike ren (frame.nodeIn ren) (Option.Rel (frame.nodeIn ren)) (frame.runNode chain h)
      (frame'.runNode chain' k) := by
  have hclear : Exec.Alike ren (frame.nodeIn ren) Eq clearNext clearNext :=
    .modify _ _ fun _ _ hst => hst.withNext .none
  rw [runNode_eq, runNode_eq]
  refine hclear.bindEq fun _ => ?_
  refine (hframe.runPath hchain hhk).bindEq fun _ => ?_
  refine hclear.bindEq fun _ => ?_
  refine (hframe.invoke hchain hhk).bindEq fun _ => ?_
  refine (Exec.Alike.read _ _ fun _ _ hst => hst.next).bind fun a b hab => ?_
  exact hclear.bindEq fun _ => .pure a b hab

end Alike

/-- Chains do the same whatever the names are. -/
theorem runChain_alike (fuel : Nat) : Chain.Alike ren (runChain fuel) (runChain fuel) := by
  induction fuel with
  | zero => exact fun _ _ _ _ _ _ s t hst => .exhausted s t hst.toAlike
  | succ fuel ih =>
    intro frame frame' h k hframe hhk
    unfold runChain
    refine (hframe.runNode ih hhk).bind fun a b hab => ?_
    cases hab with
    | none => exact .pure () () rfl
    | some hnext => exact ih frame frame' _ _ hframe hnext

end Frame

/-! ## Section 2: Requests -/

/-- Two outcomes differ in their traces only, and there in nodes that are left aside. -/
structure DispatchOutcome.Alike (ren : Renaming) (o o' : DispatchOutcome) : Prop where
  dispatchId : o'.dispatchId = o.dispatchId
  entry : o'.entry = o.entry
  nodesExecuted : o'.nodesExecuted = o.nodesExecuted
  trace : ∀ keep : String → Bool, (∀ guid, ren.aside guid → keep guid = false) →
    o'.trace.filter keep = o.trace.filter keep
  returned : o'.returned = o.returned

namespace Dispatch

/-- A dispatch ends with the same error, or with an outcome that is alike. -/
theorem conclude_alike {N : NodeHandle → NodeHandle → Prop} (graph dispatchId entry : String)
    (r r' : Except GraphError Unit) (hr : SameResult Eq r r') :
    Exec.Alike ren N (DispatchOutcome.Alike ren) (conclude graph dispatchId entry r)
      (conclude graph dispatchId entry r') := by
  cases hr with
  | ok _ _ _ =>
    refine (Exec.Alike.read _ _ (Q := Eq) fun _ _ hst => hst.steps.symm).bindEq fun steps => ?_
    refine (Exec.Alike.update _ _ fun _ _ hst => hst.reported _ _ _ _).bindEq fun _ => ?_
    exact .read _ _ fun s t hst => ⟨rfl, rfl, rfl, hst.trace, hst.returned⟩
  | error e =>
    refine (Exec.Alike.update _ _ fun _ _ hst => hst.reported _ _ _ _).bindEq fun _ => ?_
    exact (Exec.Alike.update _ _ fun _ _ hst => hst.reported _ _ _ _).bindEq fun _ => .fail e

theorem run_alike (fuel : Nat) {frame frame' : Frame} (hframe : frame.Alike ren frame')
    {h k : NodeHandle} (hhk : frame.nodeIn ren h k) :
    Exec.Alike ren (frame.nodeIn ren) (DispatchOutcome.Alike ren) (run fuel frame h)
      (run fuel frame' k) := by
  have hguid : (frame'.graph.node? k).map (·.guid) = (frame.graph.node? h).map (·.guid) := by
    cases hframe.graph.node h k hhk with
    | found x y hx hy hxy => rw [hx, hy, Option.map_some, Option.map_some, hxy.guid]
    | missing _ hn hm => rw [hn, hm]
  unfold run
  rw [hguid, hframe.graph.name, hframe.dispatchId]
  refine (Exec.Alike.update _ _ fun _ _ hst => hst.reported _ _ _ _).bindEq fun _ => ?_
  refine (Frame.runChain_alike fuel frame frame' h k hframe hhk).attempt.bind fun r r' hr => ?_
  exact conclude_alike _ _ _ r r' hr

/-- A request does the same in alike graphs. -/
theorem start_alike (fuel : Nat) (engine : Engine)
    (hlibrary : ∀ f ∈ engine.library, f.2.All (Network.Fixed ren))
    (hunlimited : engine.config.maxChainSteps = none) {g k : Graph} (hg : g.Alike ren k)
    (r : DispatchRequest) {s t : Store} (hst : s.Alike ren t) :
    Process.Alike ren (ren.nodeIn g.id) (DispatchOutcome.Alike ren) (start fuel engine g r s)
      (start fuel engine k r t) := by
  have hrunnable : k.isRunnable t = g.isRunnable s := by
    unfold Graph.isRunnable
    rw [hg.compiled, hg.id, hst.disposed]
  have hentry : Option.Rel (ren.nodeIn g.id) (r.entry.find? g.toNetwork)
      (r.entry.find? k.toNetwork) := by
    cases r.entry with
    | event name => exact hg.entry name
    | node guid => exact hg.handle guid
  have hstart : ∀ returned, DispatchState.AlikeWith ren (ren.nodeIn g.id)
      { store := s, returned } { store := t, returned } :=
    fun _ => ⟨⟨hst, rfl, fun _ _ => rfl, rfl⟩, .none⟩
  unfold start
  rw [hrunnable]
  split
  · rw [hg.name]
    exact .done _ _ _ _ (.error _) (hstart none)
  · generalize r.entry.find? g.toNetwork = a, r.entry.find? k.toNetwork = b at hentry
    cases hentry with
    | none => exact .done _ _ _ _ (.error _) (hstart none)
    | some hab =>
      obtain ⟨hid, hfresh⟩ := hst.freshDispatch
      have hframe : (Frame.mk engine s.freshDispatch.1 g r.trigger
          r.effectivePayload.toEventCall 0).Alike ren
          ⟨engine, s.freshDispatch.1, k, r.trigger, r.effectivePayload.toEventCall, 0⟩ :=
        ⟨hg, rfl, rfl, rfl, rfl, rfl, hlibrary, hunlimited⟩
      dsimp only
      rw [hid]
      exact run_alike fuel hframe hab _ _ ⟨⟨hfresh, rfl, fun _ _ => rfl, rfl⟩, .none⟩

end Dispatch
end FlowGraph
