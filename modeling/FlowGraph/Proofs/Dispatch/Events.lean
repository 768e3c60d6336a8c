import FlowGraph.Proofs.Dispatch.Nesting
import FlowGraph.Proofs.Dispatch.Quiet
import FlowGraph.Proofs.Dispatch.Trace

/-! # The events of a dispatch

    Between the start and the end of a dispatch nodes are opened and closed like brackets
    (`EventStream`).  If the dispatch completes, the nodes that started are its trace, each is
    counted, and none failed.  If it fails, nothing starts or is completed after the first
    error; the nodes that are open then fail with it, from the innermost outwards.

    Main statement: `events_of_dispatch`, for all ways in which the waits of the dispatch are
    answered, with and without announcements of nodes. -/

namespace FlowGraph
namespace Dispatch

open GraphEvent

/-! ## Section 1: Streams of events -/

/-- The events of a dispatch, given how it ended. -/
inductive EventStream (graph id entry : String) :
    Except GraphError DispatchOutcome → List GraphEvent → Prop where
  /-- All nodes are closed, and those that started are the trace. -/
  | completed (outcome : DispatchOutcome) (body : List GraphEvent)
      (hid : outcome.dispatchId = id) (hnested : nesting id [] body = some [])
      (hsound : ∀ e ∈ body, e.isFailure = false) (hlisted : startedNodes body = outcome.trace)
      (hcounted : outcome.nodesExecuted = outcome.trace.length) :
      EventStream graph id entry (.ok outcome) (.dispatchStarted graph id entry ::
        (body ++ [.dispatchCompleted graph id outcome.nodesExecuted]))
  /-- The nodes that are open at the first error fail with it, and that closes all nodes. -/
  | failed (e : GraphError) (before : List GraphEvent) (opened : List String)
      (hnested : nesting id [] before = some opened)
      (hsound : ∀ v ∈ before, v.isFailure = false)
      (hclosed : nesting id [] (before ++ failures id opened e) = some []) :
      EventStream graph id entry (.error e) (.dispatchStarted graph id entry ::
        (before ++ failures id opened e ++ [.dispatchFailed graph id e.message]))

/-- The end of a dispatch is reported whichever way its chain ended. -/
theorem conclude_reports (graph id entry : String) (s t : DispatchState)
    (result : Except GraphError Unit) (es : List GraphEvent) (hsteps : s.steps = 0)
    (htrace : s.trace = #[]) (htold : Told id [] s result t es) :
    (conclude graph id entry result t).Reports t.store.events.toList fun r _ more =>
      EventStream graph id entry r (.dispatchStarted graph id entry :: (es ++ more)) := by
  cases result with
  | ok _ =>
    have hlisted : t.trace.toList = startedNodes es := by
      rw [htold.listed, htrace]
      rfl
    have hcounted : t.steps = (startedNodes es).length := by
      rw [htold.counted, hsteps, Nat.zero_add]
    refine ⟨[.dispatchCompleted graph id t.steps], Array.toList_push, ?_⟩
    refine .completed ⟨id, entry, t.steps, t.trace.toList, t.returned⟩ es rfl ?_ htold.sound ?_ ?_
    · exact htold.nested []
    · exact hlisted.symm
    · show t.steps = t.trace.toList.length
      rw [hlisted, hcounted]
  | error e =>
    obtain ⟨before, opened, rfl, hsound, hnested⟩ := htold
    have hopen : nesting id [] before = some opened := by
      rw [← List.append_nil opened]
      exact hnested []
    refine ⟨[.dispatchFailed graph id e.message], Array.toList_push, ?_⟩
    refine .failed e before opened hopen hsound ?_
    rw [nesting_append, hopen]
    have hfailures : nesting id (opened ++ []) (failures id opened e) = some [] :=
      nesting_failures opened [] e
    rw [List.append_nil] at hfailures
    exact hfailures

/-! ## Section 2: Dispatches -/

/-- The guid of an entry in events. -/
def entryGuid (g : Graph) (entry : NodeHandle) : String :=
  ((g.node? entry).map (·.guid)).getD ""

theorem start_reports (fuel : Nat) (engine : Engine) (g : Graph) (r : DispatchRequest) (s : Store)
    (entry : NodeHandle) (hnodes : g.All Network.OfLibrary)
    (hlibrary : ∀ f ∈ engine.library, f.2.All Network.OfLibrary)
    (hannounced : engine.config.emitNodeEvents = true) (hrunnable : g.isRunnable s = true)
    (hentry : r.entry.find? g.toNetwork = some entry) :
    (start fuel engine g r s).Reports s.events.toList fun result _ es =>
      EventStream g.name s.freshDispatch.1 (entryGuid g entry) result es := by
  unfold start
  rw [hrunnable, hentry]
  let opened := opening g r entry s
  have hchain := Frame.runChain_tells fuel (frameOf engine g r s) entry hannounced
    ⟨hnodes, hlibrary⟩ opened
  have hopened : opened.store.events.toList = s.events.toList
      ++ [.dispatchStarted g.name s.freshDispatch.1 (entryGuid g entry)] := Array.toList_push
  rw [hopened] at hchain
  exact Process.Reports.extend (hchain.after fun result t es htold =>
    conclude_reports g.name s.freshDispatch.1 (entryGuid g entry) opened t result es rfl rfl htold)

/-- **Main theorem: the events of a dispatch.**  Whichever way the waits of the dispatch are
    answered, if it ends then its events are as stated; and without announcements it ends in
    the same way for the same answers, with the same events apart from the announcements. -/
theorem events_of_dispatch (fuel : Nat) (engine : Engine) (g : Graph) (r : DispatchRequest)
    (s : Store) (entry : NodeHandle) (hnodes : g.All Network.OfLibrary)
    (hlibrary : ∀ f ∈ engine.library, f.2.All Network.OfLibrary)
    (hannounced : engine.config.emitNodeEvents = true) (hrunnable : g.isRunnable s = true)
    (hentry : r.entry.find? g.toNetwork = some entry) :
    let p := start fuel engine g r s
    let q := start fuel engine.quiet g r s
    (∀ answers result t, p.resumed answers = .done result t →
      EventStream g.name s.freshDispatch.1 (entryGuid g entry) result
        (p.reported s.events.size answers)) ∧
    ∀ answers answers', Process.SameAnswers answers answers' →
      (q.resumed answers').result? = (p.resumed answers).result? ∧
        q.reported s.events.size answers' = (p.reported s.events.size answers).filter audible := by
  intro p q
  have hreports := start_reports fuel engine g r s entry hnodes hlibrary hannounced hrunnable hentry
  have hmirrors := start_mirrors fuel engine g r s hnodes hlibrary
  refine ⟨fun answers result t hdone => ?_, fun answers answers' hsame => ?_⟩
  · rw [← Array.length_toList]
    exact hreports.reported answers result t hdone
  · have hresumed := hmirrors.resumed answers answers' hsame
    rw [Array.length_toList] at hresumed
    exact hresumed

/-- With and without announcements, the message of the greeting is reported inside of its
    dispatch. -/
theorem events_of_dispatch_greeting :
    let g := greetingState.1
    let s := greetingState.2
    let r : DispatchRequest := { entry := .event "go" }
    ∃ entry outcome,
      EventStream g.name s.freshDispatch.1 (entryGuid g entry) (.ok outcome)
        ((start 10 {} g r s).reported s.events.size []) ∧
      (start 10 (Engine.quiet {}) g r s).reported s.events.size [] =
        [.dispatchStarted "greeting" "dispatch-1" "go", .nodeMessage "dispatch-1" "say" "hello",
          .dispatchCompleted "greeting" "dispatch-1" 6] := by
  intro g s r
  have hrunnable : g.isRunnable s = true := by decide +kernel
  have hfound : (r.entry.find? g.toNetwork).isSome = true := by decide +kernel
  have hcompleted : ((start 10 {} g r s).result?.bind Except.toOption).isSome = true := by
    decide +kernel
  have hkept : ((start 10 {} g r s).reported s.events.size []).filter audible =
      [.dispatchStarted "greeting" "dispatch-1" "go", .nodeMessage "dispatch-1" "say" "hello",
        .dispatchCompleted "greeting" "dispatch-1" 6] := by decide +kernel
  obtain ⟨entry, hentry⟩ := Option.isSome_iff_exists.mp hfound
  obtain ⟨outcome, hoption⟩ := Option.isSome_iff_exists.mp hcompleted
  obtain ⟨result, hresult, hok⟩ := Option.bind_eq_some_iff.mp hoption
  obtain ⟨_, hnodes⟩ := Graph.built_ofLibrary greeting .standard default
  obtain ⟨hstream, hquiet⟩ := events_of_dispatch 10 {} g r s entry hnodes
    (List.forall_mem_nil _) rfl hrunnable hentry
  cases result with
  | error e => cases hok
  | ok done =>
    cases hok
    obtain ⟨t, hdone⟩ := (start 10 {} g r s).eq_done_of_result? _ hresult
    have hended : (start 10 {} g r s).resumed [] = .done (.ok outcome) t := by
      rw [hdone]
      rfl
    refine ⟨entry, outcome, hstream [] _ t hended, ?_⟩
    rw [(hquiet [] [] .nil).2]
    exact hkept

end Dispatch
end FlowGraph
