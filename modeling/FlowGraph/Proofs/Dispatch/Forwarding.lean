import FlowGraph.Proofs.Dispatch.Continuing
import FlowGraph.Proofs.Dispatch.Framing
import FlowGraph.Proofs.Dispatch.Registers

/-! # Sub-executions

    A sub-execution is run in the middle of executing a node.  Whether it succeeds or fails, at
    any nesting, the context of that node is afterwards as it was: the main theorem,
    `Site.forward_restores`, puts together what Registers, Continuing and Framing say about
    it. -/

namespace FlowGraph

namespace Site

/-- A sub-execution gives the context of the executing node back.

    With registers for the graph, the trigger, the call, the depth and the current node, which
    chains change and put back, it does the same, and the registers hold afterwards what they
    held before.  The pending successor is as before however it ends.  Between its waits it
    changes only what chains may change, and over all of them the trace and the count of steps
    only grow.  A node that selects a successor, before or after its sub-executions, therefore
    continues with the one it selected last. -/
theorem forward_restores (fuel : Nat) (site : Site) (htyped : site.frame.Typed)
    (start : NodeHandle) (s : DispatchState) :
    let engine := site.frame.engine
    let dispatchId := site.frame.dispatchId
    let inside := site.forward (Frame.runChain fuel) start
    (∀ answers, ((Held.forward engine (Held.runChain engine dispatchId fuel) start)
        site.registers s).resumed answers
          = ((inside s).resumed answers).holding site.registers) ∧
    (∀ result t, (inside s).Ends result t → t.next = s.next) ∧
    (inside s).Framed site.inner [] s ∧
    (∀ answers, ∃ sites, Advance site.inner sites s ((inside s).resumed answers).state) ∧
    (∀ (frame : Frame) (h : NodeHandle) (u t : DispatchState),
      (Frame.runChain (fuel + 1) frame h).Returns u () t →
      ∃ x v w, frame.graph.node? h = some x ∧
        ((Site.mk frame h).execute (Frame.runChain fuel) x.behavior).Returns v () w ∧
        match (Site.mk frame h).selectedLast v.store x.behavior with
        | none => t = { frame.ended x w with next := none }
        | some k =>
          (Frame.runChain fuel frame k).Returns { frame.ended x w with next := none } () t) := by
  intro engine dispatchId inside
  have hnodes : site.frame.All Network.OfLibrary :=
    ⟨htyped.graph.mono fun _ hn => hn.1.ofLibrary,
      fun f hf => (htyped.library f hf).mono fun _ hn => hn.1.ofLibrary⟩
  have hinner : site.inner.Typed := Frame.All.inner htyped
  have hframed : (inside s).Framed site.inner [] s := by
    -- all frames of the chain are those of the sub-execution
    have hchain := Frame.runChain_framed hinner fuel site.inner start .self
    show Process.Framed site.inner (site.forward (Frame.runChain fuel) start s) [] s
    unfold forward
    split
    · exact ⟨[], .refl s⟩
    · exact framed_enclosed _ restoreNext (fun _ _ => ⟨rfl, rfl, rfl⟩) hchain [] s
        (List.nil_subset _)
  refine ⟨fun answers => ?_, ?_, hframed, hframed.resumed, ?_⟩
  · have hchains : Held.ChainAgrees engine dispatchId (Held.runChain engine dispatchId fuel)
        (Frame.runChain fuel) := Held.runChain_agrees fuel
    have hagrees := Held.forward_agrees hchains (c := site.registers) (h := site.node) hnodes
      start
    rw [← Process.holding_resumed]
    exact congrArg (Process.resumed · answers) (hagrees s)
  · exact site.keepsNext_forward (Frame.runChain fuel) start s
  · exact fun frame h u t hrun => frame.returns_runChain_selectedLast fuel h u t hrun

/-- The sequence of the greeting while it is executing, with a limit on nesting. -/
def greetingSite (limit : Nat) : Site where
  frame := Dispatch.frameOf { config := { maxForwardDepth := limit } } Dispatch.greetingState.1
    { entry := .event "go" } Dispatch.greetingState.2
  node := ⟨1, 0⟩

/-- The state when the sequence runs its second slot; the message is selected. -/
def greetingPending : DispatchState where
  store := Dispatch.greetingState.2
  steps := 2
  trace := #["go", "each"]
  next := some ⟨3, 0⟩

theorem frameOf_typed (engine : Engine) (g : Graph) (r : DispatchRequest) (s : Store)
    (hg : g.All fun n => n.Typed ∧ n.Slotted)
    (hlibrary : ∀ f ∈ engine.library, f.2.All fun n => n.Typed ∧ n.Slotted) :
    (Dispatch.frameOf engine g r s).Typed := ⟨hg, hlibrary⟩

theorem greetingSite_typed (limit : Nat) : (greetingSite limit).frame.Typed := by
  have hbuilt := Graph.built_typed Dispatch.greeting .standard default
  have hgraph : Dispatch.greetingState.1.All fun n => n.Typed ∧ n.Slotted :=
    hbuilt.2.and hbuilt.1.slotted
  unfold greetingSite
  exact frameOf_typed _ _ _ _ hgraph (List.forall_mem_nil _)

/-- The sequence runs a call: with two levels it succeeds and with one it fails, and the message
    is selected still. -/
theorem forward_restores_greeting :
    (∀ limit, (greetingSite limit).frame.Typed) ∧
    (∃ t, ((greetingSite 2).forward (Frame.runChain 10) ⟨4, 0⟩ greetingPending).Ends (.ok ()) t ∧
      t.trace = #["go", "each", "call", "asked"] ∧ t.next = some ⟨3, 0⟩) ∧
    ∃ t, ((greetingSite 1).forward (Frame.runChain 10) ⟨4, 0⟩ greetingPending).Ends
        (.error (.forwardDepthExceeded 1)) t ∧
      t.trace = #["go", "each", "call"] ∧ t.next = some ⟨3, 0⟩ := by
  have hkept : ∀ limit result t,
      ((greetingSite limit).forward (Frame.runChain 10) ⟨4, 0⟩ greetingPending).Ends result t →
        t.next = some ⟨3, 0⟩ := fun limit result t h =>
    ((greetingSite limit).forward_restores 10 (greetingSite_typed limit) ⟨4, 0⟩
      greetingPending).2.1 result t h
  refine ⟨greetingSite_typed, ?_, ?_⟩
  · have hresult : ((greetingSite 2).forward (Frame.runChain 10) ⟨4, 0⟩ greetingPending).result?
        = some (.ok ()) := by decide +kernel
    have htrace : ((greetingSite 2).forward (Frame.runChain 10) ⟨4, 0⟩ greetingPending).state.trace
        = #["go", "each", "call", "asked"] := by decide +kernel
    obtain ⟨t, hdone⟩ := Process.eq_done_of_result? _ _ hresult
    rw [hdone] at htrace
    have hends : ((greetingSite 2).forward (Frame.runChain 10) ⟨4, 0⟩ greetingPending).Ends
        (.ok ()) t := by
      rw [hdone]
      exact (Process.ends_done_iff _ _ _ _).mpr ⟨rfl, rfl⟩
    exact ⟨t, hends, htrace, hkept 2 _ t hends⟩
  · have hresult : ((greetingSite 1).forward (Frame.runChain 10) ⟨4, 0⟩ greetingPending).result?
        = some (.error (.forwardDepthExceeded 1)) := by decide +kernel
    have htrace : ((greetingSite 1).forward (Frame.runChain 10) ⟨4, 0⟩ greetingPending).state.trace
        = #["go", "each", "call"] := by decide +kernel
    obtain ⟨t, hdone⟩ := Process.eq_done_of_result? _ _ hresult
    rw [hdone] at htrace
    have hends : ((greetingSite 1).forward (Frame.runChain 10) ⟨4, 0⟩ greetingPending).Ends
        (.error (.forwardDepthExceeded 1)) t := by
      rw [hdone]
      exact (Process.ends_done_iff _ _ _ _).mpr ⟨rfl, rfl⟩
    exact ⟨t, hends, htrace, hkept 1 _ t hends⟩

end Site
end FlowGraph
