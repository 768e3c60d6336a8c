import FlowGraph.Proofs.Dispatch.Cutting
import FlowGraph.Proofs.Dispatch.Room
import FlowGraph.Proofs.Dispatch.Trace

/-! # Dispatches end

    With a limit on steps every dispatch ends: for all graphs, also with chains that lead back
    to themselves and functions that call themselves, and at any limit on nesting, if only each
    wait is answered (`Dispatch.ends_within`).

    Two counts meet.  A dispatch never starts more nodes than the limit (`Process.Bounded`),
    and one that is cut off has started as many nodes as it had fuel (`Process.Grows`).  So with
    more fuel than the limit no dispatch is cut off, and then fuel is only a way to write the
    recursion down: all such dispatches are the same process. -/

namespace FlowGraph

variable {α β : Type}

/-! ## Section 1: Bounded processes -/

namespace Process

/-- Where the process returns, waits or is cut off, the nodes that started are counted and are
    `limit` at most; also where it fails there are no more. -/
def Bounded (limit : Nat) : Process α → Prop
  | .done (.ok _) s => s.Within limit
  | .done (.error _) s => s.trace.size ≤ limit
  | .waiting _ s resume => s.Within limit ∧ ∀ result store, (resume result store).Bounded limit
  | .exhausted s => s.Within limit

variable {limit : Nat}

theorem Bounded.size_le {p : Process α} (h : p.Bounded limit) :
    p.state.trace.size ≤ limit := by
  cases p with
  | done result s =>
    cases result with
    | ok a => exact DispatchState.Within.le h
    | error e => exact h
  | waiting key s resume => exact h.1.le
  | exhausted s => exact DispatchState.Within.le h

theorem Bounded.bind {p : Process α} {f : α → DispatchState → Process β} (h : p.Bounded limit)
    (hf : ∀ a s, s.Within limit → (f a s).Bounded limit) : (p.bind f).Bounded limit := by
  induction p with
  | done result s =>
    cases result with
    | ok a => exact hf a s h
    | error e => exact h
  | waiting key s resume ih => exact ⟨h.1, fun result store => ih result store (h.2 result store)⟩
  | exhausted s => exact h

/-- Steps that follow whichever way the first ones end. -/
theorem Bounded.after {p : Process α} {f : Except GraphError α → DispatchState → Process β}
    (h : p.Bounded limit) (hf : ∀ a s, s.Within limit → (f (.ok a) s).Bounded limit)
    (hfail : ∀ e s, s.trace.size ≤ limit → (f (.error e) s).Bounded limit) :
    (p.attempt.bind f).Bounded limit := by
  induction p with
  | done result s =>
    cases result with
    | ok a => exact hf a s h
    | error e => exact hfail e s h
  | waiting key s resume ih => exact ⟨h.1, fun result store => ih result store (h.2 result store)⟩
  | exhausted s => exact h

theorem Bounded.resumed {p : Process α} (h : p.Bounded limit) (answers : List Answer) :
    (p.resumed answers).Bounded limit := by
  induction p generalizing answers with
  | done result s => exact h
  | waiting key s resume ih =>
    cases answers with
    | nil => exact h
    | cons answer rest => exact ih answer.1 answer.2 (h.2 answer.1 answer.2) rest
  | exhausted s => exact h

/-- If each wait is answered there is a last one. -/
theorem exists_last_wait (p : Process α) (answers : Nat → Answer) :
    ∃ n, ∀ key s resume, p.resumed ((List.range n).map answers) ≠ .waiting key s resume := by
  induction p generalizing answers with
  | done result s =>
    refine ⟨0, ?_⟩
    intro key t resume h
    cases h
  | waiting key s resume ih =>
    obtain ⟨n, hn⟩ := ih (answers 0).1 (answers 0).2 fun i => answers (i + 1)
    refine ⟨n + 1, ?_⟩
    have hrange : (List.range (n + 1)).map answers
        = answers 0 :: (List.range n).map fun i => answers (i + 1) := by
      simp [List.range_succ_eq_map, Function.comp_def]
    rw [hrange]
    exact hn
  | exhausted s =>
    refine ⟨0, ?_⟩
    intro key t resume h
    cases h

end Process

/-! ## Section 2: Bounded steps -/

namespace Exec

/-- From a state within the limit the computation stays within it. -/
def Bounded (limit : Nat) (x : Exec α) : Prop := ∀ s, s.Within limit → (x s).Bounded limit

variable {limit : Nat}

theorem Bounded.pure (a : α) : Bounded limit (Pure.pure a) := fun _ hs => hs

theorem Bounded.fail (e : GraphError) : Bounded limit (Exec.fail e : Exec α) := fun _ hs => hs.le

theorem Bounded.read (f : DispatchState → α) : Bounded limit (Exec.read f) := fun _ hs => hs

theorem Bounded.modify {f : DispatchState → DispatchState}
    (hf : ∀ s, (f s).steps = s.steps ∧ (f s).trace = s.trace) :
    Bounded limit (Exec.modify f) := by
  intro s hs
  show (f s).Within limit
  constructor
  · rw [(hf s).1, (hf s).2]
    exact hs.counted
  · rw [(hf s).2]
    exact hs.le

theorem Bounded.silent {f : DispatchState → DispatchState} (hf : Silent f) :
    Bounded limit (Exec.modify f) :=
  .modify fun s => ⟨congrArg Ledger.steps (hf.ledger s), congrArg Ledger.trace (hf.ledger s)⟩

theorem Bounded.bind {x : Exec α} {f : α → Exec β} (hx : Bounded limit x)
    (hf : ∀ a, Bounded limit (f a)) : Bounded limit (x >>= f) :=
  fun s hs => Process.Bounded.bind (hx s hs) fun a t ht => hf a t ht

theorem Bounded.after {x : Exec α} {f : Except GraphError α → Exec β} (hx : Bounded limit x)
    (hf : ∀ a, Bounded limit (f (.ok a)))
    (hfail : ∀ e s, ∃ t, t.trace = s.trace ∧ f (.error e) s = .done (.error e) t) :
    Bounded limit (x.attempt >>= f) := by
  intro s hs
  apply Process.Bounded.after (hx s hs)
  · exact fun a t ht => hf a t ht
  · intro e t ht
    obtain ⟨u, htrace, hu⟩ := hfail e t
    rw [hu]
    show u.trace.size ≤ limit
    rw [htrace]
    exact ht

theorem Bounded.ofResult (result : Except GraphError α) :
    Bounded limit (Exec.ofResult result) := by
  cases result with
  | ok a => exact .pure a
  | error e => exact .fail e

theorem Bounded.forEach (xs : List β) {f : β → Exec Unit} (hf : ∀ x, Bounded limit (f x)) :
    Bounded limit (Exec.forEach xs f) := by
  induction xs with
  | nil => exact .pure ()
  | cons x rest ih => exact .bind (hf x) fun _ => ih

theorem Bounded.await (key : WaitKey) : Bounded limit (Exec.await key) := by
  intro s hs
  unfold Exec.await
  dsimp only
  -- a wait touches the store alone, whether it is over at once or not
  have hwithin : ∀ store : Store, ({ s with store } : DispatchState).Within limit :=
    fun _ => ⟨hs.counted, hs.le⟩
  have hdone : ∀ (result : Except GraphError Unit) (store : Store),
      (Process.done result { s with store }).Bounded limit := by
    intro result store
    cases result with
    | ok _ => exact hwithin store
    | error e => exact hs.le
  cases (s.store.scheduler.start key).1 with
  | some result => exact hdone result _
  | none => exact ⟨hwithin _, fun result store => hdone result _⟩

end Exec

/-! ## Section 3: Nodes and chains -/

/-- The steps of a node stay within the limit if the chains that it runs do. -/
theorem Site.Routine.bounded {site : Site} {chain chain' : Chain} {limit : Nat} {x y : Exec α}
    (h : Routine site chain chain' x y)
    (hchain : ∀ frame start, site.Reaches frame → (chain frame start).Bounded limit) :
    x.Bounded limit := by
  induction h with
  | pure a => exact .pure a
  | fail e _ => exact .fail e
  | read f _ => exact .read f
  | modify f hf => exact .silent hf
  | message text => exact .modify fun _ => ⟨rfl, rfl⟩
  | await key => exact .await key
  | look f _ k k' _ ih => exact fun s hs => ih s s hs
  | bind x y k k' _ _ ihx ihk => exact .bind ihx ihk
  | enclosed part restore _ hrestore _ x y _ ih =>
    apply Exec.Bounded.bind (.read part)
    intro kept
    apply ih.after
    · intro a
      exact .bind (.silent (hrestore kept)) fun _ => .ofResult (.ok a)
    · intro e s
      exact ⟨restore kept s, congrArg Ledger.trace ((hrestore kept).ledger s), rfl⟩
  | chain frame start hreach => exact hchain frame start hreach

namespace Frame

variable {limit : Nat}

theorem announce_bounded (frame : Frame) (event : GraphEvent) :
    (frame.announce event).Bounded limit := by
  unfold announce
  split
  · exact .modify fun _ => ⟨rfl, rfl⟩
  · exact .pure ()

/-- A node is counted before it is listed, and past the limit it is not listed. -/
theorem count_bounded (frame : Frame) (hlimit : frame.engine.config.maxChainSteps = some limit)
    (guid : String) {x : Exec α} (hx : x.Bounded limit) :
    Exec.Bounded limit (do
      frame.count
      Exec.modify fun s => { s with trace := s.trace.push guid }
      x) := by
  intro s hs
  have hcounted := hs.counted
  have hle := hs.le
  have hcount : frame.count s = (if limit < s.steps + 1 then
      Exec.fail (.stepLimitExceeded limit) else Pure.pure () : Exec Unit)
        { s with steps := s.steps + 1 } := by
    unfold count
    rw [hlimit]
    rfl
  show ((frame.count s).bind _).Bounded limit
  rw [hcount]
  by_cases hpast : limit < s.steps + 1
  · rw [if_pos hpast]
    exact hle
  · rw [if_neg hpast]
    apply hx { s with steps := s.steps + 1, trace := s.trace.push guid }
    constructor
    · simp [hcounted]
    · simp
      omega

/-- The chains of nodes of the library stay within the limit. -/
def ChainBounded (limit : Nat) (chain : Chain) : Prop :=
  ∀ (frame : Frame) h, frame.engine.config.maxChainSteps = some limit →
    frame.All Network.OfLibrary → (chain frame h).Bounded limit

variable {chain : Chain} (hchain : ChainBounded limit chain) {frame : Frame}
  (hlimit : frame.engine.config.maxChainSteps = some limit) (hframe : frame.All Network.OfLibrary)

include hchain hlimit hframe

theorem invoke_bounded (h : NodeHandle) : (frame.invoke chain h).Bounded limit := by
  unfold invoke
  cases hx : frame.graph.node? h with
  | none => exact .fail _
  | some x =>
    have hbuiltin := (hframe.graph.network h x hx).1
    have hroutine := (Site.mk frame h).execute_routine chain chain x.behavior hbuiltin
    have hexecute := hroutine.bounded fun inner start hreach =>
      hchain inner start (hreach.engine ▸ hlimit) (hreach.all hframe)
    apply count_bounded frame hlimit x.guid
    apply Exec.Bounded.bind (frame.announce_bounded _)
    intro _
    apply hexecute.after
    · exact fun _ => frame.announce_bounded _
    · intro e s
      refine ⟨_, ?_, rfl⟩
      rfl

theorem runNode_bounded (h : NodeHandle) : (frame.runNode chain h).Bounded limit := by
  have hinvoke := invoke_bounded hchain hlimit hframe
  have hclear : clearNext.Bounded limit := .modify fun _ => ⟨rfl, rfl⟩
  apply Exec.Bounded.bind hclear
  intro _
  apply Exec.Bounded.bind (.ofResult _)
  intro path
  apply Exec.Bounded.bind (.forEach path hinvoke)
  intro _
  apply Exec.Bounded.bind hclear
  intro _
  apply Exec.Bounded.bind (hinvoke h)
  intro _
  apply Exec.Bounded.bind (.read _)
  intro next
  exact .bind hclear fun _ => .pure next

omit hchain hlimit hframe in
theorem runChain_bounded (fuel : Nat) : ChainBounded limit (runChain fuel) := by
  induction fuel with
  | zero => exact fun frame h _ _ s hs => hs
  | succ fuel ih =>
    intro frame h hlimit hframe
    apply Exec.Bounded.bind (runNode_bounded ih hlimit hframe h)
    intro next
    cases next with
    | none => exact .pure ()
    | some k => exact ih frame k hlimit hframe

end Frame

/-! ## Section 4: Dispatches -/

namespace Dispatch

section Limited

variable {limit : Nat} (engine : Engine) (g : Graph) (r : DispatchRequest) (s : Store)
  (hlimit : engine.config.maxChainSteps = some limit) (hnodes : g.All Network.OfLibrary)
  (hlibrary : ∀ f ∈ engine.library, f.2.All Network.OfLibrary)

include hlimit hnodes hlibrary

/-- No dispatch starts more nodes than the limit. -/
theorem start_bounded (fuel : Nat) : (start fuel engine g r s).Bounded limit := by
  unfold start
  split
  · exact Nat.zero_le limit
  · cases r.entry.find? g.toNetwork with
    | none => exact Nat.zero_le limit
    | some entry =>
      let frame := frameOf engine g r s
      have hchain := Frame.runChain_bounded fuel frame entry hlimit ⟨hnodes, hlibrary⟩
      have hrun : (run fuel frame entry).Bounded limit := by
        refine .bind (.modify fun _ => ⟨rfl, rfl⟩) fun _ => ?_
        apply hchain.after
        · intro _
          refine .bind (.read _) fun steps => ?_
          exact .bind (.modify fun _ => ⟨rfl, rfl⟩) fun _ => .read _
        · intro e t
          refine ⟨_, ?_, rfl⟩
          rfl
      exact hrun _ ⟨rfl, Nat.zero_le limit⟩

/-- With more fuel than the limit no dispatch is cut off. -/
theorem not_exhausted (fuel : Nat) (hfuel : limit < fuel) (answers : List Answer)
    (t : DispatchState) : (start fuel engine g r s).resumed answers ≠ .exhausted t := by
  intro hcut
  have hbounded := (start_bounded engine g r s hlimit hnodes hlibrary fuel).resumed answers
  have hgrows := (start_grows fuel engine g r s hnodes hlibrary).resumed answers
  rw [hcut] at hbounded hgrows
  have hle : t.trace.size ≤ limit := hbounded.size_le
  have hpaid : 0 + fuel ≤ t.trace.size := hgrows.2
  omega

/-- More fuel than that changes nothing. -/
theorem start_eq_of_fuel_le {fuel fuel' : Nat} (hfuel : limit < fuel) (hle : fuel ≤ fuel') :
    start fuel engine g r s = start fuel' engine g r s := by
  have hsame : ∀ depth : Nat, depth < depth → False := fun depth => lt_irrefl depth
  have hwidens : (start fuel engine g r s).Widens (fun _ => False) (start fuel' engine g r s) :=
    start_widens le_rfl (hsame engine.config.maxForwardDepth) hle engine g r s hnodes hlibrary
  exact hwidens.eq_of_uncut fun answers t =>
    not_exhausted engine g r s hlimit hnodes hlibrary fuel hfuel answers t

end Limited

/-- **Main theorem: dispatches end.**  Take a dispatch of nodes of the library with a limit on
    steps, and fuel beyond the limit, of which any amount gives the same dispatch.  At no time
    it has started more nodes than the limit, and if each of its waits is answered it ends, with
    an outcome or an error. -/
theorem ends_within (limit fuel : Nat) (engine : Engine) (g : Graph) (r : DispatchRequest)
    (s : Store) (hlimit : engine.config.maxChainSteps = some limit)
    (hnodes : g.All Network.OfLibrary)
    (hlibrary : ∀ f ∈ engine.library, f.2.All Network.OfLibrary) (hfuel : limit < fuel) :
    start fuel engine g r s = start (fuelFor engine.config) engine g r s ∧
    (∀ answers, ((start fuel engine g r s).resumed answers).state.trace.size ≤ limit) ∧
    ∀ answers : Nat → Answer, ∃ n result t, t.trace.size ≤ limit ∧
      (start fuel engine g r s).resumed ((List.range n).map answers) = .done result t := by
  have hbounded := start_bounded engine g r s hlimit hnodes hlibrary fuel
  refine ⟨?_, fun answers => (hbounded.resumed answers).size_le, ?_⟩
  · have hfor : fuelFor engine.config = limit + 2 := by simp [fuelFor, hlimit]
    have hsame := @start_eq_of_fuel_le limit engine g r s hlimit hnodes hlibrary
    rw [hfor]
    rcases Nat.le_total fuel (limit + 2) with hle | hle
    · exact hsame hfuel hle
    · exact (hsame (by omega) hle).symm
  · intro answers
    obtain ⟨n, hn⟩ := (start fuel engine g r s).exists_last_wait answers
    have hle := (hbounded.resumed ((List.range n).map answers)).size_le
    have huncut := not_exhausted engine g r s hlimit hnodes hlibrary fuel hfuel
      ((List.range n).map answers)
    cases hstage : (start fuel engine g r s).resumed ((List.range n).map answers) with
    | done result t =>
      rw [hstage] at hle
      exact ⟨n, result, t, hle, hstage⟩
    | waiting key t resume => exact absurd hstage (hn key t resume)
    | exhausted t => exact absurd hstage (huncut t)

/-- A delay that leads back to itself. -/
def pacing : GraphData where
  name := "pacing"
  nodes := [
    { guid := "go", type := "Ceres.Flow.ExecutionEvent",
      serializedData := "\x7b\"eventName\": \"go\"\x7d",
      ports := [{ name := "next", connections := [⟨"pause", "input", 0⟩] }] },
    { guid := "pause", type := "Ceres.Flow.Delay",
      ports := [{ name := "next", connections := [⟨"pause", "input", 0⟩] },
        { name := "seconds", value := some (.float 1) }] }]

/-- The graph as it is built. -/
def pacingState : Graph.State :=
  Graph.run [.compile .standard] (Graph.hydrated Registry.builtin pacing default)

/-- After two waits the delay would start a third time, and there the limit ends it. -/
theorem ends_within_pacing :
    let g := pacingState.1
    let s := pacingState.2
    let r : DispatchRequest := { entry := .event "go" }
    let engine : Engine := { config := { maxChainSteps := some 3 } }
    let answers : Nat → Answer := fun _ => (.ok (), s)
    ((start 4 engine g r s).resumed ((List.range 2).map answers)).state.trace
      = #["go", "pause", "pause"] ∧
    ∃ n result t, t.trace.size ≤ 3 ∧
      (start 4 engine g r s).resumed ((List.range n).map answers) = .done result t := by
  intro g s r engine answers
  have hnodes : g.All Network.OfLibrary := (Graph.built_ofLibrary pacing .standard default).2
  obtain ⟨_, _, hends⟩ :=
    ends_within 3 4 engine g r s rfl hnodes (List.forall_mem_nil _) (by decide)
  constructor
  · decide +kernel
  · exact hends answers

end Dispatch
end FlowGraph
