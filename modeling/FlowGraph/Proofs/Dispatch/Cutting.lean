import FlowGraph.Proofs.Dispatch.Growth

/-! # Dispatches that are stopped

    To speak of a dispatch up to the start of a certain node, the way in which nodes are
    counted is taken as a parameter (`Frame.invokeBy` and so on); with `Frame.count` this is
    the dispatch itself (`Dispatch.startBy_count`), and with `Frame.stopAt` it stands still
    where it would start one node too many.

    Main statement: a dispatch without a limit on steps, stopped in this way, is the whole
    dispatch if that starts no more nodes, and else has started just the first ones
    (`Dispatch.start_cuts`). -/

namespace FlowGraph

variable {α β : Type}

/-! ## Section 1: Counting as a parameter -/

namespace Frame

/-- Run a node, given how it is counted. -/
def invokeBy (count : Frame → Exec Unit) (chain : Chain) (frame : Frame) (h : NodeHandle) :
    Exec Unit := do
  match frame.graph.node? h with
  | none => Exec.fail (.unknownNode h.text)
  | some n =>
    count frame
    Exec.modify fun s => { s with trace := s.trace.push n.guid }
    frame.announce (.nodeStarted frame.dispatchId n.guid n.type)
    let result ← ((Site.mk frame h).execute chain n.behavior).attempt
    frame.conclude n.guid result

/-- Run the dependency path of a node and then the node. -/
def runNodeBy (count : Frame → Exec Unit) (chain : Chain) (frame : Frame) (h : NodeHandle) :
    Exec (Option NodeHandle) := do
  clearNext
  let path ← Exec.ofResult (frame.graph.dependencyPath h)
  Exec.forEach path (frame.invokeBy count chain)
  clearNext
  frame.invokeBy count chain h
  let next ← Exec.read (·.next)
  clearNext
  return next

/-- Run the chain that starts at a node. -/
def runChainBy (count : Frame → Exec Unit) : (fuel : Nat) → Chain
  | 0, _, _ => fun s => .exhausted s
  | fuel + 1, frame, h => do
    match ← frame.runNodeBy count (runChainBy count fuel) h with
    | some next => runChainBy count fuel frame next
    | none => pure ()

theorem runChainBy_count (fuel : Nat) : runChainBy count fuel = runChain fuel := by
  induction fuel with
  | zero => rfl
  | succ fuel ih =>
    funext frame h
    unfold runChainBy runChain
    rw [ih]
    rfl

/-- Count a node; where more than `limit` nodes would start, stand still. -/
def stopAt (limit : Nat) : Frame → Exec Unit := fun _ s =>
  if s.steps < limit then .done (.ok ()) { s with steps := s.steps + 1 } else .exhausted s

end Frame

namespace Dispatch

/-- Run a graph from an entry node, given how nodes are counted. -/
def runBy (count : Frame → Exec Unit) (fuel : Nat) (frame : Frame) (entry : NodeHandle) :
    Exec DispatchOutcome := do
  let guid := ((frame.graph.node? entry).map (·.guid)).getD ""
  Exec.update (·.emit (.dispatchStarted frame.graph.name frame.dispatchId guid))
  let result ← (Frame.runChainBy count fuel frame entry).attempt
  conclude frame.graph.name frame.dispatchId guid result

/-- Dispatch a request, given how nodes are counted. -/
def startBy (count : Frame → Exec Unit) (fuel : Nat) (engine : Engine) (g : Graph)
    (r : DispatchRequest) (s : Store) : Process DispatchOutcome :=
  if !g.isRunnable s then .done (.error (.notCompiled g.name)) { store := s }
  else
    match r.entry.find? g.toNetwork with
    | none => .done (.error (.unknownEntry r.entry.text)) { store := s }
    | some entry =>
      let payload := r.effectivePayload
      let (dispatchId, s) := s.freshDispatch
      runBy count fuel ⟨engine, dispatchId, g, r.trigger, payload.toEventCall, 0⟩ entry
        { store := s, returned := payload.returned }

theorem startBy_count : startBy Frame.count = start := by
  funext fuel engine g r s
  unfold startBy runBy
  rw [Frame.runChainBy_count]
  rfl

end Dispatch

/-! ## Section 2: Processes that are stopped -/

/-- All nodes that started are counted, and there are at most `limit` of them. -/
structure DispatchState.Within (limit : Nat) (s : DispatchState) : Prop where
  counted : s.steps = s.trace.size
  le : s.trace.size ≤ limit

namespace Process

/-- The second process is the first one, except that it stands still where the first one starts
    another node after `limit` ones. -/
inductive Cuts (limit : Nat) : Process α → Process α → Prop where
  | done (result : Except GraphError α) (s : DispatchState) (hs : s.Within limit) :
      Cuts limit (.done result s) (.done result s)
  | waiting (key : WaitKey) (s : DispatchState)
      (resume resume' : Except GraphError Unit → Store → Process α) (hs : s.Within limit)
      (hrest : ∀ result store, Cuts limit (resume result store) (resume' result store)) :
      Cuts limit (.waiting key s resume) (.waiting key s resume')
  | exhausted (s : DispatchState) (hs : s.Within limit) : Cuts limit (.exhausted s) (.exhausted s)
  /-- The first process goes on with a node. -/
  | stopped (p : Process α) (s : DispatchState) (guid : String) (hs : s.trace.size = limit)
      (hgoes : p.Grows 0 0 (s.trace.toList ++ [guid])) : Cuts limit p (.exhausted s)

variable {limit : Nat}

theorem Cuts.bind {p q : Process α} {f g : α → DispatchState → Process β} (h : p.Cuts limit q)
    (hgrows : ∀ a s, (f a s).Grows 0 0 s.trace.toList)
    (hf : ∀ a s, s.Within limit → (f a s).Cuts limit (g a s)) :
    (p.bind f).Cuts limit (q.bind g) := by
  induction h with
  | done result s hs =>
    cases result with
    | error e => exact .done _ s hs
    | ok a => exact hf a s hs
  | waiting key s resume resume' hs _ ih => exact .waiting key s _ _ hs ih
  | exhausted s hs => exact .exhausted s hs
  | stopped p s guid hs hgoes =>
    exact .stopped _ s guid hs (Grows.bind hgoes hgrows (Nat.zero_le _))

theorem Cuts.attempt {p q : Process α} (h : p.Cuts limit q) : p.attempt.Cuts limit q.attempt := by
  induction h with
  | done result s hs => exact .done _ s hs
  | waiting key s resume resume' hs _ ih => exact .waiting key s _ _ hs ih
  | exhausted s hs => exact .exhausted s hs
  | stopped p s guid hs hgoes => exact .stopped _ s guid hs hgoes.attempt

/-- The answers to waits keep the relation. -/
theorem Cuts.resumed {p q : Process α} (h : p.Cuts limit q) (answers : List Answer) :
    (p.resumed answers).Cuts limit (q.resumed answers) := by
  induction h generalizing answers with
  | done result s hs => exact .done result s hs
  | waiting key s resume resume' hs hrest ih =>
    cases answers with
    | nil => exact .waiting key s resume resume' hs hrest
    | cons answer rest => exact ih answer.1 answer.2 rest
  | exhausted s hs => exact .exhausted s hs
  | stopped p s guid hs hgoes => exact .stopped _ s guid hs (hgoes.resumed answers)

end Process

/-! ## Section 3: Steps that are stopped -/

namespace Exec

/-- As long as the limit is not passed, the second computation is the first one up to there. -/
structure Cuts (limit : Nat) (x y : Exec α) : Prop where
  grows : x.Grows 0 0
  cuts : ∀ s, s.Within limit → (x s).Cuts limit (y s)

variable {limit : Nat}

theorem Cuts.pure (a : α) : Cuts limit (Pure.pure a) (Pure.pure a) :=
  ⟨.pure a, fun s hs => .done _ s hs⟩

theorem Cuts.fail (e : GraphError) : Cuts limit (Exec.fail e : Exec α) (Exec.fail e) :=
  ⟨.fail e, fun s hs => .done _ s hs⟩

theorem Cuts.read (f : DispatchState → α) : Cuts limit (Exec.read f) (Exec.read f) :=
  ⟨.read f, fun s hs => .done _ s hs⟩

theorem Cuts.modify {f : DispatchState → DispatchState}
    (hf : ∀ s, (f s).steps = s.steps ∧ (f s).trace = s.trace) :
    Cuts limit (Exec.modify f) (Exec.modify f) := by
  refine ⟨.modify fun s => (hf s).2, fun s hs => .done _ (f s) ⟨?_, ?_⟩⟩
  · rw [(hf s).1, (hf s).2]
    exact hs.counted
  · rw [(hf s).2]
    exact hs.le

theorem Cuts.silent {f : DispatchState → DispatchState} (hf : Silent f) :
    Cuts limit (Exec.modify f) (Exec.modify f) :=
  .modify fun s => ⟨congrArg Ledger.steps (hf.ledger s), congrArg Ledger.trace (hf.ledger s)⟩

theorem Cuts.bind {x y : Exec α} {f g : α → Exec β} (hx : Cuts limit x y)
    (hf : ∀ a, Cuts limit (f a) (g a)) : Cuts limit (x >>= f) (y >>= g) :=
  ⟨.andThen hx.grows fun a => (hf a).grows, fun s hs =>
    (hx.cuts s hs).bind (fun a t => (hf a).grows t) fun a t ht => (hf a).cuts t ht⟩

theorem Cuts.attempt {x y : Exec α} (hx : Cuts limit x y) : Cuts limit x.attempt y.attempt :=
  ⟨hx.grows.attempt, fun s hs => (hx.cuts s hs).attempt⟩

theorem Cuts.ofResult (result : Except GraphError α) :
    Cuts limit (Exec.ofResult result) (Exec.ofResult result) := by
  cases result with
  | ok a => exact .pure a
  | error e => exact .fail e

theorem Cuts.forEach (xs : List β) {f g : β → Exec Unit} (hf : ∀ x ∈ xs, Cuts limit (f x) (g x)) :
    Cuts limit (Exec.forEach xs f) (Exec.forEach xs g) := by
  induction xs with
  | nil => exact .pure ()
  | cons x rest ih =>
    refine .bind (hf x List.mem_cons_self) fun _ => ?_
    exact ih fun y hy => hf y (List.mem_cons_of_mem x hy)

theorem Cuts.await (key : WaitKey) : Cuts limit (Exec.await key) (Exec.await key) := by
  refine ⟨.await key, fun s hs => ?_⟩
  unfold Exec.await
  dsimp only
  cases (s.store.scheduler.start key).1 with
  | some result => exact .done result _ ⟨hs.counted, hs.le⟩
  | none =>
    exact .waiting key _ _ _ ⟨hs.counted, hs.le⟩
      fun result store => .done result _ ⟨hs.counted, hs.le⟩

end Exec

/-! ## Section 4: Nodes and chains -/

/-- A node is stopped where the chains that it runs are. -/
theorem Site.Routine.cuts {site : Site} {chain chain' : Chain} {limit : Nat} {x y : Exec α}
    (h : Routine site chain chain' x y) (hchain : ∀ frame start, site.Reaches frame →
      Exec.Cuts limit (chain frame start) (chain' frame start)) : Exec.Cuts limit x y := by
  induction h with
  | pure a => exact .pure a
  | fail e _ => exact .fail e
  | read f _ => exact .read f
  | modify f hf => exact .silent hf
  | message text => exact .modify fun _ => ⟨rfl, rfl⟩
  | await key => exact .await key
  | look f _ k k' _ ih => exact ⟨fun s => (ih s).grows s, fun s hs => (ih s).cuts s hs⟩
  | bind x y k k' _ _ ihx ihk => exact .bind ihx ihk
  | enclosed part restore _ hrestore _ x y _ ih =>
    refine .bind (.read part) fun kept => ?_
    refine .bind ih.attempt fun result => ?_
    exact .bind (.silent (hrestore kept)) fun _ => .ofResult result
  | chain frame start hreach => exact hchain frame start hreach

namespace Frame

variable {limit : Nat}

theorem announce_cuts (frame : Frame) (event : GraphEvent) :
    Exec.Cuts limit (frame.announce event) (frame.announce event) := by
  unfold announce
  split
  · exact .modify fun _ => ⟨rfl, rfl⟩
  · exact .pure ()

theorem conclude_cuts (frame : Frame) (guid : String) (result : Except GraphError Unit) :
    Exec.Cuts limit (frame.conclude guid result) (frame.conclude guid result) := by
  cases result with
  | ok _ => exact frame.announce_cuts _
  | error e =>
    refine .bind (.modify fun _ => ⟨rfl, rfl⟩) fun _ => ?_
    exact .bind (.modify fun _ => ⟨rfl, rfl⟩) fun _ => .fail e

/-- Without a limit a node is counted, and that is all. -/
theorem count_free (frame : Frame) (hfree : frame.engine.config.maxChainSteps = none)
    (s : DispatchState) : frame.count s = .done (.ok ()) { s with steps := s.steps + 1 } := by
  unfold count
  rw [hfree]
  rfl

/-- Chains without a limit, of nodes of the library, and the same chains stopped. -/
def ChainCuts (limit : Nat) (chain chain' : Chain) : Prop :=
  ∀ frame h, frame.engine.config.maxChainSteps = none → frame.All Network.OfLibrary →
    Exec.Cuts limit (chain frame h) (chain' frame h)

variable {chain chain' : Chain} (hchain : ChainCuts limit chain chain') {frame : Frame}
  (hfree : frame.engine.config.maxChainSteps = none) (hframe : frame.All Network.OfLibrary)

include hchain hfree hframe

/-- What a node does behind its start. -/
theorem started_cuts (h : NodeHandle) (x : GraphNode) (hx : frame.graph.node? h = some x) :
    Exec.Cuts limit
      (do
        frame.announce (.nodeStarted frame.dispatchId x.guid x.type)
        let result ← ((Site.mk frame h).execute chain x.behavior).attempt
        frame.conclude x.guid result)
      (do
        frame.announce (.nodeStarted frame.dispatchId x.guid x.type)
        let result ← ((Site.mk frame h).execute chain' x.behavior).attempt
        frame.conclude x.guid result) := by
  have hbuiltin := (hframe.graph.network h x hx).1
  have hroutine := (Site.mk frame h).execute_routine chain chain' x.behavior hbuiltin
  have hexecute := hroutine.cuts fun inner start hreach =>
    hchain inner start (hreach.engine ▸ hfree) (hreach.all hframe)
  refine .bind (frame.announce_cuts _) fun _ => ?_
  exact .bind hexecute.attempt fun result => frame.conclude_cuts x.guid result

theorem invoke_cuts (h : NodeHandle) :
    Exec.Cuts limit (frame.invoke chain h) (frame.invokeBy (stopAt limit) chain' h) := by
  unfold invoke invokeBy
  cases hx : frame.graph.node? h with
  | none => exact .fail _
  | some x =>
    have hstarted := started_cuts hchain hfree hframe h x hx
    have hlisted := hstarted.grows.listed x.guid
    refine ⟨.andThen (frame.count_grows 0) fun _ => hlisted.weaken (Nat.zero_le 1),
      fun s hs => ?_⟩
    show ((frame.count s).bind _).Cuts limit ((stopAt limit frame s).bind _)
    rw [frame.count_free hfree s]
    unfold stopAt
    have hcounted := hs.counted
    have hle := hs.le
    by_cases hlimit : s.steps < limit
    · -- the node starts in both
      rw [if_pos hlimit]
      refine hstarted.cuts
        { s with steps := s.steps + 1, trace := s.trace.push x.guid } ⟨?_, ?_⟩
      · simp [hcounted]
      · simp
        omega
    · -- it only starts in the first one
      rw [if_neg hlimit]
      refine .stopped _ s x.guid (by omega) ?_
      have hgoes := hstarted.grows
        { s with steps := s.steps + 1, trace := s.trace.push x.guid }
      have hlist : (s.trace.push x.guid).toList = s.trace.toList ++ [x.guid] := Array.toList_push
      rw [← hlist]
      exact hgoes

theorem runNode_cuts (h : NodeHandle) :
    Exec.Cuts limit (frame.runNode chain h) (frame.runNodeBy (stopAt limit) chain' h) := by
  have hinvoke := invoke_cuts hchain hfree hframe
  refine .bind (.modify fun _ => ⟨rfl, rfl⟩) fun _ => ?_
  refine .bind (.ofResult _) fun path => ?_
  refine .bind (.forEach path fun m _ => hinvoke m) fun _ => ?_
  refine .bind (.modify fun _ => ⟨rfl, rfl⟩) fun _ => ?_
  refine .bind (hinvoke h) fun _ => ?_
  refine .bind (.read _) fun next => ?_
  exact .bind (.modify fun _ => ⟨rfl, rfl⟩) fun _ => .pure next

omit hchain hfree hframe in
theorem runChain_cuts (limit fuel : Nat) :
    ChainCuts limit (runChain fuel) (runChainBy (stopAt limit) fuel) := by
  induction fuel with
  | zero => exact fun frame h _ _ => ⟨fun s => ⟨List.prefix_rfl, by simp⟩, fun s hs => .exhausted s hs⟩
  | succ fuel ih =>
    intro frame h hfree hframe
    refine .bind (runNode_cuts ih hfree hframe h) fun next => ?_
    cases next with
    | none => exact .pure ()
    | some k => exact ih frame k hfree hframe

end Frame

/-! ## Section 5: Dispatches -/

namespace Dispatch

theorem conclude_cuts (limit : Nat) (graph dispatchId entry : String)
    (result : Except GraphError Unit) : Exec.Cuts limit (conclude graph dispatchId entry result)
      (conclude graph dispatchId entry result) := by
  cases result with
  | ok _ =>
    refine .bind (.read _) fun steps => ?_
    exact .bind (.modify fun _ => ⟨rfl, rfl⟩) fun _ => .read _
  | error e =>
    refine .bind (.modify fun _ => ⟨rfl, rfl⟩) fun _ => ?_
    exact .bind (.modify fun _ => ⟨rfl, rfl⟩) fun _ => .fail e

/-- A dispatch without a limit is stopped where it starts one node too many. -/
theorem start_cuts (limit fuel : Nat) (engine : Engine) (g : Graph) (r : DispatchRequest)
    (s : Store) (hfree : engine.config.maxChainSteps = none) (hnodes : g.All Network.OfLibrary)
    (hlibrary : ∀ f ∈ engine.library, f.2.All Network.OfLibrary) :
    (start fuel engine g r s).Cuts limit (startBy (Frame.stopAt limit) fuel engine g r s) := by
  have hstart : ∀ store next returned,
      DispatchState.Within limit ⟨store, 0, #[], next, returned⟩ :=
    fun _ _ _ => ⟨rfl, Nat.zero_le limit⟩
  unfold start startBy
  split
  · exact .done _ _ (hstart s none none)
  · cases r.entry.find? g.toNetwork with
    | none => exact .done _ _ (hstart s none none)
    | some entry =>
      let frame := frameOf engine g r s
      have hrun : Exec.Cuts limit (run fuel frame entry)
          (runBy (Frame.stopAt limit) fuel frame entry) := by
        refine .bind (.modify fun _ => ⟨rfl, rfl⟩) fun _ => ?_
        refine .bind (Frame.runChain_cuts limit fuel frame entry hfree ⟨hnodes, hlibrary⟩).attempt ?_
        exact fun result => conclude_cuts limit _ _ _ result
      exact hrun.cuts _ (hstart s.freshDispatch.2 none r.effectivePayload.returned)

end Dispatch
end FlowGraph
