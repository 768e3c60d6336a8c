import FlowGraph.Proofs.Dispatch.Answers
import FlowGraph.Proofs.Dispatch.OnDemand

/-! # Steps that end without an error

    What a step of a dispatch did if it returned, whatever was waited for in between: a
    node was counted, listed and executed (`Frame.returns_invoke`), a chain ran the
    dependency path, the node and the successor that the node selected
    (`Frame.returns_runChain`), a sub-execution left what belongs to the executing node as
    it was (`Site.returns_enclosed`), and a node that runs no chains changed nothing but
    the store and the return box, and selected its successor (`Site.returns_plain`). -/

namespace FlowGraph

/-! ## Section 1: Nodes without sub-executions -/

/-- Whether a node runs chains of other nodes. -/
def Behavior.startsChains : Behavior → Bool
  | .sequence => true
  | .forLoop => true
  | .invokeFunction _ => true
  | .script _ => true
  | _ => false

/-- Only the store changes while a computation waits. -/
theorem Exec.returns_await (key : WaitKey) (s t : DispatchState)
    (h : (Exec.await key).Returns s () t) : ∃ store, t = { s with store := store } := by
  unfold Exec.Returns Exec.await at h
  dsimp only at h
  split at h
  · obtain ⟨_, rfl⟩ := (Process.ends_done_iff _ _ _ _).mp h
    exact ⟨_, rfl⟩
  · obtain ⟨answer, store, h⟩ := (Process.ends_waiting_iff _ _ _ _ _).mp h
    obtain ⟨_, rfl⟩ := (Process.ends_done_iff _ _ _ _).mp h
    exact ⟨_, rfl⟩

namespace Site

/-- The successor that a node selects, given the store when it starts. -/
def selected (site : Site) (s : Store) : Behavior → Option NodeHandle
  | .executionEvent _ => site.successor "next" 0
  | .functionInput _ => site.successor "next" 0
  | .delay => site.successor "next" 0
  | .log _ => site.successor "next" 0
  | .setVariable => site.successor "next" 0
  | .invokeFunction _ => site.successor "next" 0
  | .branch => site.successor (if (site.input "condition" 0 s).toBool then "true" else "false") 0
  | .forLoop => site.successor "completed" 0
  | _ => none

theorem selected_onDemand (site : Site) (s : Store) (b : Behavior)
    (signature : List (String × PortDirection)) (hsignature : b.signature = some signature) :
    site.selected s b = none := by
  cases b <;> first | rfl | cases hsignature

/-- What is selected is linked to a control output. -/
theorem successor_of_selected (site : Site) (s : Store) (b : Behavior) (next : NodeHandle)
    (h : site.selected s b = some next) : ∃ name, site.successor name 0 = some next := by
  cases b <;> first | exact ⟨_, h⟩ | cases h

theorem returns_onDemand (chain : Chain) (site : Site) (b : Behavior)
    (signature : List (String × PortDirection)) (hsignature : b.signature = some signature)
    (s t : DispatchState) (h : (site.execute chain b).Returns s () t) :
    t = { s with store := site.written b s.store } := by
  unfold Exec.Returns at h
  rw [site.execute_onDemand chain b s signature hsignature] at h
  exact ((Process.ends_done_iff _ _ _ _).mp h).2.symm

/-- A node that runs no chains changes the store and the return box, and selects its
    successor if nothing was selected before. -/
theorem returns_plain (chain : Chain) (site : Site) (b : Behavior) (hb : b.startsChains = false)
    (s t : DispatchState) (h : (site.execute chain b).Returns s () t) :
    ∃ store returned next, t = { s with store, returned, next } ∧
      (s.next = none → next = site.selected s.store b) := by
  cases hsignature : b.signature with
  | some signature =>
    refine ⟨site.written b s.store, s.returned, s.next,
      site.returns_onDemand chain b signature hsignature s t h, fun hnext => ?_⟩
    rw [hnext, site.selected_onDemand s.store b signature hsignature]
  | none =>
    cases b with
    | executionEvent name =>
      obtain ⟨_, rfl⟩ := (Process.ends_done_iff _ _ _ _).mp h
      exact ⟨_, _, _, rfl, fun _ => rfl⟩
    | functionInput name =>
      obtain ⟨_, rfl⟩ := (Process.ends_done_iff _ _ _ _).mp h
      exact ⟨_, _, _, rfl, fun _ => rfl⟩
    | branch =>
      obtain ⟨_, rfl⟩ := (Process.ends_done_iff _ _ _ _).mp h
      exact ⟨_, _, _, rfl, fun _ => rfl⟩
    | delay =>
      replace h := Exec.returns_read_bind _ _ _ _ _ h
      split at h
      · exact absurd h (Exec.not_returns_fail _ _ _ _)
      · -- the wait is scheduled and its id is published before it starts
        replace h := Exec.returns_read_bind _ _ _ _ _ h
        replace h := Exec.returns_modify_bind _ _ _ _ _ h
        replace h := Exec.returns_modify_bind _ _ _ _ _ h
        obtain ⟨_, u, hawait, hrest⟩ := Exec.returns_bind _ _ _ _ _ h
        obtain ⟨store, rfl⟩ := Exec.returns_await _ _ u hawait
        obtain rfl := (Exec.returns_modify_iff _ _ _).mp hrest
        exact ⟨store, _, _, rfl, fun _ => rfl⟩
    | log level =>
      replace h := Exec.returns_read_bind _ _ _ _ _ h
      dsimp only at h
      split at h
      · obtain ⟨_, rfl⟩ := (Process.ends_done_iff _ _ _ _).mp h
        exact ⟨_, _, _, rfl, fun _ => rfl⟩
      · obtain ⟨_, rfl⟩ := (Process.ends_done_iff _ _ _ _).mp h
        exact ⟨_, _, _, rfl, fun _ => rfl⟩
    | setVariable =>
      replace h := Exec.returns_read_bind _ _ _ _ _ h
      dsimp only at h
      split at h
      · obtain ⟨_, rfl⟩ := (Process.ends_done_iff _ _ _ _).mp h
        exact ⟨_, _, _, rfl, fun _ => rfl⟩
      · obtain ⟨_, rfl⟩ := (Process.ends_done_iff _ _ _ _).mp h
        exact ⟨_, _, _, rfl, fun _ => rfl⟩
    | functionOutput =>
      obtain ⟨_, rfl⟩ := (Process.ends_done_iff _ _ _ _).mp h
      exact ⟨_, _, _, rfl, fun _ => rfl⟩
    | placeholder node =>
      obtain ⟨_, rfl⟩ := (Process.ends_done_iff _ _ _ _).mp h
      exact ⟨s.store, s.returned, s.next, rfl, fun hnext => hnext⟩
    | sequence => cases hb
    | forLoop => cases hb
    | invokeFunction name => cases hb
    | script script => cases hb
    | _ => cases hsignature

/-- A node that runs no chains does not look at what a chain is. -/
theorem execute_plain (chain chain' : Chain) (site : Site) (b : Behavior)
    (hb : b.startsChains = false) : site.execute chain b = site.execute chain' b := by
  cases b <;> first | rfl | cases hb

/-! ## Section 2: Sub-executions -/

theorem returns_enclosed {α β : Type} (part : DispatchState → β)
    (restore : β → DispatchState → DispatchState) (x : Exec α) (s t : DispatchState) (a : α)
    (h : (enclosed part restore x).Returns s a t) :
    ∃ u, x.Returns s a u ∧ t = restore (part s) u := by
  replace h := Exec.returns_read_bind _ _ _ _ _ h
  obtain ⟨result, u, hx, hrest⟩ := Exec.returns_bind _ _ _ _ _ h
  replace hrest := Exec.returns_modify_bind _ _ _ _ _ hrest
  obtain ⟨rfl, rfl⟩ := (Exec.returns_ofResult_iff _ _ _ _).mp hrest
  exact ⟨u, Exec.returns_attempt x _ s u hx, rfl⟩

/-- The chain at a control output, if it is linked. -/
theorem returns_forwardPort (chain : Chain) (site : Site) (name : String) (index : Nat)
    (s t : DispatchState) (h : (site.forwardPort chain name index).Returns s () t) :
    (site.successor name index = none ∧ t = s) ∨
      ∃ start u, site.successor name index = some start ∧
        (chain site.inner start).Returns s () u ∧ t = { u with next := s.next } := by
  unfold forwardPort at h
  cases hsuccessor : site.successor name index with
  | none =>
    rw [hsuccessor] at h
    exact .inl ⟨rfl, ((Exec.returns_pure_iff _ _ _ _).mp h).2.symm⟩
  | some start =>
    rw [hsuccessor] at h
    right
    change (site.forward chain start).Returns s () t at h
    unfold forward at h
    split at h
    · exact absurd h (Exec.not_returns_fail _ _ _ _)
    · obtain ⟨u, hchain, rfl⟩ := returns_enclosed _ _ _ s t () h
      exact ⟨start, u, rfl, hchain, rfl⟩

/-- A call runs the callee from its entry, with an empty return box. -/
theorem returns_call (chain : Chain) (site : Site) (name : String) (arguments : List Value)
    (s t : DispatchState) (v : Value) (h : (site.call chain name arguments).Returns s v t) :
    ∃ g entry u, site.callee name s.store = .ok (g, entry) ∧
      (chain (site.callFrame g ⟨name, arguments⟩) entry).Returns
        { s with next := none, returned := none } () u ∧
      v = u.returned.getD .null ∧ t = { u with next := s.next, returned := s.returned } := by
  replace h := Exec.returns_read_bind _ _ _ _ _ h
  obtain ⟨⟨g, entry⟩, u, hresult, hrest⟩ := Exec.returns_bind _ _ _ _ _ h
  obtain ⟨hcallee, rfl⟩ := (Exec.returns_ofResult_iff _ _ _ _).mp hresult
  obtain ⟨u', hactivation, rfl⟩ := returns_enclosed _ _ _ s t v hrest
  replace hactivation := Exec.returns_modify_bind _ _ _ _ _ hactivation
  obtain ⟨_, w, hchain, hread⟩ := Exec.returns_bind _ _ _ _ _ hactivation
  obtain ⟨rfl, rfl⟩ := (Exec.returns_read_iff _ _ _ _).mp hread
  exact ⟨g, entry, w, hcallee, hchain, rfl, rfl⟩

end Site

/-! ## Section 3: Nodes and chains -/

namespace Frame

/-- The store after an announcement. -/
def announced (frame : Frame) (event : GraphEvent) (s : Store) : Store :=
  if frame.engine.config.emitNodeEvents then s.emit event else s

/-- The state in which a node starts to execute: it was counted, listed and announced. -/
def started (frame : Frame) (x : GraphNode) (s : DispatchState) : DispatchState :=
  { s with
    steps := s.steps + 1
    trace := s.trace.push x.guid
    store := frame.announced (.nodeStarted frame.dispatchId x.guid x.type) s.store }

/-- The state after a node ended without an error. -/
def ended (frame : Frame) (x : GraphNode) (s : DispatchState) : DispatchState :=
  { s with store := frame.announced (.nodeCompleted frame.dispatchId x.guid) s.store }

theorem announce_done (frame : Frame) (event : GraphEvent) (s : DispatchState) :
    frame.announce event s
      = .done (.ok ()) { s with store := frame.announced event s.store } := by
  unfold announce announced
  split
  · rfl
  · rfl

theorem returns_count (frame : Frame) (s t : DispatchState) (h : frame.count.Returns s () t) :
    t = { s with steps := s.steps + 1 } := by
  unfold Exec.Returns at h
  rcases frame.count_cases s with hcount | ⟨limit, _, _, hcount⟩
  · rw [hcount] at h
    exact ((Process.ends_done_iff _ _ _ _).mp h).2.symm
  · rw [hcount] at h
    cases ((Process.ends_done_iff _ _ _ _).mp h).1

theorem returns_announce (frame : Frame) (event : GraphEvent) (s t : DispatchState)
    (h : (frame.announce event).Returns s () t) :
    t = { s with store := frame.announced event s.store } := by
  unfold Exec.Returns at h
  rw [announce_done] at h
  exact ((Process.ends_done_iff _ _ _ _).mp h).2.symm

theorem returns_conclude (frame : Frame) (x : GraphNode) (result : Except GraphError Unit)
    (s t : DispatchState) (h : (frame.conclude x.guid result).Returns s () t) :
    result = .ok () ∧ t = frame.ended x s := by
  cases result with
  | ok _ => exact ⟨rfl, frame.returns_announce _ s t h⟩
  | error e =>
    replace h := Exec.returns_modify_bind _ _ _ _ _ h
    replace h := Exec.returns_modify_bind _ _ _ _ _ h
    exact absurd h (Exec.not_returns_fail _ _ _ _)

/-- A node that is invoked is executed between its announcements. -/
theorem returns_invoke (chain : Chain) (frame : Frame) (h : NodeHandle) (s t : DispatchState)
    (hinvoke : (frame.invoke chain h).Returns s () t) :
    ∃ x u, frame.graph.node? h = some x ∧
      ((Site.mk frame h).execute chain x.behavior).Returns (frame.started x s) () u ∧
      t = frame.ended x u := by
  unfold invoke at hinvoke
  cases hx : frame.graph.node? h with
  | none =>
    rw [hx] at hinvoke
    exact absurd hinvoke (Exec.not_returns_fail _ _ _ _)
  | some x =>
    rw [hx] at hinvoke
    obtain ⟨_, u, hcount, hrest⟩ := Exec.returns_bind _ _ _ _ _ hinvoke
    obtain rfl := frame.returns_count s u hcount
    replace hrest := Exec.returns_modify_bind _ _ _ _ _ hrest
    obtain ⟨_, u, hstarted, hrest⟩ := Exec.returns_bind _ _ _ _ _ hrest
    obtain rfl := frame.returns_announce _ _ u hstarted
    obtain ⟨result, u, hexecute, hconclude⟩ := Exec.returns_bind _ _ _ _ _ hrest
    obtain ⟨rfl, rfl⟩ := frame.returns_conclude x result u t hconclude
    exact ⟨x, u, rfl, Exec.returns_attempt _ _ _ u hexecute, rfl⟩

/-- Before a node its dependency path is run, and after it nothing; the successor that it
    selected is returned. -/
theorem returns_runNode (chain : Chain) (frame : Frame) (h : NodeHandle)
    (next : Option NodeHandle) (s t : DispatchState)
    (hrun : (frame.runNode chain h).Returns s next t) :
    ∃ path u v, frame.graph.dependencyPath h = .ok path ∧
      (Exec.forEach path (frame.invoke chain)).Returns { s with next := none } () u ∧
      (frame.invoke chain h).Returns { u with next := none } () v ∧
      next = v.next ∧ t = { v with next := none } := by
  replace hrun := Exec.returns_modify_bind _ _ _ _ _ hrun
  obtain ⟨path, u, hresult, hrest⟩ := Exec.returns_bind _ _ _ _ _ hrun
  obtain ⟨hpath, rfl⟩ := (Exec.returns_ofResult_iff _ _ _ _).mp hresult
  obtain ⟨_, u, hdependencies, hrest⟩ := Exec.returns_bind _ _ _ _ _ hrest
  replace hrest := Exec.returns_modify_bind _ _ _ _ _ hrest
  obtain ⟨_, v, hinvoke, hrest⟩ := Exec.returns_bind _ _ _ _ _ hrest
  replace hrest := Exec.returns_read_bind _ _ _ _ _ hrest
  replace hrest := Exec.returns_modify_bind _ _ _ _ _ hrest
  obtain ⟨rfl, rfl⟩ := (Exec.returns_pure_iff _ _ _ _).mp hrest
  exact ⟨path, u, v, hpath, hdependencies, hinvoke, rfl, rfl⟩

/-- The chain goes on with the successor that the node selected. -/
theorem returns_runChain (fuel : Nat) (frame : Frame) (h : NodeHandle) (s t : DispatchState)
    (hrun : (Frame.runChain (fuel + 1) frame h).Returns s () t) :
    ∃ next u, (frame.runNode (Frame.runChain fuel) h).Returns s next u ∧
      ((next = none ∧ t = u) ∨
        ∃ k, next = some k ∧ (Frame.runChain fuel frame k).Returns u () t) := by
  obtain ⟨next, u, hnode, hrest⟩ := Exec.returns_bind _ _ _ _ _ hrun
  refine ⟨next, u, hnode, ?_⟩
  cases next with
  | none => exact .inl ⟨rfl, ((Exec.returns_pure_iff _ _ _ _).mp hrest).2.symm⟩
  | some k => exact .inr ⟨k, rfl, hrest⟩

end Frame
end FlowGraph
