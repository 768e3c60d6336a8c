import FlowGraph.Proofs.Dispatch.Routine

/-! # The trace grows

    A dispatch only adds to its trace (`Process.Grows`).  One that is cut off for want of
    fuel has started as many nodes as it had fuel, since each level of fuel is paid for by a
    node that starts: so with more fuel than there are nodes to start, no dispatch is cut
    off (`Dispatch.start_grows`). -/

namespace FlowGraph

variable {α β : Type}

/-! ## Section 1: Processes -/

namespace Process

/-- The process extends the known trace: by `least` nodes at least if it returns a result, and
    by `more` nodes at least if it is cut off. -/
def Grows (least more : Nat) : Process α → List String → Prop
  | .done (.ok _) s, known => known <+: s.trace.toList ∧ known.length + least ≤ s.trace.size
  | .done (.error _) s, known => known <+: s.trace.toList
  | .waiting _ s resume, known => known <+: s.trace.toList ∧
      ∀ result store, (resume result store).Grows least more known
  | .exhausted s, known => known <+: s.trace.toList ∧ known.length + more ≤ s.trace.size

variable {least more least' more' : Nat} {known known' : List String}

/-- The trace starts with what was known. -/
theorem Grows.isPrefix {p : Process α} (h : p.Grows least more known) :
    known <+: p.state.trace.toList := by
  cases p with
  | done result s =>
    cases result with
    | ok a => exact h.1
    | error e => exact h
  | waiting key s resume => exact h.1
  | exhausted s => exact h.1

/-- Less was known before. -/
theorem Grows.mono {p : Process α} (h : p.Grows least more known) (hknown : known' <+: known)
    (hleast : known'.length + least' ≤ known.length + least)
    (hmore : known'.length + more' ≤ known.length + more) : p.Grows least' more' known' := by
  induction p with
  | done result s =>
    cases result with
    | ok a => exact ⟨hknown.trans h.1, hleast.trans h.2⟩
    | error e => exact hknown.trans h
  | waiting key s resume ih => exact ⟨hknown.trans h.1, fun result store => ih _ _ (h.2 result store)⟩
  | exhausted s => exact ⟨hknown.trans h.1, hmore.trans h.2⟩

theorem Grows.bind {p : Process α} {f : α → DispatchState → Process β}
    (h : p.Grows least more known) (hf : ∀ a s, (f a s).Grows least' more' s.trace.toList)
    (hmore : more ≤ least + more') : (p.bind f).Grows (least + least') more known := by
  induction p with
  | done result s =>
    cases result with
    | error e => exact h
    | ok a =>
      have hlength : s.trace.toList.length = s.trace.size := Array.length_toList
      have hadded := h.2
      refine (hf a s).mono h.1 ?_ ?_
      · omega
      · omega
  | waiting key s resume ih => exact ⟨h.1, fun result store => ih _ _ (h.2 result store)⟩
  | exhausted s => exact h

theorem Grows.attempt {p : Process α} (h : p.Grows least more known) :
    p.attempt.Grows 0 more known := by
  induction p with
  | done result s =>
    have hknown : known <+: s.trace.toList := h.isPrefix
    exact ⟨hknown, by simpa using hknown.length_le⟩
  | waiting key s resume ih => exact ⟨h.1, fun result store => ih _ _ (h.2 result store)⟩
  | exhausted s => exact h

theorem Grows.resumed {p : Process α} (h : p.Grows least more known) (answers : List Answer) :
    (p.resumed answers).Grows least more known := by
  induction p generalizing answers with
  | done result s => exact h
  | waiting key s resume ih =>
    cases answers with
    | nil => exact h
    | cons answer rest => exact ih answer.1 answer.2 (h.2 answer.1 answer.2) rest
  | exhausted s => exact h

end Process

/-! ## Section 2: Steps -/

namespace Exec

/-- From every state the computation extends the trace. -/
def Grows (least more : Nat) (x : Exec α) : Prop := ∀ s, (x s).Grows least more s.trace.toList

variable {least more least' more' : Nat}

theorem Grows.pure (a : α) : Grows 0 more (Pure.pure a) :=
  fun _ => ⟨List.prefix_rfl, by simp⟩

theorem Grows.fail (e : GraphError) : Grows least more (Exec.fail e : Exec α) :=
  fun _ => List.prefix_rfl

theorem Grows.read (f : DispatchState → α) : Grows 0 more (Exec.read f) :=
  fun _ => ⟨List.prefix_rfl, by simp⟩

theorem Grows.modify {f : DispatchState → DispatchState} (hf : ∀ s, (f s).trace = s.trace) :
    Grows 0 more (Exec.modify f) := by
  intro s
  refine ⟨?_, ?_⟩
  · rw [hf]
  · rw [hf]
    simp

theorem Grows.bind {x : Exec α} {f : α → Exec β} (hx : Grows least more x)
    (hf : ∀ a, Grows least' more' (f a)) (hmore : more ≤ least + more') :
    Grows (least + least') more (x >>= f) :=
  fun s => Process.Grows.bind (hx s) (fun a t => hf a t) hmore

/-- Steps in a row that are not known to start nodes. -/
theorem Grows.andThen {x : Exec α} {f : α → Exec β} (hx : Grows 0 more x)
    (hf : ∀ a, Grows least more (f a)) : Grows least more (x >>= f) := by
  rw [← Nat.zero_add least]
  exact hx.bind hf (Nat.zero_add more).ge

/-- Behind a node that starts there is one unit of fuel less. -/
theorem Grows.started {x : Exec α} {f : α → Exec β} (hx : Grows 1 (more + 1) x)
    (hf : ∀ a, Grows 0 more (f a)) : Grows 1 (more + 1) (x >>= f) :=
  hx.bind hf (Nat.add_comm more 1).le

theorem Grows.weaken {x : Exec α} (hx : Grows least more x) (hmore : more' ≤ more) :
    Grows 0 more' x := by
  refine fun s => (hx s).mono List.prefix_rfl (Nat.le_add_right _ _) ?_
  omega

theorem Grows.attempt {x : Exec α} (hx : Grows least more x) : Grows 0 more x.attempt :=
  fun s => Process.Grows.attempt (hx s)

theorem Grows.ofResult (result : Except GraphError α) : Grows 0 more (Exec.ofResult result) := by
  cases result with
  | ok a => exact .pure a
  | error e => exact .fail e

theorem Grows.forEach (xs : List β) {f : β → Exec Unit} (hf : ∀ x ∈ xs, Grows 0 more (f x)) :
    Grows 0 more (Exec.forEach xs f) := by
  induction xs with
  | nil => exact .pure ()
  | cons x rest ih =>
    refine .andThen (hf x List.mem_cons_self) fun _ => ?_
    exact ih fun y hy => hf y (List.mem_cons_of_mem x hy)

theorem Grows.await (key : WaitKey) : Grows 0 more (Exec.await key) := by
  intro s
  unfold Exec.await
  dsimp only
  cases (s.store.scheduler.start key).1 with
  | some result =>
    cases result with
    | ok _ => exact ⟨List.prefix_rfl, by simp⟩
    | error e => exact List.prefix_rfl
  | none =>
    refine ⟨List.prefix_rfl, fun result store => ?_⟩
    cases result with
    | ok _ => exact ⟨List.prefix_rfl, by simp⟩
    | error e => exact List.prefix_rfl

/-- A node that starts counts for the result, and pays for one more unit of fuel. -/
theorem Grows.listed {x : Exec α} (hx : Grows 0 more x) (guid : String) :
    Grows 1 (more + 1) (Exec.modify (fun s => { s with trace := s.trace.push guid }) >>= fun _ => x) := by
  intro s
  have hrest := hx { s with trace := s.trace.push guid }
  have hlist : (s.trace.push guid).toList = s.trace.toList ++ [guid] := Array.toList_push
  refine Process.Grows.mono hrest ?_ ?_ ?_
  · rw [hlist]
    exact List.prefix_append _ _
  · simp
  · simp
    omega

end Exec

/-! ## Section 3: Nodes and chains -/

/-- The steps of a node extend the trace if the chains that it runs do. -/
theorem Site.Routine.grows {site : Site} {chain chain' : Chain} {more : Nat} {x y : Exec α}
    (h : Routine site chain chain' x y)
    (hchain : ∀ frame start, site.Reaches frame → (chain frame start).Grows 0 more) :
    x.Grows 0 more := by
  induction h with
  | pure a => exact .pure a
  | fail e _ => exact .fail e
  | read f _ => exact .read f
  | modify f hf => exact .modify fun s => congrArg Ledger.trace (hf.ledger s)
  | message text => exact .modify fun _ => rfl
  | await key => exact .await key
  | look f _ k k' _ ih => exact fun s => ih s s
  | bind x y k k' _ _ ihx ihk => exact .andThen ihx ihk
  | enclosed part restore _ hrestore _ x y _ ih =>
    refine .andThen (.read part) fun kept => ?_
    refine .andThen ih.attempt fun result => ?_
    refine .andThen (.modify fun s => congrArg Ledger.trace ((hrestore kept).ledger s)) fun _ => ?_
    exact .ofResult result
  | chain frame start hreach => exact hchain frame start hreach

namespace Frame

theorem announce_grows (frame : Frame) (event : GraphEvent) (more : Nat) :
    (frame.announce event).Grows 0 more := by
  unfold announce
  split
  · exact .modify fun _ => rfl
  · exact .pure ()

theorem count_grows (frame : Frame) (more : Nat) : frame.count.Grows 0 more := by
  unfold count
  refine .andThen (.modify fun _ => rfl) fun _ => ?_
  cases frame.engine.config.maxChainSteps with
  | none => exact .pure ()
  | some limit =>
    refine .andThen (.read _) fun steps => ?_
    by_cases hlimit : limit < steps
    · simp only [if_pos hlimit]
      exact .fail _
    · simp only [if_neg hlimit]
      exact .pure ()

theorem conclude_grows (frame : Frame) (guid : String) (result : Except GraphError Unit)
    (more : Nat) : (frame.conclude guid result).Grows 0 more := by
  cases result with
  | ok _ => exact frame.announce_grows _ more
  | error e =>
    refine .andThen (.modify fun _ => rfl) fun _ => ?_
    exact .andThen (.modify fun _ => rfl) fun _ => .fail e

/-- The chains of nodes of the library extend the trace. -/
def ChainGrows (more : Nat) (chain : Chain) : Prop :=
  ∀ frame h, frame.All Network.OfLibrary → (chain frame h).Grows 0 more

variable {chain : Chain} {more : Nat} (hchain : ChainGrows more chain) {frame : Frame}
  (hframe : frame.All Network.OfLibrary)

include hchain hframe

/-- What a node does behind its start. -/
theorem started_grows (h : NodeHandle) (x : GraphNode) (hx : frame.graph.node? h = some x) :
    Exec.Grows 0 more (do
      frame.announce (.nodeStarted frame.dispatchId x.guid x.type)
      let result ← ((Site.mk frame h).execute chain x.behavior).attempt
      frame.conclude x.guid result) := by
  have hbuiltin := (hframe.graph.network h x hx).1
  have hroutine := (Site.mk frame h).execute_routine chain chain x.behavior hbuiltin
  have hexecute := hroutine.grows fun inner start hreach => hchain inner start (hreach.all hframe)
  refine .andThen (frame.announce_grows _ more) fun _ => ?_
  exact .andThen hexecute.attempt fun result => frame.conclude_grows x.guid result more

theorem invoke_grows (h : NodeHandle) : (frame.invoke chain h).Grows 1 (more + 1) := by
  unfold invoke
  cases hx : frame.graph.node? h with
  | none => exact .fail _
  | some x =>
    refine .andThen (frame.count_grows (more + 1)) fun _ => ?_
    exact (started_grows hchain hframe h x hx).listed x.guid

theorem runNode_grows (h : NodeHandle) : (frame.runNode chain h).Grows 1 (more + 1) := by
  have hinvoke := invoke_grows hchain hframe
  unfold runNode clearNext
  refine .andThen (.modify fun _ => rfl) fun _ => ?_
  refine .andThen (.ofResult _) fun path => ?_
  refine .andThen (.forEach path fun m _ => (hinvoke m).weaken le_rfl) fun _ => ?_
  refine .andThen (.modify fun _ => rfl) fun _ => ?_
  refine .started (hinvoke h) fun _ => ?_
  refine .andThen (.read _) fun next => ?_
  exact .andThen (.modify fun _ => rfl) fun _ => .pure next

omit hchain hframe in
/-- A chain that is cut off has used up its fuel, one node for each unit. -/
theorem runChain_grows (fuel : Nat) : ChainGrows fuel (runChain fuel) := by
  induction fuel with
  | zero => exact fun frame h _ s => ⟨List.prefix_rfl, by simp⟩
  | succ fuel ih =>
    intro frame h hframe
    refine (Exec.Grows.started (runNode_grows ih hframe h) fun next => ?_).weaken le_rfl
    cases next with
    | none => exact .pure ()
    | some k => exact ih frame k hframe

end Frame

/-! ## Section 4: Dispatches -/

namespace Dispatch

theorem conclude_grows (graph dispatchId entry : String) (result : Except GraphError Unit)
    (more : Nat) : (conclude graph dispatchId entry result).Grows 0 more := by
  cases result with
  | ok _ =>
    refine .andThen (.read _) fun steps => ?_
    exact .andThen (.modify fun _ => rfl) fun _ => .read _
  | error e =>
    refine .andThen (.modify fun _ => rfl) fun _ => ?_
    exact .andThen (.modify fun _ => rfl) fun _ => .fail e

/-- A dispatch that is cut off has started as many nodes as it had fuel. -/
theorem start_grows (fuel : Nat) (engine : Engine) (g : Graph) (r : DispatchRequest) (s : Store)
    (hnodes : g.All Network.OfLibrary) (hlibrary : ∀ f ∈ engine.library, f.2.All Network.OfLibrary) :
    (start fuel engine g r s).Grows 0 fuel [] := by
  unfold start
  split
  · exact List.nil_prefix
  · split
    · exact List.nil_prefix
    · rename_i entry _
      let frame := frameOf engine g r s
      have hrun : (run fuel frame entry).Grows 0 fuel := by
        refine .andThen (.modify fun _ => rfl) fun _ => ?_
        refine .andThen (Frame.runChain_grows fuel frame entry ⟨hnodes, hlibrary⟩).attempt ?_
        exact fun result => conclude_grows _ _ _ result fuel
      exact hrun ⟨s.freshDispatch.2, 0, #[], none, r.effectivePayload.returned⟩

end Dispatch
end FlowGraph
