import FlowGraph.Proofs.Dispatch.Cutting
import FlowGraph.Proofs.Dispatch.Trace

/-! # Limits on steps

    A limit on steps only cuts a dispatch short (`Dispatch.limit_cuts`).  If the dispatch
    starts no more nodes without the limit, it does the same with it.  Else it starts the
    first `limit` nodes, fails for the limit, and leaves every value as it was where the next
    node would have started.

    The second part compares the limited dispatch with the unlimited one that is stopped
    (`Process.Stops`): no node of the library goes on after an error of a chain that it
    runs, so the error is passed on to the end, and on the way only reports are made. -/

namespace FlowGraph

variable {α β : Type}

/-- The two states have started the same nodes and hold the same values; only what was
    reported may differ, and what belongs to the chain under way. -/
def DispatchState.SameValues (s t : DispatchState) : Prop :=
  t.trace = s.trace ∧ t.store = { s.store with events := t.store.events, log := t.store.log }

theorem DispatchState.SameValues.trans {s t u : DispatchState} (hst : s.SameValues t)
    (htu : t.SameValues u) : s.SameValues u := by
  refine ⟨htu.1.trans hst.1, htu.2.trans ?_⟩
  rw [hst.2]

/-- The result is not the error of a limit on steps. -/
def Spared (result : Except GraphError α) : Prop := ∀ e, result = .error e → e.isStepLimit = false

theorem spared_ok (a : α) : Spared (.ok a : Except GraphError α) := by
  intro e h
  cases h

theorem spared_error (e : GraphError) (he : e.isStepLimit = false) :
    Spared (.error e : Except GraphError α) := by
  intro e' h
  cases h
  exact he

/-- Waits end as the scheduler lets them end. -/
def Scheduled (result : Except GraphError Unit) : Prop :=
  result = .ok () ∨ result = .error .cancelled

theorem Scheduled.spared {result : Except GraphError Unit} (h : Scheduled result) :
    Spared result := by
  rcases h with rfl | rfl
  · exact spared_ok ()
  · exact spared_error _ rfl

theorem Scheduler.scheduled_of_start (s : Scheduler) (key : WaitKey)
    (result : Except GraphError Unit) (h : (s.start key).1 = some result) : Scheduled result := by
  unfold start at h
  split at h
  · cases h
  · split at h
    · cases h
      exact .inr rfl
    · split at h
      · split at h
        · cases h
          exact .inl rfl
        · cases h
      · cases h
        exact .inl rfl
      · cases h

/-! ## Section 1: Processes with a limit -/

namespace Process

/-- The second process is the first one, except that it fails for the limit where the first one
    stands still. -/
inductive Stops (limit : Nat) : Process α → Process α → Prop where
  | done (result : Except GraphError α) (s : DispatchState) (hresult : Spared result) :
      Stops limit (.done result s) (.done result s)
  | waiting (key : WaitKey) (s : DispatchState)
      (resume resume' : Except GraphError Unit → Store → Process α)
      (hrest : ∀ result store, Scheduled result →
        Stops limit (resume result store) (resume' result store)) :
      Stops limit (.waiting key s resume) (.waiting key s resume')
  | exhausted (s : DispatchState) : Stops limit (.exhausted s) (.exhausted s)
  | failed (s t : DispatchState) (hsame : s.SameValues t) :
      Stops limit (.exhausted s) (.done (.error (.stepLimitExceeded limit)) t)

variable {limit : Nat}

theorem Stops.bind {p q : Process α} {f g : α → DispatchState → Process β} (h : p.Stops limit q)
    (hf : ∀ a s, (f a s).Stops limit (g a s)) : (p.bind f).Stops limit (q.bind g) := by
  induction h with
  | done result s hresult =>
    cases result with
    | error e => exact .done _ s (spared_error e (hresult e rfl))
    | ok a => exact hf a s
  | waiting key s resume resume' _ ih => exact .waiting key s _ _ ih
  | exhausted s => exact .exhausted s
  | failed s t hsame => exact .failed s t hsame

/-- Steps that follow whichever way the first ones end pass the error of the limit on. -/
theorem Stops.after {p q : Process α} {f g : Except GraphError α → DispatchState → Process β}
    (h : p.Stops limit q) (hf : ∀ result s, Spared result → (f result s).Stops limit (g result s))
    (hlimit : ∀ s, ∃ t, s.SameValues t ∧ g (.error (.stepLimitExceeded limit)) s
      = .done (.error (.stepLimitExceeded limit)) t) :
    (p.attempt.bind f).Stops limit (q.attempt.bind g) := by
  induction h with
  | done result s hresult => exact hf result s hresult
  | waiting key s resume resume' _ ih => exact .waiting key s _ _ ih
  | exhausted s => exact .exhausted s
  | failed s t hsame =>
    obtain ⟨u, hlater, heq⟩ := hlimit t
    show (Process.exhausted s : Process β).Stops limit (g (.error (.stepLimitExceeded limit)) t)
    rw [heq]
    exact .failed s u (hsame.trans hlater)

theorem Stops.resumed {p q : Process α} (h : p.Stops limit q) (answers : List Answer)
    (hanswers : ∀ a ∈ answers, Scheduled a.1) :
    (p.resumed answers).Stops limit (q.resumed answers) := by
  induction h generalizing answers with
  | done result s hresult => exact .done result s hresult
  | waiting key s resume resume' hrest ih =>
    cases answers with
    | nil => exact .waiting key s resume resume' hrest
    | cons answer rest =>
      exact ih answer.1 answer.2 (hanswers answer List.mem_cons_self) rest
        fun a ha => hanswers a (List.mem_cons_of_mem answer ha)
  | exhausted s => exact .exhausted s
  | failed s t hsame => exact .failed s t hsame

/-- Both have ended in the same way, or wait for the same, in the same state. -/
inductive SameStage : Process α → Process α → Prop where
  | done (result : Except GraphError α) (s : DispatchState) :
      SameStage (.done result s) (.done result s)
  | waiting (key : WaitKey) (s : DispatchState)
      (resume resume' : Except GraphError Unit → Store → Process α) :
      SameStage (.waiting key s resume) (.waiting key s resume')

end Process

/-! ## Section 2: Steps with a limit -/

namespace Exec

/-- From every state the second computation is the first one with the limit. -/
def Stops (limit : Nat) (x y : Exec α) : Prop := ∀ s, (x s).Stops limit (y s)

variable {limit : Nat}

theorem Stops.pure (a : α) : Stops limit (Pure.pure a) (Pure.pure a) :=
  fun s => .done _ s (spared_ok a)

theorem Stops.fail (e : GraphError) (he : e.isStepLimit = false) :
    Stops limit (Exec.fail e : Exec α) (Exec.fail e) :=
  fun s => .done _ s (spared_error e he)

theorem Stops.read (f : DispatchState → α) : Stops limit (Exec.read f) (Exec.read f) :=
  fun s => .done _ s (spared_ok _)

theorem Stops.modify (f : DispatchState → DispatchState) :
    Stops limit (Exec.modify f) (Exec.modify f) :=
  fun s => .done _ (f s) (spared_ok ())

theorem Stops.bind {x y : Exec α} {f g : α → Exec β} (hx : Stops limit x y)
    (hf : ∀ a, Stops limit (f a) (g a)) : Stops limit (x >>= f) (y >>= g) :=
  fun s => Process.Stops.bind (hx s) fun a t => hf a t

theorem Stops.after {x y : Exec α} {f g : Except GraphError α → Exec β} (hx : Stops limit x y)
    (hf : ∀ result, Spared result → Stops limit (f result) (g result))
    (hlimit : ∀ s, ∃ t, s.SameValues t ∧ g (.error (.stepLimitExceeded limit)) s
      = .done (.error (.stepLimitExceeded limit)) t) :
    Stops limit (x.attempt >>= f) (y.attempt >>= g) :=
  fun s => Process.Stops.after (hx s) (fun result t h => hf result h t) hlimit

theorem Stops.ofResult (result : Except GraphError α) (h : Spared result) :
    Stops limit (Exec.ofResult result) (Exec.ofResult result) := by
  cases result with
  | ok a => exact .pure a
  | error e => exact .fail e (h e rfl)

theorem Stops.forEach (xs : List β) {f g : β → Exec Unit}
    (hf : ∀ x ∈ xs, Stops limit (f x) (g x)) :
    Stops limit (Exec.forEach xs f) (Exec.forEach xs g) := by
  induction xs with
  | nil => exact .pure ()
  | cons x rest ih =>
    refine .bind (hf x List.mem_cons_self) fun _ => ?_
    exact ih fun y hy => hf y (List.mem_cons_of_mem x hy)

theorem Stops.await (key : WaitKey) : Stops limit (Exec.await key) (Exec.await key) := by
  intro s
  unfold Exec.await
  dsimp only
  cases hstart : (s.store.scheduler.start key).1 with
  | some result => exact .done result _ (s.store.scheduler.scheduled_of_start key result hstart).spared
  | none => exact .waiting key _ _ _ fun result store hresult => .done result _ hresult.spared

end Exec

/-! ## Section 3: Nodes and chains -/

/-- A node passes the error of the limit on. -/
theorem Site.Routine.stops {site : Site} {chain chain' : Chain} {limit : Nat} {x y : Exec α}
    (h : Routine site chain chain' x y) (hchain : ∀ frame start, site.Reaches frame →
      Exec.Stops limit (chain frame start) (chain' frame start)) : Exec.Stops limit x y := by
  induction h with
  | pure a => exact .pure a
  | fail e he => exact .fail e he
  | read f _ => exact .read f
  | modify f _ => exact .modify f
  | message text => exact .modify _
  | await key => exact .await key
  | look f _ k k' _ ih => exact fun s => ih s s
  | bind x y k k' _ _ ihx ihk => exact .bind ihx ihk
  | enclosed part restore _ hrestore hstore x y _ ih =>
    refine .bind (.read part) fun kept => ?_
    refine .after ih (fun result hresult => ?_) fun s => ?_
    · exact .bind (.modify _) fun _ => .ofResult result hresult
    · -- what is put back is no value
      refine ⟨restore kept s, ⟨?_, ?_⟩, rfl⟩
      · exact congrArg Ledger.trace ((hrestore kept).ledger s)
      · rw [hstore]
  | chain frame start hreach => exact hchain frame start hreach

/-- The engine with another limit on steps. -/
def Engine.withSteps (limit : Option Nat) (e : Engine) : Engine :=
  { e with config := { e.config with maxChainSteps := limit } }

/-- The frame with such an engine. -/
def Frame.withSteps (limit : Option Nat) (frame : Frame) : Frame :=
  { frame with engine := frame.engine.withSteps limit }

/-- The chains in such frames. -/
def Chain.withSteps (limit : Option Nat) (chain : Chain) : Chain :=
  fun frame h => chain (frame.withSteps limit) h

theorem Site.execute_withSteps (limit : Option Nat) (chain : Chain) (frame : Frame)
    (h : NodeHandle) (b : Behavior) (hb : b.isBuiltin = true) :
    (Site.mk (frame.withSteps limit) h).execute chain b
      = (Site.mk frame h).execute (chain.withSteps limit) b :=
  @execute_changed (fun c => { c with maxChainSteps := limit }) (fun _ => rfl) chain frame h b hb

namespace Frame

variable {limit : Nat}

theorem announce_stops (frame : Frame) (event : GraphEvent) :
    Exec.Stops limit (frame.announce event) (frame.announce event) := by
  unfold announce
  split
  · exact .modify _
  · exact .pure ()

/-- Where the one stands still the other one fails. -/
theorem count_stops (frame : Frame) :
    Exec.Stops limit (stopAt limit frame) (frame.withSteps (some limit)).count := by
  intro s
  have hcount : (frame.withSteps (some limit)).count s = (if limit < s.steps + 1 then
      Exec.fail (.stepLimitExceeded limit) else Pure.pure () : Exec Unit)
        { s with steps := s.steps + 1 } := rfl
  rw [hcount]
  unfold stopAt
  by_cases hlimit : s.steps < limit
  · rw [if_pos hlimit, if_neg (by omega)]
    exact .done _ _ (spared_ok ())
  · rw [if_neg hlimit, if_pos (by omega)]
    exact .failed s _ ⟨rfl, rfl⟩

/-- A node that fails for the limit reports it and fails for it. -/
theorem conclude_stops (frame : Frame) (guid : String) {x y : Exec Unit}
    (h : Exec.Stops limit x y) :
    Exec.Stops limit (x.attempt >>= frame.conclude guid) (y.attempt >>= frame.conclude guid) := by
  refine .after h (fun result hresult => ?_) fun s => ?_
  · cases result with
    | ok _ => exact frame.announce_stops _
    | error e =>
      refine .bind (.modify _) fun _ => ?_
      exact .bind (.modify _) fun _ => .fail e (hresult e rfl)
  · refine ⟨_, ?_, rfl⟩
    exact ⟨rfl, rfl⟩

/-- Chains of nodes of the library that stand still, and the same chains with the limit. -/
def ChainStops (limit : Nat) (chain chain' : Chain) : Prop :=
  ∀ frame h, frame.All Network.OfLibrary →
    Exec.Stops limit (chain frame h) (chain' (frame.withSteps (some limit)) h)

variable {chain chain' : Chain} (hchain : ChainStops limit chain chain') {frame : Frame}
  (hframe : frame.All Network.OfLibrary)

include hchain hframe

theorem invoke_stops (h : NodeHandle) :
    Exec.Stops limit (frame.invokeBy (stopAt limit) chain h)
      ((frame.withSteps (some limit)).invoke chain' h) := by
  have hsame : (frame.withSteps (some limit)).graph.node? h = frame.graph.node? h := rfl
  unfold invokeBy invoke
  rw [hsame]
  cases hx : frame.graph.node? h with
  | none => exact .fail _ rfl
  | some x =>
    have hbuiltin := (hframe.graph.network h x hx).1
    have hroutine := (Site.mk frame h).execute_routine chain (chain'.withSteps (some limit))
      x.behavior hbuiltin
    have hexecute := hroutine.stops fun inner start hreach => hchain inner start (hreach.all hframe)
    refine .bind frame.count_stops fun _ => ?_
    refine .bind (.modify _) fun _ => ?_
    refine .bind (frame.announce_stops _) fun _ => ?_
    rw [Site.execute_withSteps (some limit) chain' frame h x.behavior hbuiltin]
    exact frame.conclude_stops x.guid hexecute

theorem runNode_stops (h : NodeHandle) :
    Exec.Stops limit (frame.runNodeBy (stopAt limit) chain h)
      ((frame.withSteps (some limit)).runNode chain' h) := by
  have hinvoke := invoke_stops hchain hframe
  have hpath : Exec.Stops limit (Exec.ofResult (frame.graph.dependencyPath h))
      (Exec.ofResult (frame.graph.dependencyPath h)) := by
    refine .ofResult _ fun e he => ?_
    unfold Network.dependencyPath at he
    split at he
    · cases he
      rfl
    · split at he
      · cases he
        rfl
      · cases he
  refine .bind (.modify _) fun _ => ?_
  refine .bind hpath fun path => ?_
  refine .bind (.forEach path fun m _ => hinvoke m) fun _ => ?_
  refine .bind (.modify _) fun _ => ?_
  refine .bind (hinvoke h) fun _ => ?_
  refine .bind (.read _) fun next => ?_
  exact .bind (.modify _) fun _ => .pure next

omit hchain hframe in
theorem runChain_stops (limit fuel : Nat) :
    ChainStops limit (runChainBy (stopAt limit) fuel) (runChain fuel) := by
  induction fuel with
  | zero => exact fun frame h _ s => .exhausted s
  | succ fuel ih =>
    intro frame h hframe
    refine .bind (runNode_stops ih hframe h) fun next => ?_
    cases next with
    | none => exact .pure ()
    | some k => exact ih frame k hframe

end Frame

/-! ## Section 4: Dispatches -/

namespace Dispatch

theorem conclude_stops (limit : Nat) (graph dispatchId entry : String) {x y : Exec Unit}
    (h : Exec.Stops limit x y) :
    Exec.Stops limit (x.attempt >>= conclude graph dispatchId entry)
      (y.attempt >>= conclude graph dispatchId entry) := by
  refine .after h (fun result hresult => ?_) fun s => ?_
  · cases result with
    | ok _ =>
      refine .bind (.read _) fun steps => ?_
      exact .bind (.modify _) fun _ => .read _
    | error e =>
      refine .bind (.modify _) fun _ => ?_
      exact .bind (.modify _) fun _ => .fail e (hresult e rfl)
  · refine ⟨_, ?_, rfl⟩
    exact ⟨rfl, rfl⟩

/-- A dispatch with a limit fails where the one that is stopped stands still. -/
theorem start_stops (limit fuel : Nat) (engine : Engine) (g : Graph) (r : DispatchRequest)
    (s : Store) (hnodes : g.All Network.OfLibrary)
    (hlibrary : ∀ f ∈ engine.library, f.2.All Network.OfLibrary) :
    (startBy (Frame.stopAt limit) fuel engine g r s).Stops limit
      (start fuel (engine.withSteps (some limit)) g r s) := by
  unfold startBy start
  split
  · exact .done _ _ (spared_error _ rfl)
  · cases r.entry.find? g.toNetwork with
    | none => exact .done _ _ (spared_error _ rfl)
    | some entry =>
      let frame := frameOf engine g r s
      have hrun : Exec.Stops limit (runBy (Frame.stopAt limit) fuel frame entry)
          (run fuel (frame.withSteps (some limit)) entry) := by
        refine .bind (.modify _) fun _ => ?_
        exact conclude_stops limit _ _ _
          (Frame.runChain_stops limit fuel frame entry ⟨hnodes, hlibrary⟩)
      exact hrun _

/-- **Main theorem: limits only cut.**  Take a dispatch of nodes of the library, once without
    a limit on steps, once with one, and any answers to its waits that a scheduler may
    give.  As long as the free dispatch has started no more nodes than the limit, the limited
    one is at the same stage.  Beyond that, it has started the first `limit` nodes and has
    failed for the limit, and all values are what they were where the free dispatch was about
    to start the next node.  There is enough fuel if there is more than the limit. -/
theorem limit_cuts (limit fuel : Nat) (engine : Engine) (g : Graph) (r : DispatchRequest)
    (s : Store) (answers : List Answer) (hnodes : g.All Network.OfLibrary)
    (hlibrary : ∀ f ∈ engine.library, f.2.All Network.OfLibrary) (hfuel : limit < fuel)
    (hanswers : ∀ a ∈ answers, Scheduled a.1) :
    let free := (start fuel (engine.withSteps none) g r s).resumed answers
    let stopped := (startBy (Frame.stopAt limit) fuel (engine.withSteps none) g r s).resumed answers
    let limited := (start fuel (engine.withSteps (some limit)) g r s).resumed answers
    (free.state.trace.size ≤ limit → limited.SameStage free) ∧
    (limit < free.state.trace.size → ∃ t u, stopped = .exhausted t ∧
      limited = .done (.error (.stepLimitExceeded limit)) u ∧ t.SameValues u ∧
      u.trace.toList = free.state.trace.toList.take limit) ∧
    (limited.result? = some (.error (.stepLimitExceeded limit)) ↔
      limit < free.state.trace.size) := by
  intro free stopped limited
  have hcuts : free.Cuts limit stopped := (start_cuts limit fuel (engine.withSteps none) g r s rfl
    hnodes hlibrary).resumed answers
  have hstops : stopped.Stops limit limited := (start_stops limit fuel (engine.withSteps none) g r s
    hnodes hlibrary).resumed answers hanswers
  have hgrows : limited.Grows 0 fuel [] := (start_grows fuel (engine.withSteps (some limit)) g r s
    hnodes hlibrary).resumed answers
  have hfree : free.Grows 0 fuel [] := (start_grows fuel (engine.withSteps none) g r s
    hnodes hlibrary).resumed answers
  clear_value free stopped limited
  -- where the free dispatch stands decides which of the two cases it is
  cases hcuts with
  | done result s hs =>
    have hle : s.trace.size ≤ limit := hs.le
    cases hstops with
    | done _ _ hresult =>
      refine ⟨fun _ => .done result s, fun hmore => absurd hmore (Nat.not_lt.2 hle), ?_⟩
      constructor
      · intro herror
        cases hresult _ (Option.some.inj herror)
      · exact fun hmore => absurd hmore (Nat.not_lt.2 hle)
  | waiting key s resume resume' hs hrest =>
    have hle : s.trace.size ≤ limit := hs.le
    cases hstops with
    | waiting _ _ _ resume'' hrest' =>
      refine ⟨fun _ => .waiting key s _ _, fun hmore => absurd hmore (Nat.not_lt.2 hle), ?_⟩
      constructor
      · intro herror
        cases herror
      · exact fun hmore => absurd hmore (Nat.not_lt.2 hle)
  | exhausted s hs =>
    -- the fuel has paid for more nodes than that
    have hle : s.trace.size ≤ limit := hs.le
    have hpaid : 0 + fuel ≤ s.trace.size := hfree.2
    omega
  | stopped _ s guid hs hgoes =>
    have hprefix : s.trace.toList ++ [guid] <+: free.state.trace.toList := hgoes.isPrefix
    have hlength : s.trace.size + 1 ≤ free.state.trace.size := by simpa using hprefix.length_le
    have hmore : limit < free.state.trace.size := by omega
    cases hstops with
    | exhausted _ =>
      have hpaid : 0 + fuel ≤ s.trace.size := hgrows.2
      omega
    | failed _ u hsame =>
      refine ⟨fun hle => absurd hmore (Nat.not_lt.2 hle), fun _ => ⟨s, u, rfl, rfl, hsame, ?_⟩, ?_⟩
      · rw [hsame.1]
        obtain ⟨rest, hrest⟩ := hprefix
        rw [← hrest, List.append_assoc, ← hs, ← Array.length_toList, List.take_left]
      · exact ⟨fun _ => hmore, fun _ => rfl⟩

/-- With a limit of five, the greeting is cut inside of the function that it calls. -/
theorem limit_cuts_greeting :
    let g := greetingState.1
    let s := greetingState.2
    let r : DispatchRequest := { entry := .event "go" }
    ∃ u, start 10 (Engine.withSteps (some 5) {}) g r s
        = .done (.error (.stepLimitExceeded 5)) u ∧
      u.trace.toList = ["go", "each", "text", "say", "call"] := by
  intro g s r
  have htrace : (start 10 (Engine.withSteps none {}) g r s).state.trace.toList
      = ["go", "each", "text", "say", "call", "asked"] := by decide +kernel
  obtain ⟨_, hnodes⟩ := Graph.built_ofLibrary greeting .standard default
  have hcuts := limit_cuts 5 10 {} g r s [] hnodes (List.forall_mem_nil _) (by decide)
    (List.forall_mem_nil _)
  simp only [Process.resumed_nil] at hcuts
  generalize start 10 (Engine.withSteps none {}) g r s = free at htrace hcuts
  obtain ⟨_, hcut, _⟩ := hcuts
  have hmore : 5 < free.state.trace.size := by
    rw [← Array.length_toList, htrace]
    decide
  obtain ⟨t, u, _, hlimited, _, hfirst⟩ := hcut hmore
  refine ⟨u, hlimited, ?_⟩
  rw [hfirst, htrace]
  rfl

end Dispatch
end FlowGraph
