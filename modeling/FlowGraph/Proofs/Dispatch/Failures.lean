import FlowGraph.Proofs.Dispatch.Answers
import FlowGraph.Proofs.Dispatch.Reach
import FlowGraph.Proofs.Graph.Complete

/-! # How a dispatch fails

    A dispatch comes to the functions of its graph and of the library, and runs them only if
    they are compiled (`Frame.InScope`).  Such a graph is complete, so that a chain goes from
    nodes to nodes: what a node of the library selects is a node of the same graph.

    Therefore a dispatch can only fail for what its nodes do (`Dispatch.Failure`): for a
    limit, a wait, a scheduler that is missing, or a call of a function that is not there,
    cannot be run, or has no entry of its name (`Frame.runChain_meets`). -/

namespace FlowGraph

variable {α β : Type}

/-! ## Section 1: Results and errors -/

namespace Process

/-- However the waits are answered, as far as the answers are allowed, a result meets one
    condition and an error the other one. -/
def Meets (allowed : Except GraphError Unit → Prop) (P : GraphError → DispatchState → Prop)
    (Q : α → DispatchState → Prop) : Process α → Prop
  | .done (.ok a) s => Q a s
  | .done (.error e) s => P e s
  | .waiting _ _ resume => ∀ result store, allowed result → (resume result store).Meets allowed P Q
  | .exhausted _ => True

variable {allowed : Except GraphError Unit → Prop} {P : GraphError → DispatchState → Prop}
  {Q : α → DispatchState → Prop} {R : β → DispatchState → Prop}

theorem Meets.bind {p : Process α} {f : α → DispatchState → Process β} (h : p.Meets allowed P Q)
    (hf : ∀ a s, Q a s → (f a s).Meets allowed P R) : (p.bind f).Meets allowed P R := by
  induction p with
  | done result s =>
    cases result with
    | ok a => exact hf a s h
    | error e => exact h
  | waiting key s resume ih => exact fun result store ha => ih _ _ (h result store ha)
  | exhausted s => trivial

/-- Steps that follow whichever way the first ones end. -/
theorem Meets.attempt_bind {p : Process α} {f : Except GraphError α → DispatchState → Process β}
    (h : p.Meets allowed P Q) (hok : ∀ a s, Q a s → (f (.ok a) s).Meets allowed P R)
    (herror : ∀ e s, P e s → (f (.error e) s).Meets allowed P R) :
    (p.attempt.bind f).Meets allowed P R := by
  induction p with
  | done result s =>
    cases result with
    | ok a => exact hok a s h
    | error e => exact herror e s h
  | waiting key s resume ih => exact fun result store ha => ih _ _ (h result store ha)
  | exhausted s => trivial

theorem Meets.resumed {p : Process α} (h : p.Meets allowed P Q) (answers : List Answer)
    (hanswers : ∀ a ∈ answers, allowed a.1) : (p.resumed answers).Meets allowed P Q := by
  induction p generalizing answers with
  | done result s => exact h
  | waiting key s resume ih =>
    cases answers with
    | nil => exact h
    | cons answer rest =>
      rw [List.forall_mem_cons] at hanswers
      exact ih answer.1 answer.2 (h _ _ hanswers.1) rest hanswers.2
  | exhausted s => exact h

/-- Steps that follow matter for what the first ones can return only. -/
theorem Meets.bind_congr {p : Process α} {f k : α → DispatchState → Process β}
    (h : p.Meets (fun _ => True) P Q) (hf : ∀ a s, Q a s → f a s = k a s) :
    p.bind f = p.bind k := by
  induction p with
  | done result s =>
    cases result with
    | ok a => exact hf a s h
    | error e => rfl
  | waiting key s resume ih =>
    show waiting key s (fun result store => (resume result store).bind f)
      = waiting key s fun result store => (resume result store).bind k
    congr 1
    funext result store
    exact ih result store (h result store trivial)
  | exhausted s => rfl

end Process

/-! ## Section 2: The graphs of a dispatch -/

/-- The graph is kept in order, and has nodes of the library. -/
structure Graph.Usable (f : Graph) : Prop where
  kept : f.Kept
  builtin : ∀ h x, f.node? h = some x → x.behavior.isBuiltin = true

namespace Dispatch

/-- The graphs that a dispatch can come to: functions of the graph and of the library, at all
    depths. -/
def Scope (engine : Engine) (g f : Graph) : Prop := f.Within g ∨ ∃ e ∈ engine.library, f.Within e.2

end Dispatch

open Dispatch

/-- The frame is one of a dispatch, with a compiled graph. -/
structure Frame.InScope (engine : Engine) (g : Graph) (frame : Frame) : Prop where
  engine_eq : frame.engine = engine
  graph : Scope engine g frame.graph
  compiled : frame.graph.compiled = true

namespace Dispatch

theorem inScope_frameOf (engine : Engine) (g : Graph) (r : DispatchRequest) (s : Store)
    (hrun : g.isRunnable s = true) : (frameOf engine g r s).InScope engine g :=
  ⟨rfl, .inl .self, ((Bool.and_eq_true _ _).mp hrun).1⟩

/-- An entry is a node. -/
theorem live_of_find? (entry : Entry) (n : Network) (h : NodeHandle) (hfound : entry.find? n = some h) :
    n.Live h := by
  cases entry with
  | event name => exact n.live_of_findEntry name h hfound
  | node guid => exact n.live_of_handleOf guid h hfound

end Dispatch

namespace Site

variable {engine : Engine} {g : Graph} {site : Site}

/-- A function that a node finds is one of the dispatch. -/
theorem scope_function? (hsite : site.frame.InScope engine g) (name : String) (f : Graph)
    (hf : site.function? name = some f) : Scope engine g f := by
  unfold function? at hf
  cases hlocal : site.frame.graph.function? name with
  | some k =>
    rw [hlocal] at hf
    cases hf
    obtain ⟨e, he, rfl⟩ := Option.map_eq_some_iff.mp hlocal
    have hwithin : e.2.Within site.frame.graph :=
      .function _ e (List.mem_of_find?_eq_some he) .self
    rcases hsite.graph with hg | ⟨l, hl, hg⟩
    · exact .inl (hwithin.trans hg)
    · exact .inr ⟨l, hl, hwithin.trans hg⟩
  | none =>
    rw [hlocal, Option.none_or, hsite.engine_eq] at hf
    obtain ⟨e, he, rfl⟩ := Option.map_eq_some_iff.mp hf
    exact .inr ⟨e, List.mem_of_find?_eq_some he, .self⟩

/-- What can be called was found, can be run, and has the entry. -/
theorem callee_eq_ok (name : String) (s : Store) (f : Graph) (entry : NodeHandle)
    (h : site.callee name s = .ok (f, entry)) :
    site.function? name = some f ∧ f.isRunnable s = true ∧ f.findEntry name = some entry := by
  unfold callee at h
  split at h
  · cases h
  · rename_i k hk
    split at h
    · cases h
    · rename_i hrun
      split at h
      · cases h
      · rename_i m hm
        split at h
        · cases h
        · cases h
          exact ⟨hk, by simpa using hrun, hm⟩

theorem inScope_callFrame (hsite : site.frame.InScope engine g) (name : String) (s : Store)
    (f : Graph) (entry : NodeHandle) (call : EventCall)
    (h : site.callee name s = .ok (f, entry)) : (site.callFrame f call).InScope engine g := by
  obtain ⟨hf, hrun, _⟩ := callee_eq_ok name s f entry h
  exact ⟨hsite.engine_eq, scope_function? hsite name f hf, ((Bool.and_eq_true _ _).mp hrun).1⟩

/-- The successor at a control output is a node. -/
theorem live_of_successor (htargets : site.frame.graph.toNetwork.TargetsLive) (name : String)
    (index : Nat) (k : NodeHandle) (h : site.successor name index = some k) :
    site.frame.graph.toNetwork.Live k := by
  obtain ⟨p, hp, hk⟩ := Option.bind_eq_some_iff.mp h
  obtain ⟨a, _, hport⟩ := Option.bind_eq_some_iff.mp hp
  obtain ⟨x, hx, hget⟩ := (Network.port?_eq_some_iff _ a p).mp hport
  exact htargets a.node x hx p (List.mem_of_getElem? hget) k hk

end Site

/-! ## Section 3: Failures -/

namespace Dispatch

/-- How the scheduler answers a wait. -/
def IsAnswer (result : Except GraphError Unit) : Prop := result = .ok () ∨ result = .error .cancelled

/-- A node that was started calls a function of the name. -/
def Called (engine : Engine) (g : Graph) (s : DispatchState) (name : String)
    (callee : Option Graph) : Prop :=
  ∃ k h x, Scope engine g k ∧ k.node? h = some x ∧ x.behavior = .invokeFunction name ∧
    x.guid ∈ s.trace.toList ∧ (k.function? name).or (engine.function? name) = callee

/-- The ways in which a dispatch of nodes of the library fails. -/
inductive Failure (allowed : Except GraphError Unit → Prop) (engine : Engine) (g : Graph) :
    GraphError → DispatchState → Prop where
  | steps (limit : Nat) (s : DispatchState) : Failure allowed engine g (.stepLimitExceeded limit) s
  | depth (limit : Nat) (s : DispatchState) : Failure allowed engine g (.forwardDepthExceeded limit) s
  | noScheduler (s : DispatchState) :
      Failure allowed engine g (.executionFailed "no scheduler registered for Delay") s
  | cancelled (s : DispatchState) : Failure allowed engine g .cancelled s
  /-- A wait was answered with an error. -/
  | answered (e : GraphError) (he : allowed (.error e)) (s : DispatchState) : Failure allowed engine g e s
  | unknownFunction (name : String) (s : DispatchState) (h : Called engine g s name none) :
      Failure allowed engine g (.unknownFunction name) s
  | notCompiled (name : String) (f : Graph) (s : DispatchState)
      (h : Called engine g s name (some f)) (hf : f.isRunnable s.store = false) :
      Failure allowed engine g (.notCompiled f.name) s
  | unknownEntry (name : String) (f : Graph) (s : DispatchState)
      (h : Called engine g s name (some f)) (hf : f.findEntry name = none) :
      Failure allowed engine g (.unknownEntry ("function '" ++ name ++ "'")) s

/-- What holds of the chains in all frames of a dispatch. -/
def ChainMeets (allowed : Except GraphError Unit → Prop) (engine : Engine) (g : Graph)
    (chain : Chain) : Prop :=
  ∀ frame h, frame.InScope engine g → frame.graph.toNetwork.Live h → ∀ s,
    (chain frame h s).Meets allowed (Failure allowed engine g) fun _ _ => True

/-- What was started stays started, and no graph is marked. -/
structure Later (s t : DispatchState) : Prop where
  marks : t.store.marks = s.store.marks
  trace : t.trace = s.trace

variable {allowed : Except GraphError Unit → Prop} {engine : Engine} {g : Graph}
  {s t : DispatchState}

theorem Called.later {name : String} {callee : Option Graph} (h : Called engine g s name callee)
    (hst : Later s t) : Called engine g t name callee := by
  obtain ⟨k, m, x, hk, hx, hb, htraced, hcallee⟩ := h
  exact ⟨k, m, x, hk, hx, hb, hst.trace ▸ htraced, hcallee⟩

theorem Failure.later {e : GraphError} (h : Failure allowed engine g e s) (hst : Later s t) :
    Failure allowed engine g e t := by
  cases h with
  | steps limit => exact .steps limit t
  | depth limit => exact .depth limit t
  | noScheduler => exact .noScheduler t
  | cancelled => exact .cancelled t
  | answered _ he => exact .answered e he t
  | unknownFunction name _ hcalls => exact .unknownFunction name t (hcalls.later hst)
  | notCompiled name f _ hcalls hf =>
    refine .notCompiled name f t (hcalls.later hst) ?_
    unfold Graph.isRunnable at hf ⊢
    rw [Store.isDisposed_congr hst.marks]
    exact hf
  | unknownEntry name f _ hcalls hf => exact .unknownEntry name f t (hcalls.later hst) hf

end Dispatch

/-! ## Section 4: Steps of a node -/

/-- What is selected is a node. -/
def Network.NextLive (n : Network) (s : DispatchState) : Prop := ∀ k, s.next = some k → n.Live k

namespace Exec

/-- The computation fails in such ways only, and selects nodes. -/
def Leads (allowed : Except GraphError Unit → Prop) (P : GraphError → DispatchState → Prop)
    (n : Network) (x : Exec α) : Prop :=
  ∀ s, n.NextLive s → (x s).Meets allowed P fun _ t => n.NextLive t

variable {allowed : Except GraphError Unit → Prop} {P : GraphError → DispatchState → Prop}
  {n : Network}

theorem Leads.pure (a : α) : Leads allowed P n (Pure.pure a) := fun _ hs => hs

theorem Leads.fail (e : GraphError) (he : ∀ s, P e s) : Leads allowed P n (Exec.fail e : Exec α) :=
  fun s _ => he s

theorem Leads.read (f : DispatchState → α) : Leads allowed P n (Exec.read f) := fun _ hs => hs

theorem Leads.modify (f : DispatchState → DispatchState)
    (hf : ∀ s, n.NextLive s → n.NextLive (f s)) : Leads allowed P n (Exec.modify f) := hf

theorem Leads.update (f : Store → Store) : Leads allowed P n (Exec.update f) :=
  .modify _ fun _ hs => hs

theorem Leads.bind {x : Exec α} {f : α → Exec β} (hx : Leads allowed P n x)
    (hf : ∀ a, Leads allowed P n (f a)) : Leads allowed P n (x >>= f) :=
  fun s hs => (hx s hs).bind fun a t ht => hf a t ht

theorem Leads.forEach (xs : List β) {f : β → Exec Unit} (hf : ∀ x ∈ xs, Leads allowed P n (f x)) :
    Leads allowed P n (Exec.forEach xs f) := by
  induction xs with
  | nil => exact .pure ()
  | cons x rest ih =>
    rw [List.forall_mem_cons] at hf
    exact .bind hf.1 fun _ => ih hf.2

theorem Leads.select (site : Site) (next : Option NodeHandle) (h : ∀ k, next = some k → n.Live k) :
    Leads allowed P n (site.select next) := fun _ _ => h

/-- A sub-execution does not select anything. -/
theorem Leads.enclosed (part : DispatchState → β) (restore : β → DispatchState → DispatchState)
    (hnext : ∀ s t, (restore (part s) t).next = s.next)
    (hP : ∀ e b s, P e s → P e (restore b s)) (x : Exec α)
    (hx : ∀ s, (x s).Meets allowed P fun _ _ => True) :
    Leads allowed P n (Site.enclosed part restore x) := by
  intro s hs
  have hkept : ∀ t, n.NextLive (restore (part s) t) := fun t k hk => hs k (hnext s t ▸ hk)
  refine Process.Meets.attempt_bind (hx s) (fun a t _ => hkept t) fun e t he => ?_
  exact hP e (part s) t he

/-- A wait ends as the scheduler says, or as it is answered. -/
theorem Leads.await (key : WaitKey) (hcancelled : ∀ s, P .cancelled s)
    (hanswered : ∀ e s, allowed (.error e) → P e s) : Leads allowed P n (Exec.await key) := by
  intro s hs
  have hstart : ∀ result, (s.store.scheduler.start key).1 = some result →
      result = .ok () ∨ result = .error .cancelled := by
    intro result h
    unfold Scheduler.start at h
    split at h
    · cases h
    · split at h
      · exact .inr (Option.some.inj h).symm
      · split at h
        · split at h
          · exact .inl (Option.some.inj h).symm
          · cases h
        · exact .inl (Option.some.inj h).symm
        · cases h
  unfold Exec.await
  dsimp only
  cases hresult : (s.store.scheduler.start key).1 with
  | some result =>
    rcases hstart result hresult with rfl | rfl
    · exact hs
    · exact hcancelled _
  | none =>
    intro result store hallowed
    cases result with
    | ok _ => exact hs
    | error e => exact hanswered e _ hallowed

end Exec

/-! ## Section 5: Nodes of the library -/

namespace Site

variable {allowed : Except GraphError Unit → Prop} {engine : Engine} {g : Graph} {site : Site}

/-- A call that does not start is a failure of its own. -/
theorem failure_of_callee (name : String) (s : DispatchState) (e : GraphError)
    (hcalls : Called engine g s name (site.function? name))
    (h : site.callee name s.store = .error e) : Failure allowed engine g e s := by
  unfold callee at h
  split at h
  · rename_i hnone
    cases h
    exact .unknownFunction name s (hnone ▸ hcalls)
  · rename_i f hf
    rw [hf] at hcalls
    split at h
    · rename_i hrun
      cases h
      exact .notCompiled name f s hcalls (by simpa using hrun)
    · split at h
      · rename_i hentry
        cases h
        exact .unknownEntry name f s hcalls hentry
      · split at h
        · cases h
          exact .depth _ s
        · cases h

variable {chain : Chain}

theorem describeTarget_leads (n : Network) : site.describeTarget.Leads allowed (Failure allowed engine g) n := by
  refine .bind (.read _) fun target => ?_
  cases target with
  | some ref =>
    exact .bind (.update _) fun _ => .bind (.update _) fun _ => .update _
  | none =>
    exact .bind (.update _) fun _ => .bind (.update _) fun _ => .update _

variable (husable : ∀ f, Scope engine g f → f.Usable)
  (hsite : site.frame.InScope engine g)

include husable hsite

theorem complete_frame : site.frame.graph.toNetwork.Complete :=
  (husable _ hsite.graph).kept.complete hsite.compiled

theorem continueWith_leads (name : String) :
    (site.continueWith name).Leads allowed (Failure allowed engine g) site.frame.graph.toNetwork :=
  .select site _ fun k hk => live_of_successor (complete_frame husable hsite).targets name 0 k hk

theorem delay_leads : site.delay.Leads allowed (Failure allowed engine g)
    site.frame.graph.toNetwork := by
  refine .bind (.read _) fun v => ?_
  dsimp only
  split
  · exact .fail _ .noScheduler
  · refine .bind (.read _) fun scheduled => ?_
    refine .bind (.update _) fun _ => ?_
    refine .bind (.update _) fun _ => ?_
    refine .bind (.await _ .cancelled fun e s he => .answered e he s) fun _ => ?_
    exact continueWith_leads husable hsite "next"

theorem logMessage_leads (level : LogLevel) :
    (site.logMessage level).Leads allowed (Failure allowed engine g)
      site.frame.graph.toNetwork := by
  have hrest : ∀ text : String, Exec.Leads allowed (Failure allowed engine g)
      site.frame.graph.toNetwork (do site.message text; site.continueWith "next") :=
    fun text => .bind (.update _) fun _ => continueWith_leads husable hsite "next"
  refine .bind (.read _) fun v => ?_
  dsimp only
  split
  · exact .bind (.update _) fun _ => hrest _
  · exact hrest _

theorem setVariable_leads : site.setVariable.Leads allowed (Failure allowed engine g)
    site.frame.graph.toNetwork := by
  have hnext : (site.continueWith "next").Leads allowed (Failure allowed engine g)
      site.frame.graph.toNetwork := continueWith_leads husable hsite "next"
  refine .bind (.read _) fun v => ?_
  dsimp only
  split
  · exact .bind (.update _) fun _ => hnext
  · exact .bind (.update _) fun _ => hnext

variable (hchain : ChainMeets allowed engine g chain)

include hchain

theorem forwardPort_leads (name : String) (index : Nat) :
    (site.forwardPort chain name index).Leads allowed (Failure allowed engine g)
      site.frame.graph.toNetwork := by
  unfold forwardPort
  split
  · rename_i k hk
    unfold forward
    split
    · exact .fail _ (.depth _)
    · have hlive := live_of_successor (complete_frame husable hsite).targets name index k hk
      exact .enclosed (·.next) restoreNext (fun _ _ => rfl) (fun _ _ _ he => he.later ⟨rfl, rfl⟩) _
        (hchain site.inner k ⟨hsite.engine_eq, hsite.graph, hsite.compiled⟩ hlive)
  · exact .pure ()

theorem loop_leads (count : Nat) (index : Int) :
    (site.loop chain count index).Leads allowed (Failure allowed engine g)
      site.frame.graph.toNetwork := by
  induction count generalizing index with
  | zero => exact .pure ()
  | succ count ih =>
    refine .bind (.update _) fun _ => ?_
    exact .bind (forwardPort_leads husable hsite hchain "body" 0) fun _ => ih (index + 1)

omit husable in
/-- A call fails as the callee does, or before it starts. -/
theorem call_meets (name : String) (arguments : List Value) (s : DispatchState)
    (hs : site.frame.graph.toNetwork.NextLive s)
    (hcalls : Called engine g s name (site.function? name)) :
    (site.call chain name arguments s).Meets allowed (Failure allowed engine g)
      fun _ t => site.frame.graph.toNetwork.NextLive t := by
  show ((Exec.ofResult (site.callee name s.store) >>= _ : Exec Value) s).Meets _ _ _
  cases hcallee : site.callee name s.store with
  | error e => exact failure_of_callee name s e hcalls hcallee
  | ok found =>
    obtain ⟨f, entry⟩ := found
    have hframe := inScope_callFrame hsite name s.store f entry ⟨name, arguments⟩ hcallee
    have hentry := f.live_of_findEntry name entry (callee_eq_ok name s.store f entry hcallee).2.2
    refine Exec.Leads.enclosed callerPart restoreCaller (fun _ _ => rfl)
      (fun _ _ _ he => he.later ⟨rfl, rfl⟩) _ (fun t => ?_) s hs
    show ((chain (site.callFrame f ⟨name, arguments⟩) entry >>= fun _ =>
      Exec.read fun s => s.returned.getD .null) { t with next := none, returned := none }).Meets _ _ _
    exact Process.Meets.bind (hchain _ entry hframe hentry _) fun _ _ _ => trivial

/-- A node of the library fails as its chains and calls do, and selects a node of its graph. -/
theorem execute_meets (x : GraphNode) (hx : site.frame.graph.node? site.node = some x)
    (s : DispatchState) (hs : site.frame.graph.toNetwork.NextLive s)
    (htraced : x.guid ∈ s.trace.toList) :
    (site.execute chain x.behavior s).Meets allowed (Failure allowed engine g)
      fun _ t => site.frame.graph.toNetwork.NextLive t := by
  have hbuiltin := (husable _ hsite.graph).builtin site.node x hx
  have hnext : ∀ name, (site.continueWith name).Leads allowed (Failure allowed engine g)
      site.frame.graph.toNetwork := continueWith_leads husable hsite
  cases hb : x.behavior with
  | executionEvent name => exact Exec.Leads.bind (.update _) (fun _ => hnext _) s hs
  | functionInput name => exact Exec.Leads.bind (.update _) (fun _ => hnext _) s hs
  | branch => exact Exec.Leads.bind (.read _) (fun _ => hnext _) s hs
  | sequence =>
    exact Exec.Leads.forEach _ (fun index _ => forwardPort_leads husable hsite hchain "then" index)
      s hs
  | forLoop =>
    have hloop := loop_leads husable hsite hchain
    exact Exec.Leads.bind (.read _) (fun first => .bind (.read _) fun last =>
      .bind (hloop _ _) fun _ => hnext _) s hs
  | delay => exact delay_leads husable hsite s hs
  | log level => exact logMessage_leads husable hsite level s hs
  | literal type raw => exact hs
  | add => exact hs
  | multiply => exact hs
  | compare op => exact hs
  | getVariable => exact hs
  | setVariable => exact setVariable_leads husable hsite s hs
  | functionOutput => exact fun k hk => by cases hk
  | invokeFunction name =>
    have hcalls : Called engine g s name (site.function? name) :=
      ⟨site.frame.graph, site.node, x, hsite.graph, hx, hb, htraced, by rw [← hsite.engine_eq]; rfl⟩
    refine (call_meets hsite hchain name (site.inputs "args" s.store) s hs hcalls).bind ?_
    intro result t ht
    exact Exec.Leads.bind (.update _) (fun _ => hnext "next") t ht
  | describeTarget => exact describeTarget_leads _ s hs
  | placeholder node => exact hs
  | script script =>
    rw [hb] at hbuiltin
    cases hbuiltin

end Site

/-! ## Section 6: Chains -/

namespace Frame

variable {allowed : Except GraphError Unit → Prop} {engine : Engine} {g : Graph} {frame : Frame}

theorem count_leads (n : Network) : frame.count.Leads allowed (Failure allowed engine g) n := by
  unfold count
  refine .bind (.modify _ fun _ hs => hs) fun _ => ?_
  cases frame.engine.config.maxChainSteps with
  | none => exact .pure ()
  | some limit =>
    refine .bind (.read _) fun steps => ?_
    by_cases hlimit : limit < steps
    · simp only [if_pos hlimit]
      exact .fail _ (.steps limit)
    · simp only [if_neg hlimit]
      exact .pure ()

/-- How a node ended is reported, and stays a result or a failure. -/
theorem conclude_meets (n : Network) (guid : String) (result : Except GraphError Unit)
    (s : DispatchState) (hok : result = .ok () → n.NextLive s)
    (herror : ∀ e, result = .error e → Failure allowed engine g e s) :
    (frame.conclude guid result s).Meets allowed (Failure allowed engine g)
      fun _ t => n.NextLive t := by
  cases result with
  | ok _ =>
    unfold conclude announce
    split
    · exact hok rfl
    · exact hok rfl
  | error e => exact (herror e rfl).later ⟨rfl, rfl⟩

variable {chain : Chain} (husable : ∀ f, Scope engine g f → f.Usable)
  (hframe : frame.InScope engine g) (hchain : ChainMeets allowed engine g chain)

include husable hframe hchain

/-- What a node does behind its start. -/
theorem started_meets (h : NodeHandle) (x : GraphNode) (hx : frame.graph.node? h = some x)
    (s : DispatchState) (hs : frame.graph.toNetwork.NextLive s) (htraced : x.guid ∈ s.trace.toList) :
    Process.Meets allowed (Failure allowed engine g) (fun _ t => frame.graph.toNetwork.NextLive t)
      ((do
        frame.announce (.nodeStarted frame.dispatchId x.guid x.type)
        let result ← ((Site.mk frame h).execute chain x.behavior).attempt
        frame.conclude x.guid result : Exec Unit) s) := by
  have hannounced : ∀ t : DispatchState, frame.graph.toNetwork.NextLive t →
      x.guid ∈ t.trace.toList →
      Process.Meets allowed (Failure allowed engine g) (fun _ t => frame.graph.toNetwork.NextLive t)
        ((do
          let result ← ((Site.mk frame h).execute chain x.behavior).attempt
          frame.conclude x.guid result : Exec Unit) t) := by
    intro t ht htraced
    have hsite : (Site.mk frame h).frame.InScope engine g := hframe
    have hexecute := Site.execute_meets husable hsite hchain x hx t ht htraced
    refine hexecute.attempt_bind (fun _ u hu => ?_) fun e u he => ?_
    · exact conclude_meets _ x.guid (.ok ()) u (fun _ => hu) fun e he => by cases he
    · exact conclude_meets _ x.guid (.error e) u (fun h => by cases h) fun e' he' => by
        cases he'
        exact he
  unfold announce
  split
  · exact hannounced _ hs htraced
  · exact hannounced s hs htraced

theorem invoke_leads (h : NodeHandle) (hh : frame.graph.toNetwork.Live h) :
    (frame.invoke chain h).Leads allowed (Failure allowed engine g) frame.graph.toNetwork := by
  obtain ⟨x, hx⟩ := hh
  intro s hs
  unfold invoke
  simp only [show frame.graph.node? h = some x from hx]
  refine (count_leads _ s hs).bind fun _ t ht => ?_
  exact started_meets husable hframe hchain h x hx { t with trace := t.trace.push x.guid } ht
    (by simp)

/-- A node that is there runs its path and selects a node. -/
theorem runNode_meets (h : NodeHandle) (hh : frame.graph.toNetwork.Live h) (s : DispatchState) :
    (frame.runNode chain h s).Meets allowed (Failure allowed engine g)
      fun next _ => ∀ k, next = some k → frame.graph.toNetwork.Live k := by
  obtain ⟨_, _, path, _, _, hpath, _, hlive⟩ :=
    ((husable _ hframe.graph).kept.complete hframe.compiled).dependencyPath h hh
  have hinvoke := invoke_leads husable hframe hchain
  have hclear : Frame.clearNext.Leads allowed (Failure allowed engine g) frame.graph.toNetwork :=
    .modify _ fun _ _ k hk => by cases hk
  unfold runNode
  rw [hpath]
  have hnone : frame.graph.toNetwork.NextLive { s with next := none } := fun k hk => by cases hk
  have hpassed : ((Exec.forEach path (frame.invoke chain)) { s with next := none }).Meets allowed
      (Failure allowed engine g) fun _ t => frame.graph.toNetwork.NextLive t :=
    Exec.Leads.forEach path (fun m hm => hinvoke m (hlive m hm)) _ hnone
  refine hpassed.bind fun _ t ht => ?_
  have hran : ((frame.invoke chain h) { t with next := none }).Meets allowed
      (Failure allowed engine g) fun _ t => frame.graph.toNetwork.NextLive t :=
    hinvoke h hh _ fun k hk => by cases hk
  exact hran.bind fun _ u hu => hu

omit hframe hchain in
/-- A chain of nodes fails as the nodes do. -/
theorem runChain_meets (fuel : Nat) : ChainMeets allowed engine g (runChain fuel) := by
  induction fuel with
  | zero => exact fun _ _ _ _ _ => trivial
  | succ fuel ih =>
    intro frame h hframe hh s
    refine (runNode_meets husable hframe ih h hh s).bind fun next t hnext => ?_
    cases next with
    | none => trivial
    | some k => exact ih frame k hframe (hnext k rfl) t

end Frame
end FlowGraph
