import FlowGraph.Proofs.Dispatch.Returning
import FlowGraph.Proofs.Dispatch.Routine

/-! # Nesting of the reported events

    Where nodes are announced, a node stands open from its start until it is completed or has
    failed.  `nest` follows the open nodes from event to event: a node that ends or reports a
    message is the innermost one.

    Steps that return open and close nodes like brackets, list each node that starts, and
    count it (`Closed`).  Steps that fail leave some nodes open and then report the failure of
    each, from the innermost outwards (`Broken`).  Either way the nodes around them stay
    open. -/

namespace FlowGraph

variable {α β : Type}

/-! ## Section 1: Open nodes -/

namespace GraphEvent

/-- Whether a node failed. -/
def isFailure : GraphEvent → Bool
  | .nodeFailed _ _ _ => true
  | _ => false

/-- The nodes of a dispatch that are open after an event, innermost first, if the event may
    stand there. -/
def nest (id : String) (stack : List String) : GraphEvent → Option (List String)
  | .nodeStarted other guid _ => if other = id then some (guid :: stack) else none
  | .nodeCompleted other guid =>
    if other = id ∧ stack.head? = some guid then some stack.tail else none
  | .nodeFailed other guid _ =>
    if other = id ∧ stack.head? = some guid then some stack.tail else none
  | .nodeMessage other guid _ => if other = id ∧ stack.head? = some guid then some stack else none
  | _ => none

/-- The nodes that are open after events, if these may stand there. -/
def nesting (id : String) (stack : List String) (es : List GraphEvent) : Option (List String) :=
  es.foldlM (nest id) stack

/-- The nodes that started, in order. -/
def startedNodes (es : List GraphEvent) : List String := es.filterMap startedNode?

/-- Reports of failed nodes, all for the same reason. -/
def failures (id : String) (guids : List String) (e : GraphError) : List GraphEvent :=
  guids.map fun guid => .nodeFailed id guid e.message

variable {id : String}

theorem nesting_append (stack : List String) (first later : List GraphEvent) :
    nesting id stack (first ++ later) = (nesting id stack first).bind (nesting id · later) :=
  List.foldlM_append

theorem nesting_cons (stack : List String) (e : GraphEvent) (rest : List GraphEvent) :
    nesting id stack (e :: rest) = (nest id stack e).bind (nesting id · rest) := rfl

@[simp] theorem startedNodes_append (first later : List GraphEvent) :
    startedNodes (first ++ later) = startedNodes first ++ startedNodes later :=
  List.filterMap_append

/-- Such reports close the nodes, the innermost first. -/
theorem nesting_failures (guids stack : List String) (e : GraphError) :
    nesting id (guids ++ stack) (failures id guids e) = some stack := by
  induction guids with
  | nil => rfl
  | cons guid rest ih =>
    have hfirst : nest id (guid :: rest ++ stack) (.nodeFailed id guid e.message)
        = some (rest ++ stack) := if_pos ⟨rfl, rfl⟩
    show nesting id _ (.nodeFailed id guid e.message :: failures id rest e) = _
    rw [nesting_cons, hfirst]
    exact ih

end GraphEvent

open GraphEvent

/-! ## Section 2: What steps report -/

/-- Reports of steps that return, inside of some open nodes. -/
structure Closed (id : String) (outer : List String) (s t : DispatchState)
    (es : List GraphEvent) : Prop where
  /-- What they open they close. -/
  nested : ∀ stack, nesting id (outer ++ stack) es = some (outer ++ stack)
  /-- No node fails. -/
  sound : ∀ e ∈ es, e.isFailure = false
  /-- The nodes that start are listed. -/
  listed : t.trace.toList = s.trace.toList ++ startedNodes es
  /-- And they are counted. -/
  counted : t.steps = s.steps + (startedNodes es).length

/-- Reports of steps that fail, inside of some open nodes: no node fails before the error, and
    behind it the nodes that are open then do. -/
def Broken (id : String) (outer : List String) (e : GraphError) (es : List GraphEvent) : Prop :=
  ∃ before opened, es = before ++ failures id opened e ∧ (∀ v ∈ before, v.isFailure = false) ∧
    ∀ stack, nesting id (outer ++ stack) before = some (opened ++ (outer ++ stack))

/-- Reports of steps, given how they end. -/
def Told (id : String) (outer : List String) (s : DispatchState) :
    Except GraphError α → DispatchState → List GraphEvent → Prop
  | .ok _, t, es => Closed id outer s t es
  | .error e, _, es => Broken id outer e es

variable {id : String} {outer : List String} {s t u : DispatchState} {es more : List GraphEvent}

theorem closed_nil (hsteps : t.steps = s.steps) (htrace : t.trace = s.trace) :
    Closed id outer s t [] where
  nested _ := rfl
  sound := List.forall_mem_nil _
  listed := by
    rw [htrace]
    exact (List.append_nil _).symm
  counted := hsteps

theorem Closed.append (hes : Closed id outer s t es) (hmore : Closed id outer t u more) :
    Closed id outer s u (es ++ more) where
  nested stack := by
    rw [nesting_append, hes.nested]
    exact hmore.nested stack
  sound e he := (List.mem_append.mp he).elim (hes.sound e) (hmore.sound e)
  listed := by rw [hmore.listed, hes.listed, startedNodes_append, List.append_assoc]
  counted := by
    rw [hmore.counted, hes.counted, startedNodes_append, List.length_append, Nat.add_assoc]

theorem broken_nil (e : GraphError) : Broken id outer e [] :=
  ⟨[], [], rfl, List.forall_mem_nil _, fun _ => rfl⟩

theorem Closed.broken (hes : Closed id outer s t es) {e : GraphError}
    (hmore : Broken id outer e more) : Broken id outer e (es ++ more) := by
  obtain ⟨before, opened, rfl, hsound, hnested⟩ := hmore
  refine ⟨es ++ before, opened, (List.append_assoc _ _ _).symm, ?_, fun stack => ?_⟩
  · exact fun v hv => (List.mem_append.mp hv).elim (hes.sound v) (hsound v)
  · rw [nesting_append, hes.nested]
    exact hnested stack

theorem Closed.told (hes : Closed id outer s t es) {result : Except GraphError α}
    (hmore : Told id outer t result u more) : Told id outer s result u (es ++ more) := by
  cases result with
  | ok a => exact hes.append hmore
  | error e => exact hes.broken hmore

/-- Steps without a report. -/
theorem told_nil (result : Except GraphError α) (hsteps : t.steps = s.steps)
    (htrace : t.trace = s.trace) : Told id outer s result t [] := by
  cases result with
  | ok a => exact closed_nil hsteps htrace
  | error e => exact broken_nil e

/-- Around the open nodes there may be others. -/
theorem Told.within {result : Except GraphError α} (h : Told id [] s result t es) :
    Told id outer s result t es := by
  cases result with
  | ok a => exact ⟨fun stack => h.nested (outer ++ stack), h.sound, h.listed, h.counted⟩
  | error e =>
    obtain ⟨before, opened, hes, hsound, hnested⟩ := h
    exact ⟨before, opened, hes, hsound, fun stack => hnested (outer ++ stack)⟩

/-- How the end of a node is reported. -/
def ending (id guid : String) : Except GraphError Unit → GraphEvent
  | .ok _ => .nodeCompleted id guid
  | .error e => .nodeFailed id guid e.message

theorem nest_started (guid type : String) (stack : List String) :
    nest id stack (.nodeStarted id guid type) = some (guid :: stack) := if_pos rfl

theorem nest_ending (guid : String) (result : Except GraphError Unit) (stack : List String) :
    nest id (guid :: stack) (ending id guid result) = some stack := by
  cases result with
  | ok _ => exact if_pos ⟨rfl, rfl⟩
  | error e => exact if_pos ⟨rfl, rfl⟩

/-- A node that is listed and counted, with what is reported inside of it. -/
theorem Told.bracket {x : GraphNode} {frame : Frame} {result : Except GraphError Unit}
    (h : Told frame.dispatchId [x.guid] (frame.started x s) result t es)
    (hsteps : u.steps = t.steps) (htrace : u.trace = t.trace) :
    Told frame.dispatchId [] s result u
      ([.nodeStarted frame.dispatchId x.guid x.type]
        ++ (es ++ [ending frame.dispatchId x.guid result])) := by
  cases result with
  | ok _ =>
    have hnodes : startedNodes ([.nodeStarted frame.dispatchId x.guid x.type]
        ++ (es ++ [ending frame.dispatchId x.guid (.ok ())])) = x.guid :: startedNodes es := by
      simp [startedNodes, startedNode?, ending]
    refine ⟨fun stack => ?_, fun v hv => ?_, ?_, ?_⟩
    · rw [List.singleton_append, nesting_cons, nest_started]
      show nesting _ ([x.guid] ++ stack) _ = _
      rw [nesting_append, h.nested]
      show nesting _ (x.guid :: stack) _ = _
      rw [nesting_cons, nest_ending]
      rfl
    · simp only [List.mem_append, List.mem_singleton] at hv
      rcases hv with rfl | hv | rfl
      · rfl
      · exact h.sound v hv
      · rfl
    · rw [htrace, h.listed, hnodes]
      show (s.trace.push x.guid).toList ++ _ = _
      rw [Array.toList_push, List.append_assoc, List.singleton_append]
    · have hcounted : t.steps = s.steps + 1 + (startedNodes es).length := h.counted
      rw [hsteps, hcounted, hnodes, List.length_cons]
      omega
  | error e =>
    -- the node is the last one that fails
    obtain ⟨before, opened, rfl, hsound, hnested⟩ := h
    refine ⟨.nodeStarted frame.dispatchId x.guid x.type :: before, opened ++ [x.guid], ?_,
      fun v hv => ?_, fun stack => ?_⟩
    · simp [failures, ending]
    · rcases List.mem_cons.mp hv with rfl | hv
      · rfl
      · exact hsound v hv
    · rw [nesting_cons, List.nil_append, nest_started]
      show nesting _ ([x.guid] ++ stack) _ = _
      rw [hnested, List.append_assoc]

/-! ## Section 3: Steps in a row -/

namespace Exec

/-- From every state the steps report this. -/
def Tells (id : String) (outer : List String) (x : Exec α) : Prop :=
  ∀ s, (x s).Reports s.store.events.toList (Told id outer s)

theorem Tells.pure (a : α) : Tells id outer (Pure.pure a) :=
  fun _ => ⟨[], (List.append_nil _).symm, closed_nil rfl rfl⟩

theorem Tells.fail (e : GraphError) : Tells id outer (Exec.fail e : Exec α) :=
  fun _ => ⟨[], (List.append_nil _).symm, broken_nil e⟩

theorem Tells.ofResult (result : Except GraphError α) : Tells id outer (Exec.ofResult result) := by
  cases result with
  | ok a => exact .pure a
  | error e => exact .fail e

theorem Tells.read (f : DispatchState → α) : Tells id outer (Exec.read f) :=
  fun _ => ⟨[], (List.append_nil _).symm, closed_nil rfl rfl⟩

theorem Tells.modify {f : DispatchState → DispatchState} (hf : Silent f) :
    Tells id outer (Exec.modify f) := by
  intro s
  have hledger := hf.ledger s
  have hevents : (f s).store.events = s.store.events := congrArg Ledger.events hledger
  refine ⟨[], ?_, closed_nil (congrArg Ledger.steps hledger) (congrArg Ledger.trace hledger)⟩
  rw [List.append_nil, ← hevents]

theorem Tells.look (f : DispatchState → α) {k : α → Exec β} (hk : ∀ s, Tells id outer (k (f s))) :
    Tells id outer (Exec.read f >>= k) := fun s => hk s s

theorem Tells.bind {x : Exec α} {k : α → Exec β} (hx : Tells id outer x)
    (hk : ∀ a, Tells id outer (k a)) : Tells id outer (x >>= k) := by
  intro s
  refine Process.Reports.bind ((hx s).mono fun result t es htold => ?_)
  cases result with
  | error e => exact htold
  | ok a => exact (hk a t).mono fun _ _ _ hlater => Closed.told htold hlater

theorem Tells.forEach (xs : List β) {f : β → Exec Unit} (hf : ∀ x ∈ xs, Tells id outer (f x)) :
    Tells id outer (Exec.forEach xs f) := by
  induction xs with
  | nil => exact .pure ()
  | cons x rest ih =>
    refine .bind (hf x List.mem_cons_self) fun _ => ?_
    exact ih fun y hy => hf y (List.mem_cons_of_mem x hy)

/-- Only the result tells how a wait ended. -/
theorem Tells.await (key : WaitKey) : Tells id outer (Exec.await key) := by
  intro s
  unfold Exec.await
  dsimp only
  cases (s.store.scheduler.start key).1 with
  | some result => exact ⟨[], (List.append_nil _).symm, told_nil result rfl rfl⟩
  | none =>
    refine ⟨[], (List.append_nil _).symm, fun result store => ?_⟩
    exact ⟨[], (List.append_nil _).symm, told_nil result rfl rfl⟩

/-- What is put back afterwards is not recorded. -/
theorem Tells.enclosed {x : Exec α} (hx : Tells id outer x) (part : DispatchState → β)
    (restore : β → DispatchState → DispatchState) (hrestore : ∀ b, Silent (restore b)) :
    Tells id outer (Site.enclosed part restore x) := by
  intro s
  show ((x s).attempt.bind fun result t => Exec.ofResult result (restore (part s) t)).Reports _ _
  refine (hx s).after fun result t es htold => ?_
  have hledger := (hrestore (part s)).ledger t
  have hevents : (restore (part s) t).store.events = t.store.events :=
    congrArg Ledger.events hledger
  cases result with
  | ok a =>
    refine ⟨[], by rw [List.append_nil, ← hevents], ?_⟩
    exact Closed.append htold
      (closed_nil (congrArg Ledger.steps hledger) (congrArg Ledger.trace hledger))
  | error e =>
    refine ⟨[], by rw [List.append_nil, ← hevents], ?_⟩
    show Broken id outer e (es ++ [])
    rw [List.append_nil]
    exact htold

end Exec

/-! ## Section 4: Nodes and chains -/

/-- Chains of nodes of the library open and close nodes, wherever nodes are announced. -/
def Chain.Tells (chain : Chain) : Prop :=
  ∀ frame h, frame.engine.config.emitNodeEvents = true → frame.All Network.OfLibrary →
    Exec.Tells frame.dispatchId [] (chain frame h)

namespace Site

/-- The steps of a node report events inside of it if the chains that it runs do. -/
theorem Routine.tells {site : Site} {chain chain' : Chain} {x y : Exec α}
    (h : Routine site chain chain' x y)
    (hchain : ∀ frame start, site.Reaches frame →
      Exec.Tells site.frame.dispatchId [] (chain frame start)) :
    Exec.Tells site.frame.dispatchId [site.guid] x := by
  induction h with
  | pure a => exact .pure a
  | fail e _ => exact .fail e
  | read f hf => exact .read f
  | modify f hf => exact .modify hf
  | message text =>
    intro s
    refine ⟨[.nodeMessage site.frame.dispatchId site.guid text], Array.toList_push, ?_⟩
    refine ⟨fun stack => ?_, by simp [isFailure], by simp [startedNodes, startedNode?], rfl⟩
    -- the executing node is the innermost one
    have hmessage : nest site.frame.dispatchId ([site.guid] ++ stack)
        (.nodeMessage site.frame.dispatchId site.guid text) = some ([site.guid] ++ stack) :=
      if_pos ⟨rfl, rfl⟩
    rw [nesting_cons, hmessage]
    rfl
  | await key => exact .await key
  | look f hf k k' _ ih => exact .look f ih
  | bind x y k k' _ _ ihx ihk => exact .bind ihx ihk
  | enclosed part restore hpart hrestore _ x y _ ih => exact ih.enclosed part restore hrestore
  | chain frame start hreach =>
    exact fun s => (hchain frame start hreach s).mono fun _ _ _ htold => htold.within

end Site

namespace Frame

/-- A node that was counted is executed between its start and its end. -/
theorem invoke_eq (chain : Chain) (frame : Frame) (h : NodeHandle) (x : GraphNode)
    (hx : frame.graph.node? h = some x) (s : DispatchState)
    (hcount : frame.count s = .done (.ok ()) { s with steps := s.steps + 1 }) :
    frame.invoke chain h s = ((Site.mk frame h).execute chain x.behavior
      (frame.started x s)).attempt.bind fun result t => frame.conclude x.guid result t := by
  unfold invoke
  rw [hx]
  show (frame.count s).bind _ = _
  rw [hcount]
  show (frame.announce _ _).bind _ = _
  rw [announce_done]
  rfl

/-- Where nodes are announced, the end of a node is reported whichever way it ended. -/
theorem conclude_done (frame : Frame) (hannounced : frame.engine.config.emitNodeEvents = true)
    (guid : String) (result : Except GraphError Unit) (s : DispatchState) :
    ∃ t, frame.conclude guid result s = .done result t ∧ t.steps = s.steps ∧ t.trace = s.trace ∧
      t.store.events = s.store.events.push (ending frame.dispatchId guid result) := by
  cases result with
  | ok _ =>
    refine ⟨_, frame.announce_done _ s, rfl, rfl, ?_⟩
    show (frame.announced _ s.store).events = _
    unfold announced
    rw [if_pos hannounced]
    rfl
  | error e => exact ⟨_, rfl, rfl, rfl, rfl⟩

variable {chain : Chain} (hchain : chain.Tells) {frame : Frame}
  (hannounced : frame.engine.config.emitNodeEvents = true) (hframe : frame.All Network.OfLibrary)

include hchain hannounced hframe

theorem invoke_tells (h : NodeHandle) : Exec.Tells frame.dispatchId [] (frame.invoke chain h) := by
  intro s
  cases hx : frame.graph.node? h with
  | none =>
    unfold invoke
    rw [hx]
    exact Exec.Tells.fail _ s
  | some x =>
    rcases frame.count_cases s with hcount | ⟨limit, _, _, hcount⟩
    · rw [frame.invoke_eq chain h x hx s hcount]
      have hguid : (Site.mk frame h).guid = x.guid := by
        unfold Site.guid Site.node?
        rw [hx]
        rfl
      have hroutine := (Site.mk frame h).execute_routine chain chain x.behavior
        (hframe.graph.network h x hx).1
      have hinside := hroutine.tells fun inner start hreach => by
        have hinner := hchain inner start (hreach.engine ▸ hannounced) (hreach.all hframe)
        rw [hreach.dispatchId] at hinner
        exact hinner
      have hstarted : (frame.started x s).store.events.toList = s.store.events.toList
          ++ [.nodeStarted frame.dispatchId x.guid x.type] := by
        show (frame.announced _ s.store).events.toList = _
        unfold announced
        rw [if_pos hannounced]
        exact Array.toList_push
      rw [hguid] at hinside
      have hreports := hinside (frame.started x s)
      rw [hstarted] at hreports
      refine Process.Reports.extend (hreports.after fun result t es htold => ?_)
      obtain ⟨u, hconclude, hsteps, htrace, hevents⟩ :=
        frame.conclude_done hannounced x.guid result t
      rw [hconclude]
      refine ⟨[ending frame.dispatchId x.guid result], ?_, ?_⟩
      · rw [hevents]
        exact Array.toList_push
      · exact htold.bracket hsteps htrace
    · unfold invoke
      rw [hx]
      show Process.Reports ((frame.count s).bind _) _ _
      rw [hcount]
      exact ⟨[], (List.append_nil _).symm, broken_nil _⟩

theorem runNode_tells (h : NodeHandle) :
    Exec.Tells frame.dispatchId [] (frame.runNode chain h) := by
  have hinvoke := invoke_tells hchain hannounced hframe
  refine .bind (.modify fun _ _ => rfl) fun _ => ?_
  refine .bind (.ofResult _) fun path => ?_
  refine .bind (.forEach path fun m _ => hinvoke m) fun _ => ?_
  refine .bind (.modify fun _ _ => rfl) fun _ => ?_
  refine .bind (hinvoke h) fun _ => ?_
  refine .bind (.read _) fun next => ?_
  exact .bind (.modify fun _ _ => rfl) fun _ => .pure next

omit hchain hannounced hframe in
theorem runChain_tells (fuel : Nat) : Chain.Tells (runChain fuel) := by
  induction fuel with
  | zero => exact fun frame h _ _ s => List.prefix_rfl
  | succ fuel ih =>
    intro frame h hannounced hframe
    refine .bind (runNode_tells ih hannounced hframe h) fun next => ?_
    cases next with
    | none => exact .pure ()
    | some k => exact ih frame k hannounced hframe

end Frame
end FlowGraph
