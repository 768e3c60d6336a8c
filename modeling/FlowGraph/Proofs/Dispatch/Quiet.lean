import FlowGraph.Proofs.Dispatch.Returning
import FlowGraph.Proofs.Dispatch.Routine

/-! # Dispatches without announcements

    A host may ask that the start and the completion of nodes are not reported.  Such a
    dispatch does what the other one does, and reports the other events, in the same order
    (`Dispatch.start_mirrors`).

    `Process.Mirrors` relates two processes that do the same, where the second one only
    reports the events to keep; for the same answers both end in the same way
    (`Mirrors.resumed`). -/

namespace FlowGraph

variable {α β : Type}

/-! ## Section 1: Processes that report less -/

namespace Process

variable {keep : GraphEvent → Bool}

/-- The other process does the same and only reports the events to keep.  Before they differ in
    nothing but the events, `known` and `known'`, and so they do after each wait. -/
def Mirrors (keep : GraphEvent → Bool) :
    Process α → Process α → List GraphEvent → Array GraphEvent → Prop
  | .done result s, q, known, known' => ∃ es, s.store.events.toList = known ++ es ∧
      q = .done result (s.withEvents (known' ++ (es.filter keep).toArray))
  | .waiting key s resume, q, known, known' => ∃ es resume', s.store.events.toList = known ++ es ∧
      q = .waiting key (s.withEvents (known' ++ (es.filter keep).toArray)) resume' ∧
      ∀ result store events, (resume result store).Mirrors keep
        (resume' result (store.withEvents events)) store.events.toList events
  | .exhausted s, q, known, known' => ∃ es, s.store.events.toList = known ++ es ∧
      q = .exhausted (s.withEvents (known' ++ (es.filter keep).toArray))

/-- Both ended or were cut off without a report. -/
theorem Mirrors.done (result : Except GraphError α) (s : DispatchState)
    (events : Array GraphEvent) : (Process.done result s).Mirrors keep
      (.done result (s.withEvents events)) s.store.events.toList events :=
  ⟨[], (List.append_nil _).symm, by simp⟩

theorem Mirrors.exhausted (s : DispatchState) (events : Array GraphEvent) :
    (Process.exhausted s : Process α).Mirrors keep (.exhausted (s.withEvents events))
      s.store.events.toList events :=
  ⟨[], (List.append_nil _).symm, by simp⟩

/-- Some of the events were reported before the processes. -/
theorem Mirrors.extend {p q : Process α} {known es : List GraphEvent} {known' : Array GraphEvent}
    (h : p.Mirrors keep q (known ++ es) (known' ++ (es.filter keep).toArray)) :
    p.Mirrors keep q known known' := by
  have hkept : ∀ more : List GraphEvent, known' ++ (es.filter keep).toArray
      ++ (more.filter keep).toArray = known' ++ ((es ++ more).filter keep).toArray := by
    intro more
    rw [List.filter_append, Array.append_assoc,
      List.append_toArray (es.filter keep) (more.filter keep)]
  cases p with
  | done result s =>
    obtain ⟨more, hmore, rfl⟩ := h
    exact ⟨es ++ more, by rw [hmore, List.append_assoc], by rw [hkept]⟩
  | waiting key s resume =>
    obtain ⟨more, resume', hmore, rfl, hrest⟩ := h
    exact ⟨es ++ more, resume', by rw [hmore, List.append_assoc], by rw [hkept], hrest⟩
  | exhausted s =>
    obtain ⟨more, hmore, rfl⟩ := h
    exact ⟨es ++ more, by rw [hmore, List.append_assoc], by rw [hkept]⟩

/-- Steps in a row mirror each other if the first ones and the others do. -/
theorem Mirrors.bind {p q : Process α} {f g : α → DispatchState → Process β}
    {known : List GraphEvent} {known' : Array GraphEvent} (h : p.Mirrors keep q known known')
    (hrest : ∀ a s events,
      (f a s).Mirrors keep (g a (s.withEvents events)) s.store.events.toList events) :
    (p.bind f).Mirrors keep (q.bind g) known known' := by
  induction p generalizing q known known' with
  | done result s =>
    obtain ⟨es, hes, rfl⟩ := h
    cases result with
    | error e => exact ⟨es, hes, rfl⟩
    | ok a =>
      have hlater := hrest a s (known' ++ (es.filter keep).toArray)
      rw [hes] at hlater
      exact hlater.extend
  | waiting key s resume ih =>
    obtain ⟨es, resume', hes, rfl, hresume⟩ := h
    exact ⟨es, _, hes, rfl, fun result store events =>
      ih result store (hresume result store events)⟩
  | exhausted s =>
    obtain ⟨es, hes, rfl⟩ := h
    exact ⟨es, hes, rfl⟩

theorem Mirrors.attempt {p q : Process α} {known : List GraphEvent} {known' : Array GraphEvent}
    (h : p.Mirrors keep q known known') : p.attempt.Mirrors keep q.attempt known known' := by
  induction p generalizing q known known' with
  | done result s =>
    obtain ⟨es, hes, rfl⟩ := h
    exact ⟨es, hes, rfl⟩
  | waiting key s resume ih =>
    obtain ⟨es, resume', hes, rfl, hresume⟩ := h
    exact ⟨es, _, hes, rfl, fun result store events =>
      ih result store (hresume result store events)⟩
  | exhausted s =>
    obtain ⟨es, hes, rfl⟩ := h
    exact ⟨es, hes, rfl⟩

/-- The same answers up to the events of the stores. -/
inductive SameAnswers : List Answer → List Answer → Prop where
  | nil : SameAnswers [] []
  | cons (result : Except GraphError Unit) (store : Store) (events : Array GraphEvent)
      (rest rest' : List Answer) (hrest : SameAnswers rest rest') :
      SameAnswers ((result, store) :: rest) ((result, store.withEvents events) :: rest')

theorem drop_kept (s : DispatchState) (known es : List GraphEvent) (known' : Array GraphEvent)
    (hes : s.store.events.toList = known ++ es) :
    (s.withEvents (known' ++ (es.filter keep).toArray)).store.events.toList.drop known'.size
      = (s.store.events.toList.drop known.length).filter keep := by
  rw [hes, List.drop_left]
  show (known' ++ (es.filter keep).toArray).toList.drop known'.size = es.filter keep
  rw [Array.toList_append, ← Array.length_toList, List.drop_left]

/-- For the same answers both end in the same way, and the other one reports just the events
    to keep. -/
theorem Mirrors.resumed {p q : Process α} {known : List GraphEvent} {known' : Array GraphEvent}
    (h : p.Mirrors keep q known known') (answers answers' : List Answer)
    (hsame : SameAnswers answers answers') :
    (q.resumed answers').result? = (p.resumed answers).result? ∧
      q.reported known'.size answers' = (p.reported known.length answers).filter keep := by
  induction p generalizing q known known' answers answers' with
  | done result s =>
    obtain ⟨es, hes, rfl⟩ := h
    exact ⟨rfl, drop_kept s known es known' hes⟩
  | waiting key s resume ih =>
    obtain ⟨es, resume', hes, rfl, hresume⟩ := h
    cases hsame with
    | nil => exact ⟨rfl, drop_kept s known es known' hes⟩
    | cons result store events rest rest' hrest =>
      obtain ⟨hend, hreported⟩ := ih result store (hresume result store events) rest rest' hrest
      rw [Array.length_toList] at hreported
      refine ⟨hend, ?_⟩
      show List.drop _ _ ++ (resume' result (store.withEvents events)).reported events.size rest'
        = (List.drop _ _ ++ (resume result store).reported store.events.size rest).filter keep
      rw [drop_kept s known es known' hes, hreported, List.filter_append]
  | exhausted s =>
    obtain ⟨es, hes, rfl⟩ := h
    exact ⟨rfl, drop_kept s known es known' hes⟩

end Process

/-! ## Section 2: Steps that report less -/

namespace Exec

/-- From states that differ in nothing but events, the steps mirror each other. -/
def Mirrors (keep : GraphEvent → Bool) (x y : Exec α) : Prop :=
  ∀ s events, (x s).Mirrors keep (y (s.withEvents events)) s.store.events.toList events

variable {keep : GraphEvent → Bool}

theorem Mirrors.pure (a : α) : Mirrors keep (Pure.pure a) (Pure.pure a) :=
  fun s events => .done (.ok a) s events

theorem Mirrors.fail (e : GraphError) : Mirrors keep (Exec.fail e : Exec α) (Exec.fail e) :=
  fun s events => .done (.error e) s events

theorem Mirrors.bind {x y : Exec α} {f g : α → Exec β} (hx : Mirrors keep x y)
    (hf : ∀ a, Mirrors keep (f a) (g a)) : Mirrors keep (x >>= f) (y >>= g) :=
  fun s events => Process.Mirrors.bind (hx s events) fun a t others => hf a t others

theorem Mirrors.attempt {x y : Exec α} (hx : Mirrors keep x y) :
    Mirrors keep x.attempt y.attempt := fun s events => Process.Mirrors.attempt (hx s events)

theorem Mirrors.ofResult (result : Except GraphError α) :
    Mirrors keep (Exec.ofResult result) (Exec.ofResult result) := by
  cases result with
  | ok a => exact .pure a
  | error e => exact .fail e

theorem Mirrors.look {f : DispatchState → α} (hf : ∀ s events, f (s.withEvents events) = f s)
    {k k' : α → Exec β}
    (hk : ∀ s, Mirrors keep (k (f s)) (k' (f s))) :
    Mirrors keep (Exec.read f >>= k) (Exec.read f >>= k') := by
  intro s events
  show (k (f s) s).Mirrors keep (k' (f (s.withEvents events)) (s.withEvents events)) _ _
  rw [hf]
  exact hk s s events

theorem Mirrors.read {f : DispatchState → α} (hf : ∀ s events, f (s.withEvents events) = f s) :
    Mirrors keep (Exec.read f) (Exec.read f) := by
  intro s events
  show (Process.done (.ok (f s)) s).Mirrors keep
    (.done (.ok (f (s.withEvents events))) (s.withEvents events)) _ _
  rw [hf]
  exact .done _ s events

theorem Mirrors.modify {f : DispatchState → DispatchState}
    (hf : ∀ s events, f (s.withEvents events) = (f s).withEvents events) :
    Mirrors keep (Exec.modify f) (Exec.modify f) := by
  intro s events
  show (Process.done (.ok ()) (f s)).Mirrors keep (.done (.ok ()) (f (s.withEvents events))) _ _
  have hevents : (f s).store.events = s.store.events :=
    congrArg (·.store.events) (hf s s.store.events)
  rw [hf, ← hevents]
  exact .done _ (f s) events

/-- A report of an event to keep. -/
theorem Mirrors.emit (event : GraphEvent) (hkeep : keep event = true) :
    Mirrors keep (Exec.update (·.emit event)) (Exec.update (·.emit event)) := by
  intro s events
  refine ⟨[event], Array.toList_push, ?_⟩
  rw [List.filter_cons_of_pos hkeep]
  show Process.done (.ok ()) (s.withEvents (events.push event)) = _
  rw [Array.push_eq_append]
  rfl

/-- A report of an event to leave out. -/
theorem Mirrors.omit (event : GraphEvent) (hkeep : keep event = false) :
    Mirrors keep (Exec.update (·.emit event)) (Pure.pure ()) := by
  intro s events
  refine ⟨[event], Array.toList_push, ?_⟩
  rw [List.filter_cons_of_neg (by rw [hkeep]; exact Bool.false_ne_true)]
  show _ = Process.done (.ok ()) (s.withEvents (events ++ #[]))
  rw [Array.append_empty]
  rfl

theorem Mirrors.await (key : WaitKey) : Mirrors keep (Exec.await key) (Exec.await key) := by
  intro s events
  have hsame : (s.withEvents events).store.scheduler = s.store.scheduler := rfl
  unfold Exec.await
  dsimp only
  rw [hsame]
  cases (s.store.scheduler.start key).1 with
  | some result => exact .done result _ events
  | none =>
    -- the wait is released in the store that it ends with
    let resume (result : Except GraphError Unit) (store : Store) : Process Unit :=
      .done result { s with store := { store with scheduler := store.scheduler.release key } }
    refine ⟨[], resume, (List.append_nil _).symm, ?_, fun result store others => ?_⟩
    · rw [List.filter_nil, Array.append_empty]
      rfl
    · exact .done result
        { s with store := { store with scheduler := store.scheduler.release key } } others

end Exec

/-! ## Section 3: Nodes and chains -/

/-- Whether an event is reported without announcements. -/
def GraphEvent.audible : GraphEvent → Bool
  | .nodeStarted _ _ _ => false
  | .nodeCompleted _ _ => false
  | _ => true

/-- The engine without announcements. -/
def Engine.quiet (e : Engine) : Engine :=
  { e with config := { e.config with emitNodeEvents := false } }

/-- The frame with such an engine. -/
def Frame.quiet (frame : Frame) : Frame := { frame with engine := frame.engine.quiet }

/-- The chains in such frames. -/
def Chain.quiet (chain : Chain) : Chain := fun frame h => chain frame.quiet h

namespace Site

/-- A node only passes the engine on to the chains that it runs. -/
theorem execute_quiet (chain : Chain) (frame : Frame) (h : NodeHandle) (b : Behavior)
    (hb : b.isBuiltin = true) :
    (Site.mk frame.quiet h).execute chain b = (Site.mk frame h).execute chain.quiet b :=
  @execute_changed (fun c => { c with emitNodeEvents := false }) (fun _ => rfl) chain frame h b hb

variable {site : Site} {chain chain' : Chain}

/-- The steps of a node mirror each other if the chains that it runs do. -/
theorem Routine.mirrors {x y : Exec α} (h : Routine site chain chain' x y)
    (hchain : ∀ frame start, site.Reaches frame →
      Exec.Mirrors GraphEvent.audible (chain frame start) (chain' frame start)) :
    Exec.Mirrors GraphEvent.audible x y := by
  induction h with
  | pure a => exact .pure a
  | fail e _ => exact .fail e
  | read f hf => exact .read hf.withEvents
  | modify f hf => exact .modify hf.withEvents
  | message text => exact .emit _ rfl
  | await key => exact .await key
  | look f hf k k' _ ih => exact .look hf.withEvents ih
  | bind x y k k' _ _ ihx ihk => exact .bind ihx ihk
  | enclosed part restore hpart hrestore _ x y _ ih =>
    refine .bind (.read hpart.withEvents) fun kept => ?_
    refine .bind ih.attempt fun result => ?_
    exact .bind (.modify (hrestore kept).withEvents) fun _ => .ofResult result
  | chain frame start hreach => exact hchain frame start hreach

end Site

namespace Frame

theorem announce_mirrors (frame : Frame) (event : GraphEvent) (hevent : event.audible = false) :
    Exec.Mirrors GraphEvent.audible (frame.announce event) (frame.quiet.announce event) := by
  have hquiet : frame.quiet.announce event = pure () := rfl
  rw [hquiet]
  unfold announce
  split
  · exact .omit event hevent
  · exact .pure ()

theorem count_mirrors (frame : Frame) :
    Exec.Mirrors GraphEvent.audible frame.count frame.quiet.count := by
  have hsame : frame.quiet.engine.config.maxChainSteps = frame.engine.config.maxChainSteps := rfl
  unfold count
  rw [hsame]
  refine .bind (.modify fun _ _ => rfl) fun _ => ?_
  cases frame.engine.config.maxChainSteps with
  | none => exact .pure ()
  | some limit =>
    refine .bind (.read fun _ _ => rfl) fun steps => ?_
    by_cases hlimit : limit < steps
    · simp only [if_pos hlimit]
      exact .fail _
    · simp only [if_neg hlimit]
      exact .pure ()

theorem conclude_mirrors (frame : Frame) (guid : String) (result : Except GraphError Unit) :
    Exec.Mirrors GraphEvent.audible (frame.conclude guid result)
      (frame.quiet.conclude guid result) := by
  cases result with
  | ok _ => exact frame.announce_mirrors _ rfl
  | error e =>
    refine .bind (.modify fun _ _ => rfl) fun _ => ?_
    exact .bind (.emit _ rfl) fun _ => .fail e

/-- Chains of nodes of the library mirror each other. -/
def ChainMirrors (chain chain' : Chain) : Prop :=
  ∀ frame h, frame.All Network.OfLibrary →
    Exec.Mirrors GraphEvent.audible (chain frame h) (chain' frame.quiet h)

variable {chain chain' : Chain} (hchain : ChainMirrors chain chain') {frame : Frame}
  (hframe : frame.All Network.OfLibrary)

include hchain hframe

theorem invoke_mirrors (h : NodeHandle) :
    Exec.Mirrors GraphEvent.audible (frame.invoke chain h) (frame.quiet.invoke chain' h) := by
  unfold invoke
  have hsame : frame.quiet.graph.node? h = frame.graph.node? h := rfl
  rw [hsame]
  cases hx : frame.graph.node? h with
  | none => exact .fail _
  | some x =>
    have hbuiltin := (hframe.graph.network h x hx).1
    have hroutine := (Site.mk frame h).execute_routine chain chain'.quiet x.behavior hbuiltin
    have hexecute := hroutine.mirrors fun inner start hreach => hchain inner start (hreach.all hframe)
    refine .bind frame.count_mirrors fun _ => ?_
    refine .bind (.modify fun _ _ => rfl) fun _ => ?_
    refine .bind (frame.announce_mirrors _ rfl) fun _ => ?_
    refine .bind ?_ fun result => frame.conclude_mirrors x.guid result
    rw [Site.execute_quiet chain' frame h x.behavior hbuiltin]
    exact hexecute.attempt

theorem forEach_mirrors (path : List NodeHandle) :
    Exec.Mirrors GraphEvent.audible (Exec.forEach path (frame.invoke chain))
      (Exec.forEach path (frame.quiet.invoke chain')) := by
  induction path with
  | nil => exact .pure ()
  | cons m rest ih => exact .bind (invoke_mirrors hchain hframe m) fun _ => ih

theorem runNode_mirrors (h : NodeHandle) :
    Exec.Mirrors GraphEvent.audible (frame.runNode chain h) (frame.quiet.runNode chain' h) := by
  refine .bind (.modify fun _ _ => rfl) fun _ => ?_
  refine .bind (.ofResult _) fun path => ?_
  refine .bind (forEach_mirrors hchain hframe path) fun _ => ?_
  refine .bind (.modify fun _ _ => rfl) fun _ => ?_
  refine .bind (invoke_mirrors hchain hframe h) fun _ => ?_
  refine .bind (.read fun _ _ => rfl) fun next => ?_
  exact .bind (.modify fun _ _ => rfl) fun _ => .pure next

omit hchain hframe in
theorem runChain_mirrors (fuel : Nat) : ChainMirrors (runChain fuel) (runChain fuel) := by
  induction fuel with
  | zero => exact fun frame h _ s events => .exhausted s events
  | succ fuel ih =>
    intro frame h hframe
    refine .bind (runNode_mirrors ih hframe h) fun next => ?_
    cases next with
    | none => exact .pure ()
    | some k => exact ih frame k hframe

end Frame

/-! ## Section 4: Dispatches -/

namespace Dispatch

theorem conclude_mirrors (graph dispatchId entry : String) (result : Except GraphError Unit) :
    Exec.Mirrors GraphEvent.audible (conclude graph dispatchId entry result)
      (conclude graph dispatchId entry result) := by
  cases result with
  | ok _ =>
    refine .bind (.read fun _ _ => rfl) fun steps => ?_
    exact .bind (.emit _ rfl) fun _ => .read fun _ _ => rfl
  | error e =>
    refine .bind (.modify fun _ _ => rfl) fun _ => ?_
    exact .bind (.emit _ rfl) fun _ => .fail e

/-- A dispatch without announcements mirrors the one with them. -/
theorem start_mirrors (fuel : Nat) (engine : Engine) (g : Graph) (r : DispatchRequest) (s : Store)
    (hnodes : g.All Network.OfLibrary) (hlibrary : ∀ f ∈ engine.library, f.2.All Network.OfLibrary) :
    (start fuel engine g r s).Mirrors GraphEvent.audible (start fuel engine.quiet g r s)
      s.events.toList s.events := by
  unfold start
  split
  · exact .done _ { store := s } s.events
  · split
    · exact .done _ { store := s } s.events
    · rename_i entry _
      let frame := frameOf engine g r s
      have hrun : Exec.Mirrors GraphEvent.audible (run fuel frame entry)
          (run fuel frame.quiet entry) := by
        refine .bind (.emit _ rfl) fun _ => ?_
        refine .bind (Frame.runChain_mirrors fuel frame entry ⟨hnodes, hlibrary⟩).attempt ?_
        exact fun result => conclude_mirrors _ _ _ result
      exact hrun ⟨s.freshDispatch.2, 0, #[], none, r.effectivePayload.returned⟩ s.events

end Dispatch
end FlowGraph
