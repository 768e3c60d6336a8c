import FlowGraph.Proofs.Dispatch.Failures
import FlowGraph.Proofs.Dispatch.Trace

/-! # Look-ups of a running dispatch

    A dispatch looks up the dependency path of each node that it comes to, and each node that
    it runs.  With nodes of the library these look-ups succeed: the same dispatch in which a
    failed look-up would do anything else is no different (`Guarded.start_eq`).  What else it
    can fail for is known (`Dispatch.Failure`), and the main theorem says which errors are
    left (`Dispatch.lookups_succeed`). -/

namespace FlowGraph

open Dispatch

/-! ## Section 1: Nodes with another meaning of a chain -/

namespace Site

variable {site : Site} {chain chain' : Chain}
  (hforward : ∀ name index k, site.successor name index = some k →
    chain site.inner k = chain' site.inner k)

include hforward

theorem forwardPort_congr (name : String) (index : Nat) :
    site.forwardPort chain name index = site.forwardPort chain' name index := by
  unfold forwardPort
  split
  · rename_i k hk
    unfold forward
    rw [hforward name index k hk]
  · rfl

theorem loop_congr (count : Nat) (index : Int) :
    site.loop chain count index = site.loop chain' count index := by
  induction count generalizing index with
  | zero => rfl
  | succ count ih =>
    unfold loop
    rw [ih, forwardPort_congr hforward]

omit hforward in
theorem call_congr (name : String) (arguments : List Value)
    (hcall : ∀ s f entry call, site.callee name s = .ok (f, entry) →
      chain (site.callFrame f call) entry = chain' (site.callFrame f call) entry) :
    site.call chain name arguments = site.call chain' name arguments := by
  funext s
  show (Exec.ofResult (site.callee name s.store) >>= _ : Exec Value) s
    = (Exec.ofResult (site.callee name s.store) >>= _ : Exec Value) s
  cases hcallee : site.callee name s.store with
  | error e => rfl
  | ok found =>
    obtain ⟨f, entry⟩ := found
    show enclosed callerPart restoreCaller (activation chain _ entry) s
      = enclosed callerPart restoreCaller (activation chain' _ entry) s
    unfold activation
    rw [hcall s.store f entry _ hcallee]

/-- A node of the library only runs the chains of its successors and of what it calls. -/
theorem execute_congr (hcall : ∀ name s f entry call, site.callee name s = .ok (f, entry) →
      chain (site.callFrame f call) entry = chain' (site.callFrame f call) entry)
    (b : Behavior) (hb : b.isBuiltin = true) : site.execute chain b = site.execute chain' b := by
  cases b with
  | sequence =>
    unfold execute
    rw [show site.forwardPort chain "then" = site.forwardPort chain' "then" from
      funext fun index => forwardPort_congr hforward "then" index]
  | forLoop =>
    unfold execute forLoop
    simp only [loop_congr hforward]
  | invokeFunction name =>
    unfold execute invokeFunction
    simp only [call_congr name _ (hcall name)]
  | script script => cases hb
  | _ => rfl

end Site

/-! ## Section 2: Guarded dispatches -/

namespace Guarded

variable (breach : Frame → NodeHandle → Exec Unit)

/-- Run a node, or `breach` if there is none. -/
def invoke (chain : Chain) (frame : Frame) (h : NodeHandle) : Exec Unit :=
  match frame.graph.node? h with
  | none => breach frame h
  | some _ => frame.invoke chain h

/-- Run the dependency path of a node and then the node, or `breach` if there is no path; the
    successor that the node selected. -/
def runNode (chain : Chain) (frame : Frame) (h : NodeHandle) : Exec (Option NodeHandle) := do
  match frame.graph.dependencyPath h with
  | .error _ =>
    breach frame h
    return none
  | .ok path =>
    Frame.clearNext
    Exec.forEach path (invoke breach chain frame)
    Frame.clearNext
    invoke breach chain frame h
    let next ← Exec.read (·.next)
    Frame.clearNext
    return next

/-- Run the chain that starts at a node. -/
def runChain : (fuel : Nat) → Chain
  | 0, _, _ => fun s => .exhausted s
  | fuel + 1, frame, h => do
    match ← runNode breach (runChain fuel) frame h with
    | some next => runChain fuel frame next
    | none => pure ()

/-- Run a graph from an entry node. -/
def run (fuel : Nat) (frame : Frame) (entry : NodeHandle) : Exec DispatchOutcome := do
  let guid := ((frame.graph.node? entry).map (·.guid)).getD ""
  Exec.update (·.emit (.dispatchStarted frame.graph.name frame.dispatchId guid))
  let result ← (runChain breach fuel frame entry).attempt
  Dispatch.conclude frame.graph.name frame.dispatchId guid result

/-- Dispatch a request. -/
def start (fuel : Nat) (engine : Engine) (g : Graph) (r : DispatchRequest) (s : Store) :
    Process DispatchOutcome :=
  if !g.isRunnable s then .done (.error (.notCompiled g.name)) { store := s }
  else
    match r.entry.find? g.toNetwork with
    | none => .done (.error (.unknownEntry r.entry.text)) { store := s }
    | some entry =>
      run breach fuel (frameOf engine g r s) entry
        { store := s.freshDispatch.2, returned := r.effectivePayload.returned }

/-! ## Section 3: Nothing is breached -/

variable {breach} {engine : Engine} {g : Graph} {frame : Frame} {chain chain' : Chain}
  (husable : ∀ f, Scope engine g f → f.Usable) (hframe : frame.InScope engine g)
  (hchain : ∀ frame h, frame.InScope engine g → frame.graph.toNetwork.Live h →
    chain frame h = chain' frame h)

include husable hframe hchain

theorem invoke_eq (h : NodeHandle) (hh : frame.graph.toNetwork.Live h) :
    invoke breach chain frame h = frame.invoke chain' h := by
  obtain ⟨x, hx⟩ := hh
  have hexecute : (Site.mk frame h).execute chain x.behavior
      = (Site.mk frame h).execute chain' x.behavior := by
    have hcomplete : frame.graph.toNetwork.Complete :=
      (husable _ hframe.graph).kept.complete hframe.compiled
    refine Site.execute_congr (fun name index k hk => ?_) (fun name s f entry call hcallee => ?_) _
      ((husable _ hframe.graph).builtin h x hx)
    · exact hchain _ k ⟨hframe.engine_eq, hframe.graph, hframe.compiled⟩
        (Site.live_of_successor hcomplete.targets name index k hk)
    · exact hchain _ entry (Site.inScope_callFrame hframe name s f entry call hcallee)
        (f.live_of_findEntry name entry (Site.callee_eq_ok name s f entry hcallee).2.2)
  unfold invoke Frame.invoke
  simp only [show frame.graph.node? h = some x from hx]
  rw [hexecute]

theorem runNode_eq (h : NodeHandle) (hh : frame.graph.toNetwork.Live h) :
    runNode breach chain frame h = frame.runNode chain' h := by
  obtain ⟨_, _, path, _, _, hpath, _, hlive⟩ :=
    ((husable _ hframe.graph).kept.complete hframe.compiled).dependencyPath h hh
  have hinvoke : ∀ m, frame.graph.toNetwork.Live m →
      invoke breach chain frame m = frame.invoke chain' m :=
    invoke_eq husable hframe hchain
  have hsame : ∀ ms : List NodeHandle, (∀ m ∈ ms, frame.graph.toNetwork.Live m) →
      Exec.forEach ms (invoke breach chain frame) = Exec.forEach ms (frame.invoke chain') := by
    intro ms hms
    induction ms with
    | nil => rfl
    | cons m rest ih =>
      rw [List.forall_mem_cons] at hms
      unfold Exec.forEach
      rw [hinvoke m hms.1, ih hms.2]
  unfold runNode Frame.runNode
  rw [hpath]
  dsimp only
  rw [hsame path hlive, hinvoke h hh]
  rfl

omit hframe hchain in
theorem runChain_eq (fuel : Nat) (frame : Frame) (h : NodeHandle) (hframe : frame.InScope engine g)
    (hh : frame.graph.toNetwork.Live h) :
    runChain breach fuel frame h = Frame.runChain fuel frame h := by
  induction fuel generalizing frame h with
  | zero => rfl
  | succ fuel ih =>
    unfold runChain Frame.runChain
    rw [runNode_eq husable hframe ih h hh]
    funext s
    -- the chain goes on with a node that was selected
    refine Process.Meets.bind_congr (Frame.runNode_meets husable hframe
      (Frame.runChain_meets husable fuel) h hh s) fun next t hnext => ?_
    cases next with
    | none => rfl
    | some k => exact congrFun (ih frame k hframe (hnext k rfl)) t

omit hframe hchain in
/-- A guarded dispatch is the dispatch. -/
theorem start_eq (fuel : Nat) (r : DispatchRequest) (s : Store) :
    start breach fuel engine g r s = Dispatch.start fuel engine g r s := by
  unfold start Dispatch.start
  split
  · rfl
  · rename_i hrun
    cases hentry : r.entry.find? g.toNetwork with
    | none => rfl
    | some entry =>
      have hframe := inScope_frameOf engine g r s (by simpa using hrun)
      have hchain : runChain breach fuel (frameOf engine g r s) entry
          = Frame.runChain fuel (frameOf engine g r s) entry :=
        runChain_eq husable fuel _ entry hframe (live_of_find? r.entry g.toNetwork entry hentry)
      show run breach fuel (frameOf engine g r s) entry _
        = Dispatch.run fuel (frameOf engine g r s) entry _
      unfold run Dispatch.run
      rw [hchain]
      rfl

end Guarded

/-! ## Section 4: Dispatches -/

namespace Dispatch

/-- A dispatch that starts fails as its chain does. -/
theorem start_meets {allowed : Except GraphError Unit → Prop} {engine : Engine} {g : Graph}
    (husable : ∀ f, Scope engine g f → f.Usable) (fuel : Nat) (r : DispatchRequest) (s : Store)
    (hrun : g.isRunnable s = true) (entry : NodeHandle)
    (hentry : r.entry.find? g.toNetwork = some entry) :
    (start fuel engine g r s).Meets allowed (Failure allowed engine g) fun _ _ => True := by
  have hframe := inScope_frameOf engine g r s hrun
  have hlive := live_of_find? r.entry g.toNetwork entry hentry
  unfold start
  simp only [hrun, Bool.not_true, Bool.false_eq_true, if_false, hentry]
  refine Process.Meets.attempt_bind (Frame.runChain_meets husable fuel (frameOf engine g r s) entry
    hframe hlive _) (fun _ t _ => trivial) fun e t he => ?_
  exact he.later ⟨rfl, rfl⟩

/-- **Main theorem: look-ups succeed.**  Let a graph and the functions of the library have been
    made by any operations, with nodes of the library, and let the graph be runnable and have
    the entry that is asked for.  Then each node of a compiled graph that the dispatch comes to
    has a dependency path, all nodes on it are there, and so are those that its control
    outputs lead to; whatever were done where a look-up fails, the dispatch would be the same.
    So, with waits that are answered as the scheduler does, the dispatch never fails for a
    node, port, cycle, type or binding.  It fails for a graph that is not compiled only where
    a node called a function that cannot be run, and for an unknown entry only where a node
    called a function that has no entry of the name. -/
theorem lookups_succeed (fuel : Nat) (engine : Engine) (g : Graph) (r : DispatchRequest) (s : Store)
    (entry : NodeHandle) (hg : g.Hosted) (hlibrary : ∀ e ∈ engine.library, e.2.Hosted)
    (hnodes : ∀ f, Scope engine g f → ∀ h x, f.node? h = some x → x.behavior.isBuiltin = true)
    (hrun : g.isRunnable s = true) (hentry : r.entry.find? g.toNetwork = some entry) :
    (∀ f, Scope engine g f → f.compiled = true → ∀ h, f.toNetwork.Live h →
      (∃ path, f.dependencyPath h = .ok path ∧ ∀ m ∈ path, f.toNetwork.Live m) ∧
      ∀ x p k, f.node? h = some x → p ∈ x.ports → p.target = some k → f.toNetwork.Live k) ∧
    (∀ breach, Guarded.start breach fuel engine g r s = start fuel engine g r s) ∧
    ∀ answers, (∀ a ∈ answers, IsAnswer a.1) → ∀ e t,
      (start fuel engine g r s).resumed answers = .done (.error e) t →
        (∀ node, e ≠ .unknownNode node) ∧ (∀ node port, e ≠ .unknownPort node port) ∧
        (∀ cycle, e ≠ .circularDependency cycle) ∧ (∀ type, e ≠ .typeResolution type) ∧
        (∀ reason, e ≠ .variableBinding reason) ∧
        (∀ graph, e = .notCompiled graph → ∃ name f, Called engine g t name (some f) ∧
          f.name = graph ∧ f.isRunnable t.store = false) ∧
        ∀ text, e = .unknownEntry text → ∃ name f, Called engine g t name (some f) ∧
          text = "function '" ++ name ++ "'" ∧ f.findEntry name = none := by
  have husable : ∀ f, Scope engine g f → f.Usable := by
    intro f hf
    refine ⟨?_, hnodes f hf⟩
    rcases hf with hf | ⟨e, he, hf⟩
    · exact hg.kept f hf
    · exact (hlibrary e he).kept f hf
  refine ⟨fun f hf hcompiled h hh => ?_, fun breach => Guarded.start_eq husable fuel r s, ?_⟩
  · have hcomplete := (husable f hf).kept.complete hcompiled
    obtain ⟨_, _, path, _, _, hpath, _, hlive⟩ := hcomplete.dependencyPath h hh
    exact ⟨⟨path, hpath, hlive⟩, fun x p k hx hp hk => hcomplete.targets h x hx p hp k hk⟩
  · intro answers hanswers e t hends
    have hmeets := (start_meets husable fuel r s hrun entry hentry).resumed answers hanswers
    rw [hends] at hmeets
    have hfailure : Failure IsAnswer engine g e t := hmeets
    -- a wait is only answered with a cancellation
    have hanswered : ∀ e', IsAnswer (.error e') → e' = .cancelled := by
      intro e' h
      rcases h with h | h
      · cases h
      · exact Except.error.inj h
    cases hfailure with
    | answered _ he =>
      obtain rfl := hanswered e he
      simp
    | notCompiled name f _ hcalls hf =>
      refine ⟨by simp, by simp, by simp, by simp, by simp, fun graph h => ?_, by simp⟩
      cases h
      exact ⟨name, f, hcalls, rfl, hf⟩
    | unknownEntry name f _ hcalls hf =>
      refine ⟨by simp, by simp, by simp, by simp, by simp, by simp, fun text h => ?_⟩
      cases h
      exact ⟨name, f, hcalls, rfl, hf⟩
    | _ => simp

/-- A greeting whose function was disposed is refused where it calls, after four nodes were
    run; its look-ups succeeded until then. -/
theorem lookups_succeed_greeting :
    let g := greetingState.1
    let s := (((g.function? "answer").map fun f => (f.dispose greetingState.2).2).getD greetingState.2)
    let r : DispatchRequest := { entry := .event "go" }
    ∃ t, (start 10 {} g r s).resumed [] = .done (.error (.notCompiled "answering")) t ∧
      t.trace = #["go", "each", "text", "say", "call"] ∧
      (∀ breach, Guarded.start breach 10 {} g r s = start 10 {} g r s) ∧
      ∃ name f, Called {} g t name (some f) ∧ f.name = "answering" ∧
        f.isRunnable t.store = false := by
  intro g s r
  obtain ⟨hhosted, hlibrary⟩ := Graph.built_ofLibrary greeting .standard default
  have hnodes : ∀ f, Scope {} g f → ∀ h x, f.node? h = some x → x.behavior.isBuiltin = true := by
    intro f hf h x hx
    rcases hf with hf | ⟨e, he, _⟩
    · exact (hlibrary.within hf h x hx).1
    · cases he
  have hrun : g.isRunnable s = true := by decide +kernel
  obtain ⟨entry, hentry⟩ : ∃ entry, r.entry.find? g.toNetwork = some entry :=
    Option.isSome_iff_exists.mp (by decide +kernel)
  obtain ⟨_, hguarded, hends⟩ := lookups_succeed 10 {} g r s entry hhosted (List.forall_mem_nil _)
    hnodes hrun hentry
  have hresult : (start 10 {} g r s).result? = some (.error (.notCompiled "answering")) := by
    decide +kernel
  obtain ⟨t, ht⟩ := (start 10 {} g r s).eq_done_of_result? _ hresult
  have htrace : (start 10 {} g r s).state.trace = #["go", "each", "text", "say", "call"] := by
    decide +kernel
  rw [ht] at htrace
  have hdone : (start 10 {} g r s).resumed [] = .done (.error (.notCompiled "answering")) t := by
    rw [ht]
    rfl
  obtain ⟨_, _, _, _, _, hrefused, _⟩ := hends [] (List.forall_mem_nil _) _ t hdone
  exact ⟨t, hdone, htrace, hguarded, hrefused "answering" rfl⟩

end Dispatch
end FlowGraph
