import FlowGraph.Proofs.Dispatch.Reach
import FlowGraph.Proofs.Dispatch.Reports

/-! # What the nodes of the library do

    A node of the library runs chains, reports messages, fails, waits, and otherwise neither
    looks at the ledger of the dispatch nor changes it; and a failure of a chain that it runs
    is its own failure.  It never fails for the limit on steps itself.  `Routine` gives
    these steps by rules, for two meanings of a chain at once, so that what holds of both
    meanings is carried over to the nodes (`Site.execute_routine`). -/

namespace FlowGraph

variable {α β : Type}

/-- Whether the error is that of a limit on steps. -/
def GraphError.isStepLimit : GraphError → Bool
  | .stepLimitExceeded _ => true
  | _ => false

/-! ## Section 1: Steps of a site -/

namespace Site

theorem blind_input (site : Site) (name : String) (index : Nat) :
    Store.Blind (site.input name index) := fun _ _ => rfl

theorem silent_output (site : Site) (name : String) (index : Nat) (v : Value) :
    Store.Silent (site.output name index v) := by
  intro s events
  unfold output
  split
  · unfold Network.writePort
    split
    · rfl
    · rfl
  · rfl

theorem silent_output_of (site : Site) (name : String) (index : Nat) (v : Store → Value)
    (hv : Store.Blind v) : Store.Silent fun s => site.output name index (v s) s := by
  intro s events
  show site.output name index (v (s.withEvents events)) (s.withEvents events) = _
  rw [hv]
  exact site.silent_output name index (v s) s events

theorem silent_publish (site : Site) (indices : List Nat) (v : Nat → Value) :
    Store.Silent fun s =>
      indices.foldl (fun s index => site.output "args" index (v index) s) s := by
  induction indices with
  | nil => exact fun _ _ => rfl
  | cons index rest ih =>
    intro s events
    have hfirst := site.silent_output "args" index (v index) s events
    have hrest := ih (site.output "args" index (v index) s) events
    rw [← hfirst] at hrest
    exact hrest

/-! ## Section 2: Routines -/

/-- Steps of an executing node, for two meanings of a chain. -/
inductive Routine (site : Site) (chain chain' : Chain) :
    {α : Type} → Exec α → Exec α → Prop where
  | pure {α : Type} (a : α) : Routine site chain chain' (Pure.pure a) (Pure.pure a)
  | fail {α : Type} (e : GraphError) (he : e.isStepLimit = false) :
      Routine site chain chain' (Exec.fail e : Exec α) (Exec.fail e)
  | read {α : Type} (f : DispatchState → α) (hf : Blind f) :
      Routine site chain chain' (Exec.read f) (Exec.read f)
  | modify (f : DispatchState → DispatchState) (hf : Silent f) :
      Routine site chain chain' (Exec.modify f) (Exec.modify f)
  | message (text : String) : Routine site chain chain' (site.message text) (site.message text)
  | await (key : WaitKey) : Routine site chain chain' (Exec.await key) (Exec.await key)
  /-- What is looked at is known to be a part of a state. -/
  | look {α β : Type} (f : DispatchState → β) (hf : Blind f) (k k' : β → Exec α)
      (hk : ∀ s, Routine site chain chain' (k (f s)) (k' (f s))) :
      Routine site chain chain' (Exec.read f >>= k) (Exec.read f >>= k')
  | bind {α β : Type} (x y : Exec β) (k k' : β → Exec α) (hx : Routine site chain chain' x y)
      (hk : ∀ b, Routine site chain chain' (k b) (k' b)) :
      Routine site chain chain' (x >>= k) (y >>= k')
  | enclosed {α β : Type} (part : DispatchState → β)
      (restore : β → DispatchState → DispatchState) (hpart : Blind part)
      (hrestore : ∀ b, Silent (restore b)) (hstore : ∀ b s, (restore b s).store = s.store)
      (x y : Exec α) (hx : Routine site chain chain' x y) :
      Routine site chain chain' (enclosed part restore x) (enclosed part restore y)
  /-- A chain in a frame that the node reaches. -/
  | chain (frame : Frame) (start : NodeHandle) (h : site.Reaches frame) :
      Routine site chain chain' (chain frame start) (chain' frame start)

variable {site : Site} {chain chain' : Chain}

theorem Routine.update (f : Store → Store) (hf : Store.Silent f) :
    Routine site chain chain' (Exec.update f) (Exec.update f) := .modify _ hf.update

theorem Routine.view (f : Store → α) (hf : Store.Blind f) :
    Routine site chain chain' (Exec.view f) (Exec.view f) := .read _ hf.view

theorem Routine.write (name : String) (v : Value) :
    Routine site chain chain' (site.write name v) (site.write name v) :=
  .update _ (site.silent_output name 0 v)

theorem Routine.input (name : String) :
    Routine site chain chain' (site.read name) (site.read name) :=
  .view _ (site.blind_input name 0)

theorem Routine.continueWith (name : String) :
    Routine site chain chain' (site.continueWith name) (site.continueWith name) :=
  .modify _ fun _ _ => rfl

theorem Routine.forEach (xs : List β) (f g : β → Exec Unit)
    (hf : ∀ x ∈ xs, Routine site chain chain' (f x) (g x)) :
    Routine site chain chain' (Exec.forEach xs f) (Exec.forEach xs g) := by
  induction xs with
  | nil => exact .pure ()
  | cons x rest ih =>
    refine .bind (f x) (g x) _ _ (hf x List.mem_cons_self) fun _ => ?_
    exact ih fun y hy => hf y (List.mem_cons_of_mem x hy)

/-! ## Section 3: Sub-executions -/

theorem routine_forwardPort (name : String) (index : Nat) :
    Routine site chain chain' (site.forwardPort chain name index)
      (site.forwardPort chain' name index) := by
  unfold forwardPort
  split
  · rename_i start _
    unfold forward
    split
    · exact .fail _ rfl
    · exact .enclosed (·.next) restoreNext (fun _ _ => rfl) (fun _ _ _ => rfl) (fun _ _ => rfl)
        _ _ (.chain site.inner start .inner)
  · exact .pure ()

theorem routine_loop (count : Nat) (index : Int) :
    Routine site chain chain' (site.loop chain count index) (site.loop chain' count index) := by
  induction count generalizing index with
  | zero => exact .pure ()
  | succ count ih =>
    refine .bind _ _ _ _ (.write "index" _) fun _ => ?_
    exact .bind _ _ _ _ (routine_forwardPort "body" 0) fun _ => ih (index + 1)

/-- A call fails before it starts for reasons of its own. -/
theorem isStepLimit_of_callee (name : String) (s : Store) (e : GraphError)
    (h : site.callee name s = .error e) : e.isStepLimit = false := by
  unfold callee at h
  split at h
  · cases h
    rfl
  · split at h
    · cases h
      rfl
    · split at h
      · cases h
        rfl
      · split at h
        · cases h
          rfl
        · cases h

/-- The callee of a call is a function that the node reaches. -/
theorem routine_call (name : String) (arguments : List Value) :
    Routine site chain chain' (site.call chain name arguments)
      (site.call chain' name arguments) := by
  refine .look (fun s => site.callee name s.store) (fun _ _ => rfl) _ _ fun s => ?_
  cases hcallee : site.callee name s.store with
  | error e =>
    show Routine site chain chain' (Exec.fail e) (Exec.fail e)
    exact .fail e (isStepLimit_of_callee name s.store e hcallee)
  | ok callee =>
    obtain ⟨g, entry⟩ := callee
    have hreach : site.Reaches (site.callFrame g ⟨name, arguments⟩) :=
      .call name s.store g entry _ hcallee
    refine .enclosed callerPart restoreCaller (fun _ _ => rfl) (fun _ _ _ => rfl)
      (fun _ _ => rfl) _ _ ?_
    refine .bind _ _ _ _ (.modify _ fun _ _ => rfl) fun _ => ?_
    exact .bind _ _ _ _ (.chain _ entry hreach) fun _ => .read _ fun _ _ => rfl

/-! ## Section 4: Nodes -/

theorem routine_publish (site : Site) (chain chain' : Chain) :
    Routine site chain chain' site.publish site.publish :=
  .update _ (site.silent_publish _ _)

theorem routine_binary (site : Site) (chain chain' : Chain) (f : Float → Float → Value) :
    Routine site chain chain' (site.binary f) (site.binary f) :=
  .update _ (site.silent_output_of "result" 0
    (fun s => f (site.number "a" s) (site.number "b" s)) fun _ _ => rfl)

theorem routine_delay (site : Site) (chain chain' : Chain) :
    Routine site chain chain' site.delay site.delay := by
  refine .bind _ _ _ _ (.input "seconds") fun v => ?_
  dsimp only
  split
  · exact .fail _ rfl
  · refine .bind _ _ _ _ (.view _ fun _ _ => rfl) fun scheduled => ?_
    refine .bind _ _ _ _ (.update _ fun _ _ => rfl) fun _ => ?_
    refine .bind _ _ _ _ (.write "handle" _) fun _ => ?_
    exact .bind _ _ _ _ (.await _) fun _ => .continueWith "next"

theorem routine_logMessage (site : Site) (chain chain' : Chain) (level : LogLevel) :
    Routine site chain chain' (site.logMessage level) (site.logMessage level) := by
  refine .bind _ _ _ _ (.input "message") fun v => ?_
  have hrest : Routine site chain chain'
      (do site.message v.toText; site.continueWith "next")
      (do site.message v.toText; site.continueWith "next") :=
    .bind _ _ _ _ (.message v.toText) fun _ => .continueWith "next"
  dsimp only
  split
  · exact .bind _ _ _ _ (.update _ fun _ _ => rfl) fun _ => hrest
  · exact hrest

theorem routine_setVariable (site : Site) (chain chain' : Chain) :
    Routine site chain chain' site.setVariable site.setVariable := by
  refine .bind _ _ _ _ (.input "value") fun v => ?_
  dsimp only
  split
  · exact .bind _ _ _ _ (.update _ fun _ _ => rfl) fun _ => .continueWith "next"
  · exact .bind _ _ _ _ (.update _ fun _ _ => rfl) fun _ => .continueWith "next"

theorem routine_describeTarget (site : Site) (chain chain' : Chain) :
    Routine site chain chain' site.describeTarget site.describeTarget := by
  refine .bind _ _ _ _ (.view _ fun _ _ => rfl) fun target => ?_
  cases target with
  | some ref =>
    refine .bind _ _ _ _ (.write "kind" _) fun _ => ?_
    exact .bind _ _ _ _ (.write "valid" _) fun _ => .write "object" _
  | none =>
    refine .bind _ _ _ _ (.write "kind" _) fun _ => ?_
    exact .bind _ _ _ _ (.write "valid" _) fun _ => .write "object" _

/-- Every node of the library takes these steps. -/
theorem execute_routine (site : Site) (chain chain' : Chain) (b : Behavior)
    (hb : b.isBuiltin = true) :
    Routine site chain chain' (site.execute chain b) (site.execute chain' b) := by
  cases b with
  | executionEvent name =>
    exact .bind _ _ _ _ (routine_publish site _ _) fun _ => .continueWith "next"
  | functionInput name =>
    exact .bind _ _ _ _ (routine_publish site _ _) fun _ => .continueWith "next"
  | branch => exact .bind _ _ _ _ (.input "condition") fun _ => .continueWith _
  | sequence => exact .forEach _ _ _ fun index _ => routine_forwardPort "then" index
  | forLoop =>
    refine .bind _ _ _ _ (.input "first") fun first => ?_
    refine .bind _ _ _ _ (.input "last") fun last => ?_
    exact .bind _ _ _ _ (routine_loop _ _) fun _ => .continueWith "completed"
  | delay => exact routine_delay site chain chain'
  | log level => exact routine_logMessage site chain chain' level
  | literal type raw => exact .write "value" _
  | add => exact routine_binary site chain chain' fun a b => .float (a + b)
  | multiply => exact routine_binary site chain chain' fun a b => .float (a * b)
  | compare op => exact routine_binary site chain chain' fun a b => .bool (op.apply a b)
  | getVariable =>
    exact .update _ (site.silent_output_of "value" 0 (site.variableValue "variable") fun _ _ => rfl)
  | setVariable => exact routine_setVariable site chain chain'
  | functionOutput =>
    refine .bind _ _ _ _ (.input "value") fun v => ?_
    exact .bind _ _ _ _ (.modify _ fun _ _ => rfl) fun _ => .modify _ fun _ _ => rfl
  | invokeFunction name =>
    refine .bind _ _ _ _ (.view _ fun _ _ => rfl) fun arguments => ?_
    refine .bind _ _ _ _ (routine_call name arguments) fun result => ?_
    exact .bind _ _ _ _ (.write "result" result) fun _ => .continueWith "next"
  | describeTarget => exact routine_describeTarget site chain chain'
  | placeholder node => exact .pure ()
  | script script => cases hb

end Site

/-! ## Section 5: Configurations -/

/-- The frame with a changed configuration. -/
def Frame.changed (change : EngineConfig → EngineConfig) (frame : Frame) : Frame :=
  { frame with engine := { frame.engine with config := change frame.engine.config } }

/-- The chains in such frames. -/
def Chain.changed (change : EngineConfig → EngineConfig) (chain : Chain) : Chain :=
  fun frame h => chain (frame.changed change) h

namespace Site

variable {change : EngineConfig → EngineConfig}
  (hdepth : ∀ c, (change c).maxForwardDepth = c.maxForwardDepth) (chain : Chain) (frame : Frame)
  (h : NodeHandle)

include hdepth

theorem forwardPort_changed (name : String) (index : Nat) :
    (Site.mk (frame.changed change) h).forwardPort chain name index
      = (Site.mk frame h).forwardPort (chain.changed change) name index := by
  have hmax : (Site.mk (frame.changed change) h).maxDepth = (Site.mk frame h).maxDepth := hdepth _
  unfold forwardPort forward
  rw [hmax]
  rfl

theorem loop_changed (count : Nat) (index : Int) :
    (Site.mk (frame.changed change) h).loop chain count index
      = (Site.mk frame h).loop (chain.changed change) count index := by
  induction count generalizing index with
  | zero => rfl
  | succ count ih =>
    unfold loop
    rw [ih, forwardPort_changed hdepth]
    rfl

theorem call_changed (name : String) (arguments : List Value) :
    (Site.mk (frame.changed change) h).call chain name arguments
      = (Site.mk frame h).call (chain.changed change) name arguments := by
  have hcallee : (Site.mk (frame.changed change) h).callee name
      = (Site.mk frame h).callee name := by
    have hmax : (Site.mk (frame.changed change) h).maxDepth = (Site.mk frame h).maxDepth :=
      hdepth _
    unfold callee
    rw [hmax]
    rfl
  unfold call
  rw [hcallee]
  rfl

/-- A node only passes the configuration on to the chains that it runs, the limit on nesting
    apart. -/
theorem execute_changed (b : Behavior) (hb : b.isBuiltin = true) :
    (Site.mk (frame.changed change) h).execute chain b
      = (Site.mk frame h).execute (chain.changed change) b := by
  cases b with
  | sequence =>
    unfold execute
    have hport : (Site.mk (frame.changed change) h).forwardPort chain "then"
        = (Site.mk frame h).forwardPort (chain.changed change) "then" :=
      funext fun index => forwardPort_changed hdepth chain frame h "then" index
    rw [hport]
    rfl
  | forLoop =>
    unfold execute forLoop
    simp only [loop_changed hdepth]
    rfl
  | invokeFunction name =>
    unfold execute invokeFunction
    simp only [call_changed hdepth]
    rfl
  | script script => cases hb
  | _ => rfl

end Site
end FlowGraph
