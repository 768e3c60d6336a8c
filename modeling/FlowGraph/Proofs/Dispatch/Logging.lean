import FlowGraph.Dispatch.Basic
import FlowGraph.Proofs.Dispatch.Answers

/-! # The log of a dispatch

    Dispatches write to the log and never read it.  So from two stores that differ in their
    logs at most, a dispatch does the same, and what it leaves behind differs in the logs at
    most (`Dispatch.start_sameButLog`).

    `Process.SameButLog` relates two processes that do the same, and go on so after each wait
    that ends in the same way, with stores that again differ in their logs at most. -/

namespace FlowGraph

variable {α β : Type}

/-! ## Section 1: Processes that differ in what they log -/

/-- The store with another log. -/
def Store.withLog (s : Store) (log : Log) : Store := { s with log }

/-- The state with another log. -/
def DispatchState.withLog (s : DispatchState) (log : Log) : DispatchState :=
  { s with store := s.store.withLog log }

/-- Two processes do the same, but for what they log. -/
inductive Process.SameButLog : Process α → Process α → Prop where
  | done (result : Except GraphError α) (s : DispatchState) (log : Log) :
    SameButLog (.done result s) (.done result (s.withLog log))
  | waiting (key : WaitKey) (s : DispatchState) (log : Log)
      (resume resume' : Except GraphError Unit → Store → Process α)
      (resumes : ∀ answer store log,
        SameButLog (resume answer store) (resume' answer (store.withLog log))) :
    SameButLog (.waiting key s resume) (.waiting key (s.withLog log) resume')
  | exhausted (s : DispatchState) (log : Log) :
    SameButLog (.exhausted s) (.exhausted (s.withLog log))

namespace Process.SameButLog

variable {p q : Process α}

/-- They have the same result, if any, and their states differ in the log at most. -/
theorem result_state (h : p.SameButLog q) :
    q.result? = p.result? ∧ ∃ log, q.state = p.state.withLog log := by
  cases h with
  | done result s log => exact ⟨rfl, log, rfl⟩
  | waiting key s log resume resume' resumes => exact ⟨rfl, log, rfl⟩
  | exhausted s log => exact ⟨rfl, log, rfl⟩

/-- Steps in a row do the same if the first ones and the others do. -/
theorem bind (h : p.SameButLog q) {f g : α → DispatchState → Process β}
    (hfg : ∀ a s log, (f a s).SameButLog (g a (s.withLog log))) :
    (p.bind f).SameButLog (q.bind g) := by
  induction h with
  | done result s log =>
    cases result with
    | ok a => exact hfg a s log
    | error e => exact .done (.error e) s log
  | waiting key s log resume resume' _ ih => exact .waiting key s log _ _ ih
  | exhausted s log => exact .exhausted s log

theorem attempt (h : p.SameButLog q) : p.attempt.SameButLog q.attempt := by
  induction h with
  | done result s log => exact .done (.ok result) s log
  | waiting key s log resume resume' _ ih => exact .waiting key s log _ _ ih
  | exhausted s log => exact .exhausted s log

end Process.SameButLog

/-! ## Section 2: Steps that do not read the log -/

/-- The steps do the same whatever is in the log. -/
def Exec.LogFree (x : Exec α) : Prop := ∀ s log, (x s).SameButLog (x (s.withLog log))

namespace Exec.LogFree

theorem pure (a : α) : LogFree (Pure.pure a) := fun s log => .done (.ok a) s log

theorem fail (e : GraphError) : LogFree (Exec.fail e : Exec α) :=
  fun s log => .done (.error e) s log

theorem bind {x : Exec α} {k : α → Exec β} (hx : LogFree x) (hk : ∀ a, LogFree (k a)) :
    LogFree (x >>= k) :=
  fun s log => (hx s log).bind fun a t log => hk a t log

theorem attempt {x : Exec α} (hx : LogFree x) : LogFree x.attempt :=
  fun s log => (hx s log).attempt

theorem ofResult (result : Except GraphError α) : LogFree (Exec.ofResult result) := by
  cases result with
  | ok a => exact .pure a
  | error e => exact .fail e

theorem read (f : DispatchState → α) (hf : ∀ s log, f (s.withLog log) = f s) :
    LogFree (Exec.read f) := by
  intro s log
  show (Process.done (.ok (f s)) s).SameButLog (.done (.ok (f (s.withLog log))) (s.withLog log))
  rw [hf]
  exact .done _ s log

theorem view (f : Store → α) (hf : ∀ s log, f (s.withLog log) = f s) : LogFree (Exec.view f) :=
  .read _ fun s log => hf s.store log

theorem modify (f : DispatchState → DispatchState)
    (hf : ∀ s log, f (s.withLog log) = (f s).withLog log) : LogFree (Exec.modify f) := by
  intro s log
  show (Process.done (.ok ()) (f s)).SameButLog (.done (.ok ()) (f (s.withLog log)))
  rw [hf]
  exact .done _ (f s) log

theorem update (f : Store → Store) (hf : ∀ s log, f (s.withLog log) = (f s).withLog log) :
    LogFree (Exec.update f) := by
  refine .modify _ fun s log => ?_
  show { s.withLog log with store := f (s.store.withLog log) } = _
  rw [hf]
  rfl

/-- A line is added to either log. -/
theorem report (level : LogLevel) (text : String) :
    LogFree (Exec.update (·.report level text)) :=
  fun s log => .done (.ok ()) { s with store := s.store.report level text } (log.add level text)

theorem forEach {ι : Type} (xs : List ι) (f : ι → Exec Unit) (hf : ∀ x, LogFree (f x)) :
    LogFree (Exec.forEach xs f) := by
  induction xs with
  | nil => exact .pure ()
  | cons x rest ih => exact (hf x).bind fun _ => ih

theorem await (key : WaitKey) : LogFree (Exec.await key) := by
  intro s log
  have hsame : (s.withLog log).store.scheduler = s.store.scheduler := rfl
  unfold Exec.await
  dsimp only
  rw [hsame]
  cases (s.store.scheduler.start key).1 with
  | some result => exact .done result _ log
  | none =>
    -- the wait is released in the store that it ends with
    exact .waiting key _ log _ _ fun answer store log => .done answer
      { s with store := { store with scheduler := store.scheduler.release key } } log

/-- A sub-execution, behind which a part of the state is put back. -/
theorem enclosed {x : Exec α} (hx : LogFree x) (part : DispatchState → β)
    (restore : β → DispatchState → DispatchState) (hpart : ∀ s log, part (s.withLog log) = part s)
    (hrestore : ∀ b s log, restore b (s.withLog log) = (restore b s).withLog log) :
    LogFree (Site.enclosed part restore x) := by
  refine (LogFree.read part hpart).bind fun kept => ?_
  refine hx.attempt.bind fun result => ?_
  exact (LogFree.modify _ (hrestore kept)).bind fun _ => .ofResult result

end Exec.LogFree

/-! ## Section 3: Single steps of a node -/

/-- Chains that do not read the log. -/
def Chain.LogFree (chain : Chain) : Prop := ∀ frame h, (chain frame h).LogFree

namespace Site

open Exec (LogFree)

variable (site : Site)

theorem output_withLog (name : String) (index : Nat) (v : Value) (s : Store) (log : Log) :
    site.output name index v (s.withLog log) = (site.output name index v s).withLog log := by
  unfold output
  split
  · unfold Network.writePort
    split
    · rfl
    · rfl
  · rfl

/-- Writing what is computed from the store. -/
theorem logFree_output (name : String) (index : Nat) (v : Store → Value)
    (hv : ∀ s log, v (s.withLog log) = v s) :
    LogFree (Exec.update fun s => site.output name index (v s) s) := by
  refine .update _ fun s log => ?_
  rw [hv]
  exact site.output_withLog name index (v s) s log

theorem logFree_write (name : String) (v : Value) : LogFree (site.write name v) :=
  site.logFree_output name 0 (fun _ => v) fun _ _ => rfl

theorem logFree_read (name : String) : LogFree (site.read name) := .view _ fun _ _ => rfl

theorem logFree_select (next : Option NodeHandle) : LogFree (site.select next) :=
  .modify _ fun _ _ => rfl

theorem logFree_continueWith (name : String) : LogFree (site.continueWith name) :=
  site.logFree_select _

theorem logFree_answer (v : Value) : LogFree (site.answer v) := .modify _ fun _ _ => rfl

theorem logFree_message (text : String) : LogFree (site.message text) := .update _ fun _ _ => rfl

theorem logFree_tell (text : Store → String) (htext : ∀ s log, text (s.withLog log) = text s) :
    LogFree (site.tell text) :=
  (LogFree.view text htext).bind fun text => site.logFree_message text

theorem logFree_assign (v : VarId) (value : Value) : LogFree (site.assign v value) :=
  .update _ fun _ _ => rfl

theorem logFree_publish : LogFree site.publish := by
  refine .update _ fun s log => ?_
  -- slot by slot, with the same log throughout
  have hslots : ∀ (indices : List Nat) (t : Store),
      indices.foldl (fun s index => site.output "args" index (site.frame.call.argument index) s)
        (t.withLog log)
      = (indices.foldl (fun s index =>
          site.output "args" index (site.frame.call.argument index) s) t).withLog log := by
    intro indices
    induction indices with
    | nil => exact fun _ => rfl
    | cons index rest ih =>
      intro t
      rw [List.foldl_cons, List.foldl_cons, output_withLog, ih]
  exact hslots _ s

/-! ## Section 4: Sub-executions and calls -/

variable {chain : Chain} (hchain : chain.LogFree)

include hchain

theorem logFree_forward (start : NodeHandle) : LogFree (site.forward chain start) := by
  unfold forward
  split
  · exact .fail _
  · exact (hchain _ start).enclosed _ _ (fun _ _ => rfl) fun _ _ _ => rfl

theorem logFree_forwardPort (name : String) (index : Nat) :
    LogFree (site.forwardPort chain name index) := by
  unfold forwardPort
  split
  · exact site.logFree_forward hchain _
  · exact .pure ()

theorem logFree_loop (count : Nat) (index : Int) : LogFree (site.loop chain count index) := by
  induction count generalizing index with
  | zero => exact .pure ()
  | succ count ih =>
    refine (site.logFree_write "index" _).bind fun _ => ?_
    exact (site.logFree_forwardPort hchain "body" 0).bind fun _ => ih (index + 1)

theorem logFree_call (name : String) (arguments : List Value) :
    LogFree (site.call chain name arguments) := by
  refine (LogFree.view _ fun _ _ => rfl).bind fun found => ?_
  refine (LogFree.ofResult found).bind fun (g, entry) => ?_
  -- what is put back behind the call is no part of the log
  refine LogFree.enclosed ?_ _ _ (fun _ _ => rfl) fun _ _ _ => rfl
  refine (LogFree.modify _ fun _ _ => rfl).bind fun _ => ?_
  exact (hchain _ entry).bind fun _ => .read _ fun _ _ => rfl

/-! ## Section 5: Behaviors -/

omit hchain in
theorem logFree_binary (f : Float → Float → Value) : LogFree (site.binary f) :=
  site.logFree_output "result" 0 (fun s => f (site.number "a" s) (site.number "b" s)) fun _ _ => rfl

omit hchain in
theorem logFree_delay : LogFree site.delay := by
  refine (site.logFree_read "seconds").bind fun v => ?_
  dsimp only
  split
  · exact .fail _
  · refine (LogFree.view _ fun _ _ => rfl).bind fun scheduled => ?_
    refine (LogFree.update _ fun _ _ => rfl).bind fun _ => ?_
    refine (site.logFree_write "handle" _).bind fun _ => ?_
    exact (LogFree.await _).bind fun _ => site.logFree_continueWith "next"

omit hchain in
theorem logFree_pause (milliseconds : Nat) : LogFree (site.pause milliseconds) := by
  unfold pause
  split
  · exact .fail _
  · refine (LogFree.view _ fun _ _ => rfl).bind fun scheduled => ?_
    exact (LogFree.update _ fun _ _ => rfl).bind fun _ => .await _

omit hchain in
theorem logFree_logMessage (level : LogLevel) : LogFree (site.logMessage level) := by
  refine (site.logFree_read "message").bind fun v => ?_
  have hrest : LogFree (do site.message v.toText; site.continueWith "next") :=
    (site.logFree_message _).bind fun _ => site.logFree_continueWith "next"
  dsimp only
  split
  · exact (LogFree.report level _).bind fun _ => hrest
  · exact hrest

omit hchain in
theorem logFree_setVariable : LogFree site.setVariable := by
  refine (site.logFree_read "value").bind fun v => ?_
  dsimp only
  split
  · exact (site.logFree_assign _ v).bind fun _ => site.logFree_continueWith "next"
  · exact (LogFree.report .warn _).bind fun _ => site.logFree_continueWith "next"

omit hchain in
theorem logFree_describeTarget : LogFree site.describeTarget := by
  refine (LogFree.view _ fun _ _ => rfl).bind fun target => ?_
  cases target with
  | some ref =>
    refine (site.logFree_write "kind" _).bind fun _ => ?_
    exact (site.logFree_write "valid" _).bind fun _ => site.logFree_write "object" _
  | none =>
    refine (site.logFree_write "kind" _).bind fun _ => ?_
    exact (site.logFree_write "valid" _).bind fun _ => site.logFree_write "object" _

theorem logFree_perform (instruction : Instruction) : LogFree (site.perform chain instruction) := by
  cases instruction with
  | write port index value =>
    exact site.logFree_output port index (fun s => Value.ofTagged s.objects value) fun _ _ => rfl
  | copy source i target k =>
    exact site.logFree_output target k (site.input source i) fun _ _ => rfl
  | next port => exact site.logFree_continueWith port
  | stop => exact site.logFree_select none
  | goto guid => exact site.logFree_select _
  | forward port index => exact site.logFree_forwardPort hchain port index
  | run guid =>
    unfold perform
    dsimp only
    split
    · exact site.logFree_forward hchain _
    · exact .pure ()
  | fail reason => exact .fail _
  | cancel => exact .fail _
  | message text => exact site.logFree_message text
  | read port index => exact site.logFree_tell _ fun _ _ => rfl
  | typed port type => exact site.logFree_tell _ fun _ _ => rfl
  | note port => exact (LogFree.read _ fun _ _ => rfl).bind fun next => site.logFree_message _
  | answer value => exact (LogFree.view _ fun _ _ => rfl).bind fun v => site.logFree_answer v
  | answerInput port index =>
    exact (LogFree.view _ fun _ _ => rfl).bind fun v => site.logFree_answer v
  | answerArgument index => exact site.logFree_answer _
  | answered =>
    exact (LogFree.read _ fun _ _ => rfl).bind fun returned => site.logFree_tell _ fun _ _ => rfl
  | invoke name arguments output =>
    refine (LogFree.view _ fun _ _ => rfl).bind fun values => ?_
    exact (site.logFree_call hchain name values).bind fun v => site.logFree_write output v
  | attempt name =>
    refine (site.logFree_call hchain name []).attempt.bind fun result => ?_
    refine site.logFree_tell _ fun _ _ => ?_
    cases result with
    | ok v => rfl
    | error e => rfl
  | attemptForward port index =>
    refine (site.logFree_forwardPort hchain port index).attempt.bind fun result => ?_
    cases result with
    | ok _ => exact .pure ()
    | error e => exact site.logFree_message _
  | target port => exact site.logFree_tell _ fun _ _ => rfl
  | readVariable field output =>
    exact site.logFree_output output 0 (site.variableValue field) fun _ _ => rfl
  | writeVariable field value =>
    unfold perform
    dsimp only
    split
    · exact (LogFree.view _ fun _ _ => rfl).bind fun a => site.logFree_assign _ a
    · exact .pure ()
  | readBoard name output =>
    exact site.logFree_output output 0 (fun s =>
      ((site.frame.graph.blackboard.find? s.vars name).map s.vars.get).getD .null) fun _ _ => rfl
  | delay milliseconds => exact site.logFree_pause milliseconds
  | skip => exact .pure ()

/-- No node reads the log. -/
theorem logFree_execute (b : Behavior) : LogFree (site.execute chain b) := by
  cases b with
  | executionEvent name => exact site.logFree_publish.bind fun _ => site.logFree_continueWith "next"
  | functionInput name => exact site.logFree_publish.bind fun _ => site.logFree_continueWith "next"
  | branch => exact (site.logFree_read "condition").bind fun _ => site.logFree_continueWith _
  | sequence => exact .forEach _ _ fun index => site.logFree_forwardPort hchain "then" index
  | forLoop =>
    refine (site.logFree_read "first").bind fun first => ?_
    refine (site.logFree_read "last").bind fun last => ?_
    exact (site.logFree_loop hchain _ _).bind fun _ => site.logFree_continueWith "completed"
  | delay => exact site.logFree_delay
  | log level => exact site.logFree_logMessage level
  | literal type raw => exact site.logFree_write "value" _
  | add => exact site.logFree_binary fun a b => .float (a + b)
  | multiply => exact site.logFree_binary fun a b => .float (a * b)
  | compare op => exact site.logFree_binary fun a b => .bool (op.apply a b)
  | getVariable =>
    exact site.logFree_output "value" 0 (site.variableValue "variable") fun _ _ => rfl
  | setVariable => exact site.logFree_setVariable
  | functionOutput =>
    refine (site.logFree_read "value").bind fun v => ?_
    exact (site.logFree_answer v).bind fun _ => site.logFree_select none
  | invokeFunction name =>
    refine (LogFree.view _ fun _ _ => rfl).bind fun arguments => ?_
    refine (site.logFree_call hchain name arguments).bind fun result => ?_
    exact (site.logFree_write "result" result).bind fun _ => site.logFree_continueWith "next"
  | describeTarget => exact site.logFree_describeTarget
  | placeholder node => exact .pure ()
  | script script => exact .forEach _ _ fun instruction => site.logFree_perform hchain instruction

end Site

/-! ## Section 6: Chains -/

namespace Frame

open Exec (LogFree)

variable (frame : Frame)

theorem logFree_announce (event : GraphEvent) : LogFree (frame.announce event) := by
  unfold announce
  split
  · exact .update _ fun _ _ => rfl
  · exact .pure ()

theorem logFree_count : LogFree frame.count := by
  unfold count
  refine (LogFree.modify _ fun _ _ => rfl).bind fun _ => ?_
  split
  · exact .pure ()
  · refine (LogFree.read _ fun _ _ => rfl).bind fun steps => ?_
    split
    · exact .fail _
    · exact .pure ()

theorem logFree_conclude (guid : String) (result : Except GraphError Unit) :
    LogFree (frame.conclude guid result) := by
  cases result with
  | ok _ => exact frame.logFree_announce _
  | error e =>
    refine (LogFree.report .error _).bind fun _ => ?_
    exact (LogFree.update _ fun _ _ => rfl).bind fun _ => .fail e

theorem logFree_invoke {chain : Chain} (hchain : chain.LogFree) (h : NodeHandle) :
    LogFree (frame.invoke chain h) := by
  unfold invoke
  split
  · exact .fail _
  · rename_i x _
    refine frame.logFree_count.bind fun _ => ?_
    refine (LogFree.modify _ fun _ _ => rfl).bind fun _ => ?_
    refine (frame.logFree_announce _).bind fun _ => ?_
    refine ((Site.mk frame h).logFree_execute hchain x.behavior).attempt.bind fun result => ?_
    exact frame.logFree_conclude x.guid result

theorem logFree_runNode {chain : Chain} (hchain : chain.LogFree) (h : NodeHandle) :
    LogFree (frame.runNode chain h) := by
  have hclear : LogFree clearNext := .modify _ fun _ _ => rfl
  refine hclear.bind fun _ => ?_
  refine (LogFree.ofResult _).bind fun path => ?_
  refine (LogFree.forEach path _ fun m => frame.logFree_invoke hchain m).bind fun _ => ?_
  refine hclear.bind fun _ => ?_
  refine (frame.logFree_invoke hchain h).bind fun _ => ?_
  refine (LogFree.read _ fun _ _ => rfl).bind fun next => ?_
  exact hclear.bind fun _ => .pure next

/-- No chain reads the log. -/
theorem logFree_runChain (fuel : Nat) : Chain.LogFree (runChain fuel) := by
  -- the chains that nodes run have less fuel
  induction fuel with
  | zero => exact fun _ _ s log => .exhausted s log
  | succ fuel ih =>
    intro frame h
    refine (frame.logFree_runNode ih h).bind fun next => ?_
    cases next with
    | some k => exact ih frame k
    | none => exact .pure ()

end Frame

namespace Dispatch

open Exec (LogFree)

theorem logFree_conclude (graph dispatchId entry : String) (result : Except GraphError Unit) :
    LogFree (conclude graph dispatchId entry result) := by
  cases result with
  | ok _ =>
    refine (LogFree.read _ fun _ _ => rfl).bind fun steps => ?_
    exact (LogFree.update _ fun _ _ => rfl).bind fun _ => .read _ fun _ _ => rfl
  | error e =>
    refine (LogFree.report .warn _).bind fun _ => ?_
    exact (LogFree.update _ fun _ _ => rfl).bind fun _ => .fail e

theorem logFree_run (fuel : Nat) (frame : Frame) (entry : NodeHandle) :
    LogFree (run fuel frame entry) := by
  refine (LogFree.update _ fun _ _ => rfl).bind fun _ => ?_
  refine (Frame.logFree_runChain fuel frame entry).attempt.bind fun result => ?_
  exact logFree_conclude _ _ _ result

/-- A dispatch does the same whatever is in the log. -/
theorem start_sameButLog (fuel : Nat) (engine : Engine) (g : Graph) (r : DispatchRequest)
    (s : Store) (log : Log) :
    (start fuel engine g r s).SameButLog (start fuel engine g r (s.withLog log)) := by
  have hrunnable : g.isRunnable (s.withLog log) = g.isRunnable s := rfl
  unfold start
  rw [hrunnable]
  split
  · exact .done _ { store := s } log
  · split
    · exact .done _ { store := s } log
    · exact logFree_run fuel _ _ { store := s.freshDispatch.2, returned := _ } log

end Dispatch
end FlowGraph
