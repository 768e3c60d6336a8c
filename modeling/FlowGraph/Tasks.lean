import FlowGraph.Dispatch.Process

/-! # Tasks

    Computations that run side by side on one store, one at a time.  A task runs until
    it ends or waits; when its wait ends it goes on.

    * **Time** is virtual.  It passes when the host lets it pass, or, while the host
      itself waits, by jumps to the next moment at which the alarms expire.
    * **Order**: tasks go on in the order in which their waits ended.
    * **The host comes first**: when its own wait ends it goes on before the tasks do.
      A host whose computation ends leaves the tasks where they are, and those whose waits
      ended too go on when it next lets them. -/

namespace FlowGraph

namespace Process

variable {α : Type}

/-- Whether the computation waits for a wait. -/
def awaits (p : Process α) (key : WaitKey) : Bool :=
  match p with
  | .waiting k _ _ => k = key
  | _ => false

/-- The computation after its wait, if that is over. -/
def wake? (s : Store) : Process α → Option (Process α)
  | .waiting key _ resume => (s.scheduler.poll key).map fun result => resume result s
  | _ => none

/-- Give up the computation's wait. -/
def abandon (s : Store) : Process α → Store
  | .waiting key _ _ => { s with scheduler := s.scheduler.release key }
  | _ => s

end Process

/-- A running task. -/
structure Task (α : Type) where
  /-- A task whose name was given to another one has none. -/
  name : Option String
  /-- The graph that it runs. -/
  graph : GraphId
  process : Process α

/-- How a task ended. -/
inductive TaskEnd (α : Type) where
  | finished (result : Except GraphError α)
  | aborted

/-- The tasks on a store. -/
structure TaskPool (α : Type) where
  store : Store := {}
  running : List (Task α) := []
  /-- The named tasks that ended and were not asked for yet. -/
  ended : List (String × TaskEnd α) := []

namespace TaskPool

variable {α : Type}

instance : Inhabited (TaskPool α) := ⟨{}⟩

/-! ## Running -/

/-- Change the scheduler. -/
def modifyScheduler (pool : TaskPool α) (f : Scheduler → Scheduler) : TaskPool α :=
  { pool with store := { pool.store with scheduler := f pool.store.scheduler } }

/-- Let a task go on whose wait is over, until it ends or waits again. -/
def resumeTask (pool : TaskPool α) (t : Task α) (i : Nat) : TaskPool α :=
  match t.process.wake? pool.store with
  | none => pool
  | some process =>
    { pool with store := process.state.store, running := pool.running.set i { t with process } }

/-- Let the task go on that waits for a wait, if there is one. -/
def resume (pool : TaskPool α) (key : WaitKey) : TaskPool α :=
  match pool.running.zipIdx.find? fun (t, _) => t.process.awaits key with
  | some (t, i) => pool.resumeTask t i
  | none => pool

/-- Whether a task is still running. -/
def isRunning (t : Task α) : Bool := t.process.result?.isNone

/-- Under its name, how a task ended. -/
def endOf (t : Task α) : Option (String × TaskEnd α) :=
  match t.name, t.process.result? with
  | some name, some result => some (name, .finished result)
  | _, _ => none

/-- Put the tasks that ended among the ended ones. -/
def reap (pool : TaskPool α) : TaskPool α :=
  { pool with
    running := pool.running.filter isRunning
    ended := pool.ended ++ pool.running.filterMap endOf }

/-- Let the tasks go on whose waits ended. -/
def resumeWoken (pool : TaskPool α) : TaskPool α :=
  (pool.store.scheduler.woken.foldl resume (pool.modifyScheduler (·.settled))).reap

/-- Let every task go on that can, also those whose time has come by the clock. -/
def settle (pool : TaskPool α) : TaskPool α :=
  (pool.resumeWoken.modifyScheduler (·.ring)).resumeWoken

/-- Change the store, then let the tasks go on. -/
def update (pool : TaskPool α) (f : Store → Store) : TaskPool α :=
  { pool with store := f pool.store }.settle

/-- Let time pass in one jump. -/
def advance (pool : TaskPool α) (milliseconds : Nat) : TaskPool α :=
  (pool.modifyScheduler (·.advance milliseconds)).settle

/-- Cancel a wait by its id. -/
def cancel (pool : TaskPool α) (id : Nat) : Bool × TaskPool α :=
  let (found, scheduler) := pool.store.scheduler.cancel id
  (found, pool.update fun s => { s with scheduler })

/-- Cancel all pending waits. -/
def cancelAll (pool : TaskPool α) : Nat × TaskPool α :=
  let (n, scheduler) := pool.store.scheduler.cancelAll
  (n, pool.update fun s => { s with scheduler })

/-! ## Starting and ending tasks -/

/-- Take a name away from the task that has it. -/
def release (pool : TaskPool α) (name : String) : TaskPool α :=
  { pool with
    running := pool.running.map fun t => if t.name = some name then { t with name := none } else t
    ended := pool.ended.filter (·.1 ≠ name) }

/-- Start a task, which runs until it waits, after the tasks that can go on. -/
def spawn (pool : TaskPool α) (name : String) (graph : GraphId) (start : Store → Process α) :
    TaskPool α :=
  let pool := (pool.release name).settle
  let process := start pool.store
  { pool with
    store := process.state.store
    running := pool.running ++ [Task.mk (some name) graph process] : TaskPool α }.settle

/-- End a running task at once, even if it can go on. -/
def abort (pool : TaskPool α) (name : String) : TaskPool α :=
  match pool.running.find? (·.name = some name) with
  | none => pool.settle
  | some t =>
    { store := t.process.abandon pool.store
      running := pool.running.filter (·.name ≠ some name)
      ended := pool.ended ++ [(name, .aborted)] : TaskPool α }.settle

/-- Whether a running task uses a graph. -/
def isBusy (pool : TaskPool α) (graph : GraphId) : Bool := pool.running.any (·.graph = graph)

/-- The names of the ended tasks, in ascending order. -/
def endedNames (pool : TaskPool α) : List String :=
  (pool.ended.map Prod.fst).mergeSort fun a b => a ≤ b

/-! ## Waiting -/

/-- Let the clock jump to the next expiry of the alarms, if there are any. -/
def jump? (pool : TaskPool α) : Option (TaskPool α) :=
  pool.store.scheduler.jump?.map fun scheduler => pool.modifyScheduler fun _ => scheduler

/-- Wait for the end of a computation of the host's own, for `fuel` jumps of time at
    most.  There is no result if it never ends. -/
def finish : (fuel : Nat) → TaskPool α → Process α → Option (Except GraphError α) × TaskPool α
  | 0, pool, _ => (none, pool)
  | fuel + 1, pool, process =>
    match process.result? with
    | some result => (some result, pool)
    | none =>
      let pool := pool.resumeWoken
      match pool.jump? with
      | none => (none, pool)
      | some pool =>
        -- tasks that were woken by the same jump go on when the host waits again
        match process.wake? pool.store with
        | none => finish fuel pool process
        | some process => finish fuel { pool with store := process.state.store } process

/-- Run a computation of the host's own to its end. -/
def run (fuel : Nat) (pool : TaskPool α) (start : Store → Process α) :
    Option (Except GraphError α) × TaskPool α :=
  let process := start pool.store
  finish fuel { pool with store := process.state.store } process

/-- Let time pass until a task has ended, for `fuel` jumps at most. -/
def runUntilEnd : (fuel : Nat) → TaskPool α → String → TaskPool α
  | 0, pool, _ => pool
  | fuel + 1, pool, name =>
    if pool.running.any (·.name = some name) then
      match pool.jump? with
      | none => pool
      | some pool => runUntilEnd fuel pool.resumeWoken name
    else pool

/-- Wait for the end of a task and take it, for `fuel` jumps of time at most; nothing
    if there is no such task or if it never ends. -/
def join (fuel : Nat) (pool : TaskPool α) (name : String) : Option (TaskEnd α) × TaskPool α :=
  let pool := pool.settle.runUntilEnd fuel name
  ((pool.ended.find? (·.1 = name)).map Prod.snd,
    { pool with ended := pool.ended.filter (·.1 ≠ name) })

end TaskPool
end FlowGraph
