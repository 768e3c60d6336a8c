import FlowGraph.Tasks

/-! # Timers

    A host that waits itself, without graphs.  It keeps every wait that nobody awaits yet
    under a name, and a handle of the same name that outlives the wait.  A wait is awaited
    at most once, by the host or by a task; one that is dropped is given up. -/

namespace FlowGraph

/-- Waits by name, and the tasks that await some of them. -/
structure Timers where
  pool : TaskPool Unit := {}
  /-- The waits that nobody awaits yet. -/
  waits : List (String × WaitKey) := []
  /-- The latest wait of every name. -/
  handles : List (String × WaitKey) := []

namespace Timers

/-- The scheduler. -/
def scheduler (t : Timers) : Scheduler := t.pool.store.scheduler

/-- Change the scheduler, then let the tasks go on. -/
def update (t : Timers) (f : Scheduler → Scheduler) : Timers :=
  { t with pool := (t.pool.modifyScheduler f).settle }

/-! ## Waits -/

/-- The wait of a name that nobody awaits yet. -/
def find? (t : Timers) (name : String) : Option WaitKey :=
  (t.waits.find? (·.1 = name)).map Prod.snd

/-- The wait behind the handle of a name. -/
def handle? (t : Timers) (name : String) : Option Wait :=
  (t.handles.find? (·.1 = name)).bind fun h => t.scheduler.find? h.2

/-- Forget the name of a wait. -/
def forget (t : Timers) (name : String) : Timers :=
  { t with waits := t.waits.filter (·.1 ≠ name) }

/-- Drop the wait of a name. -/
def drop (t : Timers) (name : String) : Timers :=
  match t.find? name with
  | some key => (t.update (·.release key)).forget name
  | none => t

/-- Make a wait under a name, in place of another one; its id. -/
def add (t : Timers) (name : String) (make : Scheduler → WaitKey × Scheduler) : Nat × Timers :=
  let (key, scheduler) := make t.scheduler
  let t := (t.update fun _ => scheduler).drop name
  (((scheduler.find? key).map (·.id)).getD 0,
    { t with waits := t.waits ++ [(name, key)], handles := (name, key) :: t.handles })

/-- Cancel the wait behind a handle. -/
def cancelHandle (t : Timers) (name : String) : Timers :=
  match t.handles.find? (·.1 = name) with
  | some (_, key) => t.update (·.cancelKey key)
  | none => t

/-! ## Awaiting -/

/-- The computation that awaits a wait. -/
def awaiting (key : WaitKey) (s : Store) : Process Unit := Exec.await key { store := s }

/-- Await the wait of a name, for `fuel` jumps of time at most. -/
def await (fuel : Nat) (t : Timers) (name : String) : Option (Except GraphError Unit) × Timers :=
  match t.find? name with
  | none => (none, t)
  | some key =>
    let (r, pool) := t.pool.run fuel (awaiting key)
    (r, { t with pool := pool.settle }.forget name)

/-- Await the wait of a name in a task of that name; whether there is one. -/
def spawn (t : Timers) (name : String) : Bool × Timers :=
  match t.find? name with
  | none => (false, t)
  | some key => (true, { t with pool := t.pool.spawn name 0 (awaiting key) }.forget name)

end Timers
end FlowGraph
