import FlowGraph.Store

/-! # Processes

    A dispatch runs until it ends, or until it waits for the scheduler; then it stands
    still, and others may change the store before it goes on.  So the meaning of a
    running dispatch is a tree: its leaves are results with the state reached, its
    inner nodes are waits, and a wait goes on with the way it ended and with the store
    at that time.

    `Exec` is the monad of the steps of a dispatch.  A failed step keeps the state that
    it reached. -/

namespace FlowGraph

/-- The state of a running dispatch. -/
structure DispatchState where
  store : Store
  /-- How many nodes were executed. -/
  steps : Nat := 0
  /-- The guids of the executed nodes, oldest first. -/
  trace : Array String := #[]
  /-- The node that the chain continues with. -/
  next : Option NodeHandle := none
  /-- The return box. -/
  returned : Option Value := none
  deriving Inhabited

/-- A running computation. -/
inductive Process (α : Type) where
  /-- It has ended. -/
  | done (result : Except GraphError α) (state : DispatchState)
  /-- It waits. -/
  | waiting (key : WaitKey) (state : DispatchState)
      (resume : Except GraphError Unit → Store → Process α)
  /-- It was cut off. -/
  | exhausted (state : DispatchState)

namespace Process

variable {α β : Type}

instance : Inhabited (Process α) := ⟨.exhausted default⟩

/-- Go on with what a computation returns. -/
def bind (p : Process α) (f : α → DispatchState → Process β) : Process β :=
  match p with
  | .done (.ok a) s => f a s
  | .done (.error e) s => .done (.error e) s
  | .waiting key s resume => .waiting key s fun result store => (resume result store).bind f
  | .exhausted s => .exhausted s

/-- The computation whose failure is its result. -/
def attempt : Process α → Process (Except GraphError α)
  | .done result s => .done (.ok result) s
  | .waiting key s resume => .waiting key s fun result store => (resume result store).attempt
  | .exhausted s => .exhausted s

/-- The state where the computation ended, waits or was cut off. -/
def state : Process α → DispatchState
  | .done _ s => s
  | .waiting _ s _ => s
  | .exhausted s => s

/-- How the computation ended, if it did. -/
def result? : Process α → Option (Except GraphError α)
  | .done result _ => some result
  | _ => none

theorem bind_assoc {γ : Type} (p : Process α) (f : α → DispatchState → Process β)
    (g : β → DispatchState → Process γ) :
    (p.bind f).bind g = p.bind fun a s => (f a s).bind g := by
  induction p with
  | done result s => cases result <;> rfl
  | waiting key s resume ih => simp [bind, ih]
  | exhausted s => rfl

theorem bind_done (p : Process α) : (p.bind fun a s => .done (.ok a) s) = p := by
  induction p with
  | done result s => cases result <;> rfl
  | waiting key s resume ih => simp [bind, ih]
  | exhausted s => rfl

end Process

/-- A step of a dispatch. -/
def Exec (α : Type) : Type := DispatchState → Process α

namespace Exec

variable {α β : Type}

instance : Monad Exec where
  pure a s := .done (.ok a) s
  bind x f s := (x s).bind f

instance : Inhabited (Exec α) := ⟨fun s => .exhausted s⟩

/-- Look at the state. -/
def read (f : DispatchState → α) : Exec α := fun s => .done (.ok (f s)) s

/-- Change the state. -/
def modify (f : DispatchState → DispatchState) : Exec Unit := fun s => .done (.ok ()) (f s)

/-- Look at the store. -/
def view (f : Store → α) : Exec α := read fun s => f s.store

/-- Change the store. -/
def update (f : Store → Store) : Exec Unit := modify fun s => { s with store := f s.store }

/-- Fail. -/
def fail (e : GraphError) : Exec α := fun s => .done (.error e) s

/-- Return a result or fail. -/
def ofResult : Except GraphError α → Exec α
  | .ok a => pure a
  | .error e => fail e

/-- Run a step and return how it ended. -/
def attempt (x : Exec α) : Exec (Except GraphError α) := fun s => (x s).attempt

/-- Run a step for each element of a list, in order. -/
def forEach (xs : List β) (f : β → Exec Unit) : Exec Unit :=
  match xs with
  | [] => pure ()
  | x :: rest => do
    f x
    forEach rest f

/-- Wait for the end of a scheduled wait, which is released then. -/
def await (key : WaitKey) : Exec Unit := fun s =>
  let release (store : Store) : Store := { store with scheduler := store.scheduler.release key }
  let (result, scheduler) := s.store.scheduler.start key
  let store := { s.store with scheduler }
  match result with
  | some result => .done result { s with store := release store }
  | none =>
    .waiting key { s with store } fun result store =>
      .done result { s with store := release store }

end Exec
end FlowGraph
