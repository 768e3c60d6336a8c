import FlowGraph.GraphError
import FlowGraph.TimerWheel

/-! # The scheduler

    Waits on a virtual clock.  A wait ends when its time has come or when it is
    cancelled, whichever is first; a wait that was cancelled before anyone awaits it
    ends as cancelled.

    * **Pending**: from the moment a wait is scheduled until it is cancelled by id, or
      ends, or is given up.  Cancelling through a handle leaves the entry in place until
      the wait itself notices.
    * **Woken**: the waits that ended and of which nobody took notice yet, in the order
      in which they ended.  The alarm of a timer is set when somebody starts to await it,
      for the time that was fixed when it was scheduled. -/

namespace FlowGraph

/-- When a wait ends by itself. -/
inductive WaitKind where
  /-- At a time, in milliseconds. -/
  | timer (deadline : Nat)
  | ready
  | never
  deriving DecidableEq, Inhabited, Repr

/-- A wait. -/
structure Wait where
  id : Nat
  kind : WaitKind
  cancelled : Bool := false
  /-- Whether its alarm rang. -/
  rung : Bool := false
  /-- Whether its end takes its id off the pending waits. -/
  scheduled : Bool := false
  /-- Whether it has ended or was given up. -/
  released : Bool := false
  deriving DecidableEq, Inhabited, Repr

/-- The wait as diagnostics show it. -/
def Wait.summary (w : Wait) : String :=
  "WaitToken \x7b id: " ++ GraphError.number w.id ++ ", cancelled: "
    ++ (if w.cancelled then "true" else "false") ++ " \x7d"

/-- Names a wait of the scheduler. -/
abbrev WaitKey := Nat

/-- Clock and waits; a key is a position. -/
structure Scheduler where
  /-- The time, in milliseconds. -/
  now : Nat := 0
  /-- A counter of 64 bits. -/
  nextId : Nat := 1
  waits : Array Wait := #[]
  /-- The pending waits by id. -/
  pending : List (Nat × WaitKey) := []
  /-- The alarms of the timers that are awaited. -/
  wheel : TimerWheel := {}
  /-- The waits that ended since somebody looked, oldest first. -/
  woken : List WaitKey := []
  deriving DecidableEq, Inhabited, Repr

namespace Scheduler

/-- The wait of a key. -/
def find? (s : Scheduler) (key : WaitKey) : Option Wait := s.waits[key]?

/-- Take an id off the pending waits. -/
def unlist (s : Scheduler) (id : Nat) : Scheduler :=
  { s with pending := s.pending.filter (·.1 ≠ id) }

/-- The last moment that an alarm can be set for. -/
def lastMoment : Nat := twoTo 64 - 3

/-- Schedule a wait. -/
def delay (s : Scheduler) (milliseconds : Nat) : WaitKey × Scheduler :=
  let id := max s.nextId 1
  let key := s.waits.size
  (key,
    { s with
      nextId := (s.nextId + 1) % twoTo 64
      waits := s.waits.push
        { id, kind := .timer (min (s.now + milliseconds) lastMoment), scheduled := true }
      pending := s.pending.filter (·.1 ≠ id) ++ [(id, key)] })

/-- Add a wait that is not scheduled. -/
def add (s : Scheduler) (id : Nat) (kind : WaitKind) : WaitKey × Scheduler :=
  (s.waits.size, { s with waits := s.waits.push { id, kind } })

/-- Cancel a wait through its handle. -/
def cancelKey (s : Scheduler) (key : WaitKey) : Scheduler :=
  { s with
    waits := s.waits.modify key fun w => { w with cancelled := true }
    woken := s.woken ++ [key] }

/-- Cancel a pending wait; whether there was one of this id. -/
def cancel (s : Scheduler) (id : Nat) : Bool × Scheduler :=
  match s.pending.find? (·.1 = id) with
  | some (_, key) => (true, (s.unlist id).cancelKey key)
  | none => (false, s)

/-- Cancel all pending waits; how many there were. -/
def cancelAll (s : Scheduler) : Nat × Scheduler :=
  (s.pending.length,
    { s.pending.foldl (fun s e => s.cancelKey e.2) s with pending := [] })

/-- How a wait ended that somebody awaits, if it did. -/
def poll (s : Scheduler) (key : WaitKey) : Option (Except GraphError Unit) :=
  match s.find? key with
  | none => none
  | some w =>
    if w.cancelled then some (.error .cancelled) else if w.rung then some (.ok ()) else none

/-- Start to await a wait: how it ended, if it did.  Else a timer sets its alarm. -/
def start (s : Scheduler) (key : WaitKey) : Option (Except GraphError Unit) × Scheduler :=
  match s.find? key with
  | none => (none, s)
  | some w =>
    if w.cancelled then (some (.error .cancelled), s)
    else
      match w.kind with
      | .timer deadline =>
        if deadline ≤ s.wheel.now then (some (.ok ()), s)
        else (none, { s with wheel := s.wheel.set key deadline })
      | .ready => (some (.ok ()), s)
      | .never => (none, s)

/-- A wait has ended or is given up. -/
def release (s : Scheduler) (key : WaitKey) : Scheduler :=
  match s.find? key with
  | none => s
  | some w =>
    if w.released then s
    else
      let s :=
        { s with
          waits := s.waits.modify key fun w => { w with released := true }
          wheel := s.wheel.cancel key }
      if w.scheduled then s.unlist w.id else s

/-! ## Time -/

/-- Let the clock go on. -/
def advance (s : Scheduler) (milliseconds : Nat) : Scheduler :=
  { s with now := s.now + milliseconds }

/-- The alarm of a wait rings. -/
def ringKey (s : Scheduler) (key : WaitKey) : Scheduler :=
  { s with
    waits := s.waits.modify key fun w => { w with rung := true }
    woken := s.woken ++ [key] }

/-- Ring the alarms up to the time of the clock. -/
def ring (s : Scheduler) : Scheduler :=
  let (keys, wheel) := s.wheel.turn (min s.now lastMoment)
  keys.foldl ringKey { s with wheel }

/-- The clock jumps to the next expiry of the alarms, if there are any. -/
def jump? (s : Scheduler) : Option Scheduler :=
  s.wheel.next?.map fun e => { s with now := max s.now e.time }.ring

/-- Forget which waits ended. -/
def settled (s : Scheduler) : Scheduler := { s with woken := [] }

/-- The number of pending waits. -/
def size (s : Scheduler) : Nat := s.pending.length

end Scheduler
end FlowGraph
