import FlowGraph.Proofs.Scheduler

/-! # The lives of tokens

    What becomes of a token is told by what is done with it.  An observer keeps a life for
    each token (`Ledger`).  A life is changed by time, by what is done with its own token or
    its id, and by cancelling all.  What concerns other tokens does not change it
    (`life_of_concerns`). -/

namespace FlowGraph
namespace Scheduler

/-! ## Section 1: Lives and ledgers -/

/-- A token as it is told by what is done with it. -/
structure Life where
  /-- When its time has elapsed. -/
  due : Nat
  /-- What time it is. -/
  now : Nat
  awaited : Bool := false
  /-- It was cancelled, by whichever means. -/
  cancelled : Bool := false
  /-- It was cancelled by its id or with all others. -/
  withdrawn : Bool := false
  /-- Its wait has ended, or it was dropped. -/
  gone : Bool := false
  deriving DecidableEq

namespace Life

/-- A token that is issued. -/
def issued (now milliseconds : Nat) : Life := { due := min (now + milliseconds) lastMoment, now }

def elapsed (l : Life) : Bool := l.due ≤ l.now

/-- Whether it is listed as pending. -/
def listed (l : Life) : Bool := !l.gone && !l.withdrawn

/-- What somebody may be told who looks at the wait. -/
def outcomes (l : Life) : List (Option (Except GraphError Unit)) :=
  if l.cancelled then
    if l.awaited && l.elapsed then [some (.error .cancelled), some (.ok ())]
    else [some (.error .cancelled)]
  else if l.elapsed then [some (.ok ())]
  else [none]

/-- Time goes on. -/
def later (milliseconds : Nat) (l : Life) : Life := { l with now := l.now + milliseconds }

/-- Somebody looks at the wait. -/
def looked (l : Life) : Life :=
  { l with awaited := true, gone := l.gone || l.cancelled || l.elapsed }

/-- It is cancelled by its id or with all others. -/
def withdraw (l : Life) : Life := { l with cancelled := true, withdrawn := true }

/-- The life of the token of a key after an operation.  Its id is the next number. -/
def step (key : WaitKey) (l : Life) : Operation → Life
  | .delay _ => l
  | .advance ms => l.later ms
  | .await k | .wake k => if key = k then l.looked else l
  | .cancel id => if id = key + 1 then l.withdraw else l
  | .cancelHandle k => if key = k then { l with cancelled := true } else l
  | .cancelAll => l.withdraw
  | .drop k => if key = k then { l with gone := true } else l

end Life

/-- The lives of all tokens, by their keys. -/
structure Ledger where
  now : Nat := 0
  lives : List Life := []
  deriving DecidableEq

/-- The ledger after an operation. -/
def Ledger.step (b : Ledger) : Operation → Ledger
  | .delay ms => { b with lives := b.lives ++ [.issued b.now ms] }
  | .advance ms => ⟨b.now + ms, b.lives.mapIdx fun k l => l.step k (.advance ms)⟩
  | op => { b with lives := b.lives.mapIdx fun k l => l.step k op }

/-- The ledger after some operations. -/
def ledger (ops : List Operation) : Ledger := ops.foldl Ledger.step {}

namespace Operation

/-- A token is awaited once, and then looked at until it is over. -/
def legal (b : Ledger) : Operation → Bool
  | await k => (b.lives[k]?).any fun l => !l.awaited && !l.gone
  | wake k => (b.lives[k]?).any fun l => l.awaited && !l.gone
  | _ => true

/-- The longest delay that is rung in time: all but one slot of the wheel's top level. -/
def farthest : Nat := (TimerWheel.slots - 1) * TimerWheel.span TimerWheel.topLevel

/-- No delay is longer than that. -/
def near : Operation → Bool
  | delay ms => ms ≤ farthest
  | _ => true

end Operation

/-- All operations are legal, one after the other. -/
def legalRun (b : Ledger) : List Operation → Bool
  | [] => true
  | op :: rest => op.legal b && legalRun (b.step op) rest

/-! ## Section 2: Lives are told apart -/

/-- Somebody looks at a wait that goes on. -/
theorem Life.looked_of_going (l : Life) (hgone : l.gone = false) (hcancelled : l.cancelled = false)
    (helapsed : l.elapsed = false) : l.looked = { l with awaited := true } := by
  simp only [looked, hgone, hcancelled, helapsed, Bool.or_self]

namespace Ledger

variable (b : Ledger)

theorem step_length (op : Operation) :
    (b.step op).lives.length = b.lives.length + if op.isDelay = true then 1 else 0 := by
  cases op with
  | delay ms => simp [step, Operation.isDelay]
  | _ => simp [step, Operation.isDelay]

theorem foldl_length (ops : List Operation) :
    (ops.foldl step b).lives.length = b.lives.length + ops.countP Operation.isDelay := by
  induction ops generalizing b with
  | nil => rfl
  | cons op rest ih =>
    rw [List.foldl_cons, ih, step_length, List.countP_cons]
    omega

end Ledger

end Scheduler
end FlowGraph
