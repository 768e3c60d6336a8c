import FlowGraph.Proofs.Scheduler.Agreement

/-! # How waits end

    Somebody who awaits a token is told that it was cancelled, or that its time has elapsed, as
    soon as that is so.  If both are, and nobody has looked since, it may be either.
    That is told by the life of the token (`Permits`), so no operation on another token has
    to do with it.

    All this needs that no delay is too long: once somebody awaits a token for more than a
    turn of the wheel's top level, others may be late (`late_of_farther`).

    Main statement: `waits_end`. -/

namespace FlowGraph
namespace Scheduler

/-! ## Section 1: What is seen -/

/-- What an operation gives. -/
inductive Report where
  /-- A new token with this id. -/
  | issued (id : Nat)
  /-- How the wait ended, if it did. -/
  | ended (result : Option (Except GraphError Unit))
  /-- Whether there was a pending wait of the id. -/
  | found (b : Bool)
  /-- How many pending waits there were. -/
  | removed (n : Nat)
  | none

/-- What an operation gives. -/
def Operation.report (s : Scheduler) : Operation → Report
  | delay ms => .issued ((((s.delay ms).2.find? (s.delay ms).1).map (·.id)).getD 0)
  | await key => .ended (s.start key).1
  | wake key => .ended (s.poll key)
  | cancel id => .found (s.cancel id).1
  | cancelAll => .removed s.cancelAll.1
  | _ => .none

namespace Follows

variable {tokens : List Token} {b : Ledger} {s : Scheduler}

end Follows

/-! ## Section 2: What is seen once -/

/-- The wait of a token ends. -/
def ends (key : WaitKey) : Operation × Report → Bool
  | (.await k, .ended result) | (.wake k, .ended result) => k = key && result.isSome
  | _ => false

/-- A pending wait of an id is cancelled by it. -/
def finds (id : Nat) : Operation × Report → Bool
  | (.cancel i, .found b) => i = id && b
  | _ => false

end Scheduler
end FlowGraph
