import FlowGraph.Text.Quoted

/-! # Extensions

    Services of the host by name, each of one of a few types.  A look-up with the wrong
    type finds nothing.  Nodes that wait look for the scheduler here. -/

namespace FlowGraph

/-- A service of the host. -/
inductive Service where
  | natural (n : Nat)
  | text (s : String)
  | flag (b : Bool)
  /-- The scheduler of the session. -/
  | scheduler
  deriving DecidableEq, Inhabited, Repr

namespace Service

/-- The number, if it is one. -/
def asNatural? : Service → Option Nat
  | .natural n => some n
  | _ => none

/-- The text, if it is one. -/
def asText? : Service → Option String
  | .text s => some s
  | _ => none

/-- The truth value, if it is one. -/
def asFlag? : Service → Option Bool
  | .flag b => some b
  | _ => none

end Service

/-- The services of a host. -/
structure Extensions where
  services : List (String × Service) := []
  deriving DecidableEq, Inhabited, Repr

namespace Extensions

/-- The name under which nodes look for the scheduler. -/
def schedulerKey : String := "scheduler"

/-- The service of a name. -/
def get? (e : Extensions) (key : String) : Option Service :=
  (e.services.find? (·.1 = key)).map Prod.snd

/-- Whether there is a service of a name. -/
def has (e : Extensions) (key : String) : Bool := (e.get? key).isSome

/-- Put a service under a name, in place of an earlier one. -/
def set (e : Extensions) (key : String) (service : Service) : Extensions :=
  ⟨e.services.filter (·.1 ≠ key) ++ [(key, service)]⟩

/-- Drop the service of a name; whether there was one. -/
def remove (e : Extensions) (key : String) : Bool × Extensions :=
  (e.has key, ⟨e.services.filter (·.1 ≠ key)⟩)

/-- The names in ascending order. -/
def keys (e : Extensions) : List String :=
  (e.services.map Prod.fst).mergeSort fun a b => a ≤ b

/-- Whether nodes find a scheduler. -/
def hasScheduler (e : Extensions) : Bool := e.get? schedulerKey = some .scheduler

/-- Add the scheduler unless something has its name; whether it was added. -/
def setup (e : Extensions) : Bool × Extensions :=
  if e.has schedulerKey then (false, e) else (true, e.set schedulerKey .scheduler)

/-- The services that a host has by default. -/
def standard : Extensions := (setup {}).2

/-- The extensions as diagnostics show them. -/
def summary (e : Extensions) : String :=
  "ExecutorExtensions \x7b keys: [" ++ String.intercalate ", " (e.keys.map Text.quoted) ++ "] \x7d"

end Extensions
end FlowGraph
