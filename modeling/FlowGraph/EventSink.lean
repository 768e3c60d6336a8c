import FlowGraph.Event

/-! # Event sinks

    Where the events of a dispatch go: a collector keeps them all, a channel hands them
    to a receiver, one at a time.  Only a channel whose receiver is gone refuses
    events. -/

namespace FlowGraph

/-- Why an event was refused. -/
inductive EventError where
  | channelClosed
  deriving DecidableEq, Inhabited, Repr

namespace EventError

/-- What happened. -/
def reason : EventError → String
  | .channelClosed => "Channel closed"

/-- The wording of the error. -/
def message (e : EventError) : String := "Event error: " ++ e.reason

end EventError

/-- A sink that keeps all events, oldest first. -/
structure EventCollector where
  events : List GraphEvent := []
  deriving DecidableEq, Inhabited

namespace EventCollector

/-- Keep an event. -/
def send (c : EventCollector) (e : GraphEvent) : EventCollector := ⟨c.events ++ [e]⟩

/-- The guids of the nodes that started. -/
def startedNodes (c : EventCollector) : List String := c.events.filterMap GraphEvent.startedNode?

end EventCollector

/-- A sink with a receiver at the other end. -/
structure EventChannel where
  /-- The events that were not received yet. -/
  queue : List GraphEvent := []
  /-- Whether the receiver is there. -/
  isOpen : Bool := true
  deriving DecidableEq, Inhabited

namespace EventChannel

/-- Hand an event to the receiver. -/
def send (c : EventChannel) (e : GraphEvent) : Except EventError EventChannel :=
  if c.isOpen then .ok { c with queue := c.queue ++ [e] } else .error .channelClosed

/-- Receive the next event. -/
def receive (c : EventChannel) : Option GraphEvent × EventChannel :=
  (c.queue.head?, { c with queue := c.queue.tail })

/-- Drop the receiver and what it did not receive; whether it was there. -/
def close (c : EventChannel) : Bool × EventChannel := (c.isOpen, ⟨[], false⟩)

end EventChannel
end FlowGraph
