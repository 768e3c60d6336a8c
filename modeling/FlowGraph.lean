import FlowGraph.Arena
import FlowGraph.CommandLine
import FlowGraph.Config
import FlowGraph.Conversion
import FlowGraph.Data.Builder
import FlowGraph.Data.Graph
import FlowGraph.Data.Node
import FlowGraph.Decimal.Reading
import FlowGraph.Decimal.Shortest
import FlowGraph.Dependency
import FlowGraph.Descriptor
import FlowGraph.Dispatch.Basic
import FlowGraph.Dispatch.Execution
import FlowGraph.Dispatch.Frame
import FlowGraph.Dispatch.Process
import FlowGraph.Duration
import FlowGraph.Event
import FlowGraph.EventSink
import FlowGraph.Extensions
import FlowGraph.Graph.Basic
import FlowGraph.Graph.Compile
import FlowGraph.Graph.Edit
import FlowGraph.Graph.Link
import FlowGraph.Graph.Network
import FlowGraph.Graph.Port
import FlowGraph.Graph.Save
import FlowGraph.GraphError
import FlowGraph.HostObject
import FlowGraph.Inspection
import FlowGraph.Json.Access
import FlowGraph.Json.Basic
import FlowGraph.Json.Decode
import FlowGraph.Json.Parser
import FlowGraph.Json.Printer
import FlowGraph.Json.Source
import FlowGraph.LogLine
import FlowGraph.Main
import FlowGraph.Node.Behavior
import FlowGraph.Node.Builtin
import FlowGraph.Node.Script
import FlowGraph.PortType
import FlowGraph.Powers
import FlowGraph.Proofs.Arena
import FlowGraph.Proofs.Arena.Handles
import FlowGraph.Proofs.Dependency.Cycle
import FlowGraph.Proofs.Dependency.Invariant
import FlowGraph.Proofs.Dependency.PostOrder
import FlowGraph.Proofs.Dependency.Search
import FlowGraph.Proofs.Dispatch.Answers
import FlowGraph.Proofs.Dispatch.Events
import FlowGraph.Proofs.Dispatch.Nesting
import FlowGraph.Proofs.Dispatch.OnDemand
import FlowGraph.Proofs.Dispatch.Pull
import FlowGraph.Proofs.Dispatch.Quiet
import FlowGraph.Proofs.Dispatch.Reach
import FlowGraph.Proofs.Dispatch.Reports
import FlowGraph.Proofs.Dispatch.Returning
import FlowGraph.Proofs.Dispatch.Routine
import FlowGraph.Proofs.Dispatch.Slots
import FlowGraph.Proofs.Dispatch.Trace
import FlowGraph.Proofs.Dispatch.Words
import FlowGraph.Proofs.Graph.Building
import FlowGraph.Proofs.Graph.Decoding
import FlowGraph.Proofs.Graph.Cache
import FlowGraph.Proofs.Graph.Editing
import FlowGraph.Proofs.Graph.Hosting
import FlowGraph.Proofs.Graph.Hydration
import FlowGraph.Proofs.Graph.Layout
import FlowGraph.Proofs.Graph.Linked
import FlowGraph.Proofs.Graph.Links
import FlowGraph.Proofs.Graph.Loading
import FlowGraph.Proofs.Graph.Placeholders
import FlowGraph.Proofs.Graph.Placement
import FlowGraph.Proofs.Graph.Wiring
import FlowGraph.Proofs.Node.Signature
import FlowGraph.Proofs.Scheduler
import FlowGraph.Proofs.Store
import FlowGraph.Proofs.TypeIdentity
import FlowGraph.Proofs.Validation.Agreement
import FlowGraph.Proofs.Validation.Clean
import FlowGraph.Proofs.Validation.Soundness
import FlowGraph.Redirects
import FlowGraph.Registry
import FlowGraph.Scheduler
import FlowGraph.Session
import FlowGraph.Session.Edit
import FlowGraph.Store
import FlowGraph.Tasks
import FlowGraph.Text.Blank
import FlowGraph.Text.Printable
import FlowGraph.Text.Quoted
import FlowGraph.TimerWheel
import FlowGraph.Timers
import FlowGraph.TypeIdentity
import FlowGraph.Validation
import FlowGraph.Value.Basic
import FlowGraph.Value.Codec
import FlowGraph.Value.Tagged
import FlowGraph.Variable.Blackboard
import FlowGraph.Variable.Data
import FlowGraph.Variable.Table
import FlowGraph.Proofs.Validation.Cycles
import FlowGraph.Proofs.Dispatch.Cutting
import FlowGraph.Proofs.Dispatch.Limits
import FlowGraph.Proofs.Json.Printing
import FlowGraph.Proofs.Json.Records
import FlowGraph.Proofs.Json.Sorted
import FlowGraph.Proofs.Json.Tokens
import FlowGraph.Proofs.Variable.Normal
import FlowGraph.Proofs.Node.Normal
import FlowGraph.Proofs.Graph.Saving
import FlowGraph.Proofs.Graph.Normal
import FlowGraph.Proofs.Graph.Matching
import FlowGraph.Proofs.Graph.Agreeing
import FlowGraph.Proofs.Graph.Records
import FlowGraph.Proofs.Graph.Edited
import FlowGraph.Proofs.Graph.Reloading
import FlowGraph.Proofs.Dispatch.Room
import FlowGraph.Proofs.Dispatch.Ending
import FlowGraph.Proofs.Dispatch.Depth
import FlowGraph.Proofs.Variable.Binding
import FlowGraph.Proofs.Variable.Cells
import FlowGraph.Proofs.Graph.Identity
import FlowGraph.Proofs.Dispatch.History
import FlowGraph.Proofs.Graph.Slotted
import FlowGraph.Proofs.Dispatch.Calls
import FlowGraph.Proofs.Dispatch.Reentry
import FlowGraph.Proofs.Reordering.Binding
import FlowGraph.Proofs.Reordering.Builds
import FlowGraph.Proofs.Reordering.Independence
import FlowGraph.Proofs.Dispatch.Failures
import FlowGraph.Proofs.Dispatch.Lookups
import FlowGraph.Proofs.Dispatch.Sharing
import FlowGraph.Proofs.Graph.Resolution
import FlowGraph.Proofs.Graph.Authoring
import FlowGraph.Proofs.Scheduler.Waits
import FlowGraph.Proofs.Dispatch.Locality
import FlowGraph.Proofs.Graph.Arrangement
import FlowGraph.Proofs.Graph.Constants
import FlowGraph.Proofs.Value.Doubles
import FlowGraph.Proofs.Value.Typed
import FlowGraph.Proofs.Graph.Reconnecting
import FlowGraph.Proofs.Graph.Refusing
import FlowGraph.Proofs.Graph.Removing
import FlowGraph.Proofs.Dispatch.Registers
import FlowGraph.Proofs.Graph.Outputs
import FlowGraph.Proofs.Dispatch.Continuing
import FlowGraph.Proofs.Dispatch.Framing
import FlowGraph.Proofs.Dispatch.Forwarding
import FlowGraph.Proofs.Dispatch.Turns
import FlowGraph.Proofs.Graph.Recompiling
import FlowGraph.Proofs.Variable.Settling
import FlowGraph.Proofs.Graph.Rosters
import FlowGraph.Proofs.Graph.Standing
import FlowGraph.Proofs.Graph.Restoring
import FlowGraph.Proofs.Registry.Lookup
import FlowGraph.Proofs.Registry.Precedence
import FlowGraph.Proofs.Registry.Redirecting
import FlowGraph.Proofs.Registry.Resolving
import FlowGraph.Proofs.Graph.Reviving
import FlowGraph.Proofs.Graph.Malformed
import FlowGraph.Proofs.Validation.Unknown
import FlowGraph.Proofs.Dependency.Bounds
import FlowGraph.Proofs.Variable.Blackboard
import FlowGraph.Proofs.Dispatch.Targets
