import FlowGraph.Dispatch.Basic
import FlowGraph.Value.Tagged

/-! # Inspection

    Reports in JSON about live things, for debuggers and tools: errors, types, variables,
    ports, graphs with all their nodes, and what a dispatch did.  Values are written in
    their tagged form, and saved data as JSON texts.  What is gone is `null`. -/

namespace FlowGraph

namespace Json

/-- A natural number. -/
def ofNat (n : Nat) : Json := .int n

/-- What may be missing. -/
def ofOption (f : α → Json) : Option α → Json
  | some a => f a
  | none => .null

/-- A text that may be missing. -/
def ofText? : Option String → Json := ofOption .str

/-- A JSON text. -/
def quote (j : Json) : Json := .str j.compact

end Json

/-! ## Errors -/

/-- The report on malformed data. -/
def Fault.inspect (fault : Fault) : Json :=
  let category := match fault with
    | .truncated => "eof"
    | .malformed => "syntax"
    | .mismatched => "data"
  .obj [("error", .str "Serialization"), ("category", .str category)]

/-- The report on an error. -/
def GraphError.inspect (e : GraphError) : Json :=
  match e with
  | .serialization fault => fault.inspect
  | .fileNotFound => .obj [("error", .str e.name), ("kind", .str "NotFound")]
  | e =>
    .obj [("error", .str e.name), ("message", .str e.message), ("fatal", .bool e.isCompileFatal)]

/-! ## Values -/

namespace Value

/-- The object that a value refers to, by kind and name; one that is gone has no name. -/
def inspectObject (objects : HostObjects) (ref : ObjectRef) : Json :=
  .arr [.str ref.kind, .ofText? ((objects.find? ref).map (·.name)), .bool false]

/-- What a value can be read as. -/
def inspectReadings (v : Value) (objects : HostObjects) : Json :=
  let decimal (n : Int) : Json := .str (intText n)
  let float (x : Float) : Json := .str (floatBits x)
  .obj [("bool", .ofOption .bool v.asBool?), ("i64", .ofOption (decimal ·.toInt) v.asInt?),
    ("i32", .ofOption decimal v.asInt32?), ("usize", .ofOption (decimal ·) v.asNat?),
    ("f64", .ofOption float v.asFloat?), ("f32", .ofOption float v.asSingle?),
    ("string", .ofText? v.asString?), ("json", .ofOption Json.quote v.asJson?),
    ("object", .ofOption (inspectObject objects) v.asObject?), ("self", v.toTagged objects)]

/-- What a value reads as if it must. -/
def inspectDefaults (v : Value) : Json :=
  .obj [("i64", .str (intText v.toInt.toInt)), ("string", .str v.toText), ("bool", .bool v.toBool),
    ("f64", .str (floatBits v.toFloat))]

/-- The fields of the report on a value. -/
def inspect (v : Value) (objects : HostObjects) : List (String × Json) :=
  [("value", v.toTagged objects), ("json", v.toJson.quote), ("type", .str v.portType.text),
    ("unset", .bool (v.isUnset objects)), ("extract", v.inspectReadings objects)]

end Value

/-! ## Types and variables -/

/-- The report on an identity. -/
def TypeIdentity.inspect (id : TypeIdentity) : Json :=
  .obj [("namespace", .str id.space), ("class", .str id.className),
    ("assembly", .ofText? id.assembly), ("full", .str id.fullName), ("text", .str id.text)]

/-- The report on a resolved node. -/
def ResolvedNode.inspect (n : ResolvedNode) : Json :=
  .obj [("identity", n.identity.inspect), ("placeholder", .bool n.isPlaceholder),
    ("generics", .arr (n.genericArguments.map fun t => .str t.text)),
    ("descriptor", n.descriptor.toJson), ("from", .ofText? (n.redirectedFrom.map (·.text))),
    ("fields", n.behavior.fields.quote), ("entry", .ofText? n.behavior.entryName),
    ("invalid", .ofOption (fun i => i.toJson.quote) n.invalid)]

/-- The report on a variable with its value. -/
def Variables.inspect (vs : Variables) (objects : HostObjects) (v : VarId) : Json :=
  match vs.find? v with
  | none => .null
  | some x =>
    .obj [("name", .str x.name), ("type", .str x.type.text),
      ("value", (vs.get v).toTagged objects), ("bound", .ofText? ((vs.targetOf v).map vs.nameOf)),
      ("flags", .arr [.bool x.isShared, .bool x.isGlobal, .bool x.isExposed])]

/-! ## Graphs -/

/-- A row of the connection table. -/
def GraphData.Connection.inspect (c : GraphData.Connection) : Json :=
  .arr [.str c.source, .str c.sourcePort, .str (Value.intText c.sourceIndex),
    .str c.target, .str c.targetPort, .str (Value.intText c.targetIndex)]

/-- A handle. -/
def NodeHandle.inspect (h : NodeHandle) : Json := .arr [.ofNat h.index, .ofNat h.generation.toNat]

/-- The report on a port on its own, with the value in its slot. -/
def Port.inspect (p : Port) (objects : HostObjects) (v : Value) : Json :=
  .obj [("name", .str p.name), ("index", .ofNat p.index), ("label", .str p.label),
    ("type", .str p.type.text), ("direction", .str p.direction.name),
    ("capacity", .str p.capacity.name), ("kind", .str p.kind.name), ("control", .bool p.isControl),
    ("value", v.toTagged objects), ("linked", .bool p.link.isSome),
    ("target", .bool p.target.isSome)]

namespace Network

/-- The guid of a node. -/
def inspectHandle (n : Network) (h : NodeHandle) : Json := .ofText? ((n.node? h).map (·.guid))

/-- Where a linked input takes its value from, and how. -/
def inspectLink (n : Network) (link : PortLink) : Json :=
  .arr [n.inspectHandle link.source.node, .ofText? ((n.port? link.source).map (·.label)),
    .str link.compatibility.name]

/-- The report on a port in its graph. -/
def inspectPort (n : Network) (s : Store) (a : PortAddress) (p : Port) : Json :=
  .obj [("label", .str p.label), ("type", .str p.type.text),
    ("local", (s.cell n.id a).toTagged s.objects), ("value", (n.readPort s a).toTagged s.objects),
    ("link", .ofOption n.inspectLink p.link), ("target", .ofOption n.inspectHandle p.target)]

/-- The report on a node in its graph. -/
def inspectNode (n : Network) (s : Store) (h : NodeHandle) (x : GraphNode) : Json :=
  .obj [("guid", .str x.guid), ("handle", h.inspect), ("type", .str x.type),
    ("identity", .str x.identity.text), ("path", .str x.descriptor.path.name),
    ("generics", .arr (x.genericArguments.map fun t => .str t.text)),
    ("position", x.position.toJson.quote), ("placeholder", .bool x.isPlaceholder),
    ("invalid", .ofOption (fun i => i.toJson.quote) x.invalid),
    ("entry", .ofText? x.behavior.entryName),
    ("records", (Json.arr (x.records.map PortData.toJson)).quote),
    ("dependencies", .arr (x.dependencies.map n.inspectHandle)),
    ("variables", .arr (x.vars.map fun (field, v) =>
      .arr [.str field, s.vars.inspect s.objects v])),
    ("ports", .arr (x.ports.zipIdx.map fun (p, i) => n.inspectPort s ⟨h, i⟩ p))]

end Network

namespace Graph

/-- What a graph is ready for. -/
def inspectFlags (g : Graph) (s : Store) : Json :=
  .obj [("compiled", .bool g.compiled), ("disposed", .bool (s.isDisposed g.id)),
    ("runnable", .bool (g.isRunnable s)), ("paths", .bool g.paths.isSome)]

/-- The groups of a graph. -/
def inspectGroups (g : Graph) : Json := (Json.arr (g.groups.map NodeGroup.toJson)).quote

/-- The report on a graph. -/
def inspect (g : Graph) (s : Store) : Json :=
  .obj [("name", .str g.name), ("flags", g.inspectFlags s),
    ("blackboard", .arr (g.blackboard.map (s.vars.inspect s.objects))),
    ("groups", g.inspectGroups),
    ("nodes", .arr (g.placed.map fun (h, x) => g.inspectNode s h x))]

end Graph

/-! ## Dispatches -/

/-- The different guids of a trace. -/
def DispatchOutcome.executed (o : DispatchOutcome) : List String :=
  o.trace.foldl (fun seen guid => if seen.contains guid then seen else guid :: seen) []

/-- How often the node that ran most often ran. -/
def DispatchOutcome.mostRuns (o : DispatchOutcome) : Nat :=
  (o.executed.map o.runsOf).foldl max 0

/-- The report on a completed dispatch. -/
def DispatchOutcome.inspect (o : DispatchOutcome) (objects : HostObjects) : Json :=
  .obj [("id", .str o.dispatchId), ("entry", .str o.entry), ("nodes", .ofNat o.nodesExecuted),
    ("trace", .arr (o.trace.map .str)), ("runs", .ofNat o.mostRuns),
    ("returned", .ofOption (·.toTagged objects) o.returned)]

end FlowGraph
