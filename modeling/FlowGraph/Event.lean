import FlowGraph.Json.Decode
import FlowGraph.Json.Printer

/-! # Events

    What a dispatch reports while it runs.  In JSON an event is one object whose
    field `type` names its kind. -/

namespace FlowGraph

/-- An event of a dispatch. -/
inductive GraphEvent where
  | dispatchStarted (graph dispatchId entry : String)
  | dispatchCompleted (graph dispatchId : String) (nodesExecuted : Nat)
  | dispatchFailed (graph dispatchId error : String)
  | nodeStarted (dispatchId nodeGuid nodeType : String)
  | nodeCompleted (dispatchId nodeGuid : String)
  | nodeFailed (dispatchId nodeGuid error : String)
  | nodeMessage (dispatchId nodeGuid message : String)
  deriving DecidableEq, Inhabited, Repr

namespace GraphEvent

/-- The dispatch that reports the event. -/
def dispatchId : GraphEvent → String
  | .dispatchStarted _ id _ => id
  | .dispatchCompleted _ id _ => id
  | .dispatchFailed _ id _ => id
  | .nodeStarted id _ _ => id
  | .nodeCompleted id _ => id
  | .nodeFailed id _ _ => id
  | .nodeMessage id _ _ => id

/-- The node that started, if the event says so. -/
def startedNode? : GraphEvent → Option String
  | .nodeStarted _ guid _ => some guid
  | _ => none

/-- The JSON form. -/
def toJson : GraphEvent → Json
  | .dispatchStarted graph id entry =>
    .obj [("type", .str "dispatchStarted"), ("graph", .str graph), ("dispatchId", .str id),
      ("entry", .str entry)]
  | .dispatchCompleted graph id n =>
    .obj [("type", .str "dispatchCompleted"), ("graph", .str graph), ("dispatchId", .str id),
      ("nodesExecuted", .int n)]
  | .dispatchFailed graph id error =>
    .obj [("type", .str "dispatchFailed"), ("graph", .str graph), ("dispatchId", .str id),
      ("error", .str error)]
  | .nodeStarted id guid type =>
    .obj [("type", .str "nodeStarted"), ("dispatchId", .str id), ("nodeGuid", .str guid),
      ("nodeType", .str type)]
  | .nodeCompleted id guid =>
    .obj [("type", .str "nodeCompleted"), ("dispatchId", .str id), ("nodeGuid", .str guid)]
  | .nodeFailed id guid error =>
    .obj [("type", .str "nodeFailed"), ("dispatchId", .str id), ("nodeGuid", .str guid),
      ("error", .str error)]
  | .nodeMessage id guid message =>
    .obj [("type", .str "nodeMessage"), ("dispatchId", .str id), ("nodeGuid", .str guid),
      ("message", .str message)]

/-! ## Reading -/

/-- Read the fields of an event of a kind. -/
def decodeKind (kind : String) (s : Source) : Except Fault GraphEvent := do
  match kind with
  | "dispatchStarted" =>
    let r ← Record.ofSource ["graph", "dispatchId", "entry"] s
    r.finish <| dispatchStarted <$> r.required "graph" Source.text
      <*> r.required "dispatchId" Source.text <*> r.required "entry" Source.text
  | "dispatchCompleted" =>
    let r ← Record.ofSource ["graph", "dispatchId", "nodesExecuted"] s
    r.finish <| dispatchCompleted <$> r.required "graph" Source.text
      <*> r.required "dispatchId" Source.text <*> r.required "nodesExecuted" Source.natural
  | "dispatchFailed" =>
    let r ← Record.ofSource ["graph", "dispatchId", "error"] s
    r.finish <| dispatchFailed <$> r.required "graph" Source.text
      <*> r.required "dispatchId" Source.text <*> r.required "error" Source.text
  | "nodeStarted" =>
    let r ← Record.ofSource ["dispatchId", "nodeGuid", "nodeType"] s
    r.finish <| nodeStarted <$> r.required "dispatchId" Source.text
      <*> r.required "nodeGuid" Source.text <*> r.required "nodeType" Source.text
  | "nodeCompleted" =>
    let r ← Record.ofSource ["dispatchId", "nodeGuid"] s
    r.finish <| nodeCompleted <$> r.required "dispatchId" Source.text
      <*> r.required "nodeGuid" Source.text
  | "nodeFailed" =>
    let r ← Record.ofSource ["dispatchId", "nodeGuid", "error"] s
    r.finish <| nodeFailed <$> r.required "dispatchId" Source.text
      <*> r.required "nodeGuid" Source.text <*> r.required "error" Source.text
  | "nodeMessage" =>
    let r ← Record.ofSource ["dispatchId", "nodeGuid", "message"] s
    r.finish <| nodeMessage <$> r.required "dispatchId" Source.text
      <*> r.required "nodeGuid" Source.text <*> r.required "message" Source.text
  | _ => .error .mismatched

/-- The kinds of events. -/
def kinds : List String :=
  ["dispatchStarted", "dispatchCompleted", "dispatchFailed", "nodeStarted", "nodeCompleted",
    "nodeFailed", "nodeMessage"]

/-- Read a kind. -/
def readKind (s : Source) : Except Fault String := do
  let kind ← s.text
  if kinds.contains kind then .ok kind else .error .mismatched

/-- The kind and the other fields, given those read so far.  A kind is checked where it
    stands, and it stands there once. -/
def splitFields (kind : Option String) (seen : List (String × Json)) :
    List (Option String × Source) → Except Fault (Option String × List (String × Json))
  | [] => .ok (kind, seen)
  | (none, s) :: _ => .error s.nameless
  | (some name, s) :: rest =>
    if name = "type" then
      if kind.isSome then .error .mismatched
      else do splitFields (some (← readKind s)) seen rest
    else do splitFields kind (seen ++ [(name, ← s.read)]) rest

/-- A result, unless a container has a fault in place of its end. -/
def ended (ending : Option Fault) (a : α) : Except Fault α :=
  match ending with
  | none => .ok a
  | some fault => .error fault

/-- The kind of an event and the rest of it.  An array starts with the kind. -/
def split : Source → Except Fault (String × Json)
  | .obj fields ending => do
    match ← ended ending (← splitFields none [] fields) with
    | (some kind, rest) => .ok (kind, .obj rest)
    | (none, _) => .error .mismatched
  | .arr [] ending => .error (ending.getD .mismatched)
  | .arr (first :: items) ending => do
    let kind ← readKind first
    ended ending (kind, .arr (← Source.readItems items))
  | s => .error s.wrongType

/-- Read an event.  Other fields may come before the kind, so they are read as plain
    values first. -/
def decode (s : Source) : Except Fault GraphEvent := do
  let (kind, rest) ← split s
  Json.decodeWith (decodeKind kind) rest

end GraphEvent
end FlowGraph
