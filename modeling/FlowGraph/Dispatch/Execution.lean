import FlowGraph.Dispatch.Frame
import FlowGraph.Duration

/-! # Executing a node

    What each behavior does.  Nodes that run chains of other nodes are given the
    meaning of a chain as `chain`, so the definitions here do not recur; the knot is
    tied in `Dispatch.Basic`.

    Main definitions: `Site.forward` runs a chain inside the executing node and
    `Site.call` runs a function; whichever way these end, the pending successor and the
    return box of the executing node are afterwards what they were before. -/

namespace FlowGraph

/-- The meaning of the chain that starts at a node. -/
abbrev Chain := Frame → NodeHandle → Exec Unit

namespace Site

/-! ## Sub-executions -/

/-- Run steps and then put a part of the state back as it was before them, whichever way
    they end. -/
def enclosed (part : DispatchState → β) (restore : β → DispatchState → DispatchState)
    (x : Exec α) : Exec α := do
  let kept ← Exec.read part
  let result ← x.attempt
  Exec.modify (restore kept)
  Exec.ofResult result

/-- Put the pending successor back. -/
def restoreNext (next : Option NodeHandle) (s : DispatchState) : DispatchState := { s with next }

/-- What belongs to the caller of a function: its pending successor and its return box. -/
def callerPart (s : DispatchState) : Option NodeHandle × Option Value := (s.next, s.returned)

/-- Put what belongs to the caller back. -/
def restoreCaller (part : Option NodeHandle × Option Value) (s : DispatchState) : DispatchState :=
  { s with next := part.1, returned := part.2 }

/-- The frame of a sub-execution. -/
def inner (site : Site) : Frame := { site.frame with depth := site.frame.depth + 1 }

/-- Run the chain that starts at a node. -/
def forward (chain : Chain) (site : Site) (start : NodeHandle) : Exec Unit :=
  if site.maxDepth ≤ site.frame.depth then Exec.fail (.forwardDepthExceeded site.maxDepth)
  else enclosed (·.next) restoreNext (chain site.inner start)

/-- Run the chain at a control output; nothing if it is not linked. -/
def forwardPort (chain : Chain) (site : Site) (name : String) (index : Nat) : Exec Unit :=
  match site.successor name index with
  | some start => site.forward chain start
  | none => pure ()

/-! ## Calls -/

/-- The function of a name: one of the graph, or else one of the library. -/
def function? (site : Site) (name : String) : Option Graph :=
  (site.frame.graph.function? name).or (site.frame.engine.function? name)

/-- A function that can be called, with its entry, or why it cannot. -/
def callee (site : Site) (name : String) (s : Store) : Except GraphError (Graph × NodeHandle) :=
  match site.function? name with
  | none => .error (.unknownFunction name)
  | some g =>
    if !g.isRunnable s then .error (.notCompiled g.name)
    else
      match g.findEntry name with
      | none => .error (.unknownEntry ("function '" ++ name ++ "'"))
      | some entry =>
        if site.maxDepth ≤ site.frame.depth then .error (.forwardDepthExceeded site.maxDepth)
        else .ok (g, entry)

/-- The frame of a call. -/
def callFrame (site : Site) (g : Graph) (call : EventCall) : Frame :=
  { site.frame with graph := g, call, depth := site.frame.depth + 1 }

/-- Run a chain with an empty return box; what the box holds at the end, or `null`. -/
def activation (chain : Chain) (frame : Frame) (entry : NodeHandle) : Exec Value := do
  Exec.modify fun s => { s with next := none, returned := none }
  chain frame entry
  Exec.read fun s => s.returned.getD .null

/-- Call a function. -/
def call (chain : Chain) (site : Site) (name : String) (arguments : List Value) :
    Exec Value := do
  let (g, entry) ← Exec.ofResult (← Exec.view (site.callee name))
  enclosed callerPart restoreCaller (activation chain (site.callFrame g ⟨name, arguments⟩) entry)

/-! ## Behaviors of the library -/

/-- A number input; integers count as numbers. -/
def number (site : Site) (name : String) (s : Store) : Float :=
  match site.input name 0 s with
  | .int n => n.toFloat
  | v => v.toFloat

/-- Write the result of a function of the two numbers. -/
def binary (site : Site) (f : Float → Float → Value) : Exec Unit :=
  Exec.update fun s => site.output "result" 0 (f (site.number "a" s) (site.number "b" s)) s

/-- Publish the arguments of the call, one in each slot. -/
def publish (site : Site) : Exec Unit :=
  Exec.update fun s =>
    (List.range (site.portCount "args")).foldl
      (fun s index => site.output "args" index (site.frame.call.argument index) s) s

/-- Run the body for `count` indices from `index` on. -/
def loop (chain : Chain) (site : Site) : (count : Nat) → (index : Int) → Exec Unit
  | 0, _ => pure ()
  | count + 1, index => do
    site.write "index" (.int (Int64.ofInt index))
    site.forwardPort chain "body" 0
    site.loop chain count (index + 1)

/-- Run the body for each index from the first up to the last one, which is left out. -/
def forLoop (chain : Chain) (site : Site) : Exec Unit := do
  let first := (← site.read "first").toInt.toInt
  let last := (← site.read "last").toInt.toInt
  site.loop chain (last - first).toNat first
  site.continueWith "completed"

/-- Schedule a wait and publish its id, then wait. -/
def delay (site : Site) : Exec Unit := do
  let seconds := (← site.read "seconds").toFloat
  if !site.frame.engine.hasScheduler then
    Exec.fail (.executionFailed "no scheduler registered for Delay")
  else
    let (key, scheduler) ← Exec.view (·.scheduler.delay (Duration.milliseconds seconds))
    Exec.update fun s => { s with scheduler }
    let id := ((scheduler.find? key).map (·.id)).getD 0
    site.write "handle" (Value.ofNat id)
    Exec.await key
    site.continueWith "next"

/-- Write the message input to the log and report it. -/
def logMessage (site : Site) (level : LogLevel) : Exec Unit := do
  let text := (← site.read "message").toText
  if level ≠ .off then
    Exec.update (·.report level ("[" ++ site.frame.graph.name ++ "] " ++ text))
  site.message text
  site.continueWith "next"

/-- Write the variable of a field. -/
def assign (_ : Site) (v : VarId) (value : Value) : Exec Unit :=
  Exec.update fun s => { s with vars := s.vars.set v value }

/-- Write the input to the node's variable. -/
def setVariable (site : Site) : Exec Unit := do
  let value ← site.read "value"
  match site.ownVariable "variable" with
  | some v => site.assign v value
  | none =>
    Exec.update (·.report .warn ("SetVariable '" ++ site.guid ++ "': no variable bound"))
  site.continueWith "next"

/-- The value of the variable of a field, `null` if there is none. -/
def variableValue (site : Site) (field : String) (s : Store) : Value :=
  ((site.ownVariable field).map s.vars.get).getD .null

/-- Output the object that the node acts on, its kind, and whether there is one. -/
def describeTarget (site : Site) : Exec Unit := do
  match ← Exec.view (site.target "target") with
  | some ref =>
    site.write "kind" (.string ref.kind)
    site.write "valid" (.bool true)
    site.write "object" (.object ref)
  | none =>
    site.write "kind" (.string "")
    site.write "valid" (.bool false)
    site.write "object" .null

/-- Call a function with the values of the argument slots and output its result. -/
def invokeFunction (chain : Chain) (site : Site) (name : String) : Exec Unit := do
  let arguments ← Exec.view (site.inputs "args")
  let result ← site.call chain name arguments
  site.write "result" result
  site.continueWith "next"

/-! ## Scripts -/

/-- The kind of an object, a dash if there is none. -/
def kindText (ref : Option ObjectRef) : String := (ref.map (·.kind)).getD "-"

/-- The state of the dispatch in a message. -/
def noteText (site : Site) (port : String) (next : Option NodeHandle) : String :=
  let nextGuid := ((next.bind site.frame.graph.node?).map (·.guid)).getD "-"
  "guid=" ++ site.guid ++ " depth=" ++ GraphError.number site.frame.depth
    ++ " limit=" ++ GraphError.number site.maxDepth ++ " next=" ++ nextGuid
    ++ " len=" ++ GraphError.number (site.portCount port)
    ++ " payload=" ++ site.frame.call.name ++ "/"
    ++ GraphError.number site.frame.call.arguments.length
    ++ " trigger=" ++ kindText site.frame.trigger ++ " graph=" ++ site.frame.graph.name

/-- A value in a message. -/
def taggedText (v : Value) (s : Store) : String := (v.toTagged s.objects).compact

/-- The result of a call in a message. -/
def resultText (result : Except GraphError Value) (s : Store) : String :=
  match result with
  | .ok v => "ok " ++ taggedText v s
  | .error e => "caught " ++ e.message

/-- Wait for some milliseconds. -/
def pause (site : Site) (milliseconds : Nat) : Exec Unit := do
  if !site.frame.engine.hasScheduler then
    Exec.fail (.executionFailed "no scheduler")
  else
    let (key, scheduler) ← Exec.view (·.scheduler.delay milliseconds)
    Exec.update fun s => { s with scheduler }
    Exec.await key

/-- Report a text that depends on the store. -/
def tell (site : Site) (text : Store → String) : Exec Unit := do
  site.message (← Exec.view text)

/-- Carry out an instruction. -/
def perform (chain : Chain) (site : Site) : Instruction → Exec Unit
  | .write port index value =>
    Exec.update fun s => site.output port index (Value.ofTagged s.objects value) s
  | .copy source i target k =>
    Exec.update fun s => site.output target k (site.input source i s) s
  | .next port => site.continueWith port
  | .stop => site.select none
  | .goto guid => site.select (site.frame.graph.handleOf guid)
  | .forward port index => site.forwardPort chain port index
  | .run guid =>
    match site.frame.graph.handleOf guid with
    | some start => site.forward chain start
    | none => pure ()
  | .fail reason => Exec.fail (.executionFailed reason)
  | .cancel => Exec.fail .cancelled
  | .message text => site.message text
  | .read port index =>
    site.tell fun s => port ++ "[" ++ GraphError.number index ++ "]="
      ++ taggedText (site.input port index s) s
  | .typed port type => site.tell fun s => type.text (site.input port 0 s)
  | .note port => do
    site.message (site.noteText port (← Exec.read (·.next)))
  | .answer value => do
    site.answer (← Exec.view fun s => Value.ofTagged s.objects value)
  | .answerInput port index => do
    site.answer (← Exec.view (site.input port index))
  | .answerArgument index => site.answer (site.frame.call.argument index)
  | .answered => do
    let returned ← Exec.read (·.returned)
    site.tell fun s => (returned.map fun v => taggedText v s).getD "null"
  | .invoke name arguments output => do
    let values ← Exec.view fun s => arguments.map (Value.ofTagged s.objects)
    site.write output (← site.call chain name values)
  | .attempt name => do
    let result ← (site.call chain name []).attempt
    site.tell (resultText result)
  | .attemptForward port index => do
    match ← (site.forwardPort chain port index).attempt with
    | .ok () => pure ()
    | .error e => site.message ("caught " ++ e.message)
  | .target port => site.tell fun s => "target=" ++ kindText (site.target port s)
  | .readVariable field output =>
    Exec.update fun s => site.output output 0 (site.variableValue field s) s
  | .writeVariable field value =>
    match site.ownVariable field with
    | some v => do site.assign v (← Exec.view fun s => Value.ofTagged s.objects value)
    | none => pure ()
  | .readBoard name output =>
    Exec.update fun s =>
      let value := ((site.frame.graph.blackboard.find? s.vars name).map s.vars.get).getD
        .null
      site.output output 0 value s
  | .delay milliseconds => site.pause milliseconds
  | .skip => pure ()

/-! ## All behaviors -/

/-- Execute the node of a site. -/
def execute (chain : Chain) (site : Site) : Behavior → Exec Unit
  | .executionEvent _ => do
    site.publish
    site.continueWith "next"
  | .functionInput _ => do
    site.publish
    site.continueWith "next"
  | .branch => do
    let condition := (← site.read "condition").toBool
    site.continueWith (if condition then "true" else "false")
  | .sequence =>
    Exec.forEach (List.range (site.portCount "then")) (site.forwardPort chain "then")
  | .forLoop => site.forLoop chain
  | .delay => site.delay
  | .log level => site.logMessage level
  | .literal type raw => site.write "value" (Behavior.literalValue type raw)
  | .add => site.binary fun a b => .float (a + b)
  | .multiply => site.binary fun a b => .float (a * b)
  | .compare op => site.binary fun a b => .bool (op.apply a b)
  | .getVariable =>
    Exec.update fun s => site.output "value" 0 (site.variableValue "variable" s) s
  | .setVariable => site.setVariable
  | .functionOutput => do
    site.answer (← site.read "value")
    site.select none
  | .invokeFunction name => site.invokeFunction chain name
  | .describeTarget => site.describeTarget
  | .placeholder _ => pure ()
  | .script script => Exec.forEach script.instructions (site.perform chain)

end Site
end FlowGraph
