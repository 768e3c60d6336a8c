import FlowGraph.Proofs.Dispatch.Answers
import FlowGraph.Proofs.Dispatch.Depth

/-! # Registers of a context

    A computation may carry a register beside the state of the dispatch.  It gives the register
    back also where it fails (`Holding`), so what the register holds afterwards is up to the
    steps alone.  `Holding.Agrees` says that a computation with a register does what one without
    it does, and what the register holds before and after, whichever way it ends.

    A frame says which graph runs, for whom, with which arguments and how deep, a site also which
    node executes, and neither of them ever changes.  Here the same chains are run by a context
    that has these as registers: an execution sets the current node and puts the previous one
    back, a sub-execution raises the depth, lowers it again and puts the current node back, and
    a call starts a context of its own.  Nodes find their slots through the current node of the
    moment.

    For all chains of nodes of the library this is the same, and afterwards the registers are
    what they were before (`Held.runChain_agrees`).  So they are after a sub-execution, also if
    it fails at any nesting (`Held.forward_agrees`). -/

namespace FlowGraph

variable {α β σ : Type}

/-! ## Section 1: Computations -/

/-- A computation that is given a register and returns how it ended, with the register. -/
def Holding (σ α : Type) : Type := σ → Exec (Except GraphError α × σ)

namespace Holding

instance : Monad (Holding σ) where
  pure a c := pure (.ok a, c)
  bind x f c := do
    match ← x c with
    | (.ok a, d) => f a d
    | (.error e, d) => pure (.error e, d)

/-- Steps that do not touch the register. -/
def lift (x : Exec α) : Holding σ α := fun c s => (x s).holding c

/-- Look at the register. -/
def get : Holding σ σ := fun c => pure (.ok c, c)

/-- Change the register. -/
def change (f : σ → σ) : Holding σ Unit := fun c => pure (.ok (), f c)

/-- Run a computation and return how it ended. -/
def attempt (x : Holding σ α) : Holding σ (Except GraphError α) := fun c s =>
  (x c s).bind fun ended s => .done (.ok (.ok ended.1, ended.2)) s

/-- Run a computation for each element of a list, in order. -/
def forEach (xs : List β) (f : β → Holding σ Unit) : Holding σ Unit :=
  match xs with
  | [] => pure ()
  | x :: rest => do
    f x
    forEach rest f

/-! ## Section 2: Agreement -/

/-- With the register at `c` the first computation does what the second one does, and the
    register is at `d` afterwards. -/
def Agrees (c d : σ) (x : Holding σ α) (y : Exec α) : Prop := ∀ s, x c s = (y s).holding d

variable {c d e : σ}

theorem Agrees.lift (x : Exec α) : Agrees c c (lift x) x := fun _ => rfl

theorem Agrees.pure (a : α) : Agrees c c (Pure.pure a) (Pure.pure a) := fun _ => rfl

theorem Agrees.get {f : σ → Holding σ β} {y : Exec β} (hf : Agrees c d (f c) y) :
    Agrees c d (get >>= f) y := hf

theorem Agrees.change (f : σ → σ) {x : Unit → Holding σ β} {y : Exec β}
    (hx : Agrees (f c) d (x ()) y) : Agrees c d (change f >>= x) y := hx

/-- After steps that may fail the register has to be where it is left. -/
theorem Agrees.bind {x : Holding σ α} {y : Exec α} {f : α → Holding σ β} {g : α → Exec β}
    (hx : Agrees c d x y) (hf : ∀ a, Agrees d d (f a) (g a)) :
    Agrees c d (x >>= f) (y >>= g) := by
  intro s
  show (x c s).bind _ = ((y s).bind g).holding d
  rw [hx s]
  apply Process.holding_bind
  · exact fun a t => hf a t
  · exact fun e t => rfl

/-- After steps whose failure is their result it may go elsewhere. -/
theorem Agrees.after {x : Holding σ α} {y : Exec α} {f : Except GraphError α → Holding σ β}
    {g : Except GraphError α → Exec β} (hx : Agrees c d x y)
    (hf : ∀ result, Agrees d e (f result) (g result)) :
    Agrees c e (x.attempt >>= f) (y.attempt >>= g) := by
  intro s
  show Process.bind (Process.bind (x c s) _) _ = ((y s).attempt.bind g).holding e
  rw [hx s]
  refine (Process.bind_assoc _ _ _).trans ?_
  exact Process.holding_after _ _ _ fun result t => hf result t

theorem Agrees.forEach (xs : List β) {f : β → Holding σ Unit} {g : β → Exec Unit}
    (hf : ∀ x ∈ xs, Agrees c c (f x) (g x)) : Agrees c c (forEach xs f) (Exec.forEach xs g) := by
  induction xs with
  | nil => exact .pure ()
  | cons x rest ih =>
    refine (hf x List.mem_cons_self).bind fun _ => ?_
    exact ih fun y hy => hf y (List.mem_cons_of_mem x hy)

/-- What is looked at is known to be a part of a store. -/
theorem Agrees.look (f : Store → Except GraphError β) {k : β → Holding σ α} {k' : β → Exec α}
    (hk : ∀ s b, f s = .ok b → Agrees c c (k b) (k' b)) :
    Agrees c c (Holding.lift (do Exec.ofResult (← Exec.view f)) >>= k)
      (do k' (← Exec.ofResult (← Exec.view f))) := by
  intro s
  show ((Exec.ofResult (f s.store) s).holding c).bind _
    = ((Exec.ofResult (f s.store) s).bind k').holding c
  cases hf : f s.store with
  | ok b => exact hk s.store b hf s
  | error e => rfl

end Holding

/-! ## Section 3: Contexts -/

/-- What a context keeps of its own, the pending successor apart. -/
structure Registers where
  graph : Graph
  trigger : Option ObjectRef
  call : EventCall
  depth : Nat
  /-- The executing node. -/
  current : Option NodeHandle

/-- The frame that the registers stand for. -/
def Registers.frame (c : Registers) (engine : Engine) (dispatchId : String) : Frame :=
  ⟨engine, dispatchId, c.graph, c.trigger, c.call, c.depth⟩

/-- The registers while a node executes. -/
def Site.registers (site : Site) : Registers :=
  ⟨site.frame.graph, site.frame.trigger, site.frame.call, site.frame.depth, some site.node⟩

/-- A computation of a context. -/
abbrev Held (α : Type) : Type := Holding Registers α

/-- The meaning of a chain in the context. -/
abbrev HeldChain := NodeHandle → Held Unit

namespace Held

open Holding (lift get change attempt forEach)

variable (engine : Engine) (dispatchId : String)

/-- What depends on the executing node. -/
def atNode (f : Site → Held α) : Held α := do
  let c ← get
  match c.current with
  | some h => f ⟨c.frame engine dispatchId, h⟩
  | none => lift (Exec.fail (.executionFailed "no node is executing"))

/-- Run a chain one level deeper.  Afterwards the depth is lowered, and the current node and the
    pending successor are put back, whichever way the chain ended. -/
def forward (chain : HeldChain) (start : NodeHandle) : Held Unit := do
  let c ← get
  if engine.config.maxForwardDepth ≤ c.depth then
    lift (Exec.fail (.forwardDepthExceeded engine.config.maxForwardDepth))
  else
    let next ← lift (Exec.read (·.next))
    change fun d => { d with depth := d.depth + 1 }
    let result ← attempt (chain start)
    change fun d => { d with depth := d.depth - 1 }
    change fun d => { d with current := c.current }
    lift (Exec.modify (Site.restoreNext next))
    lift (Exec.ofResult result)

/-- Run the chain at a control output; nothing if it is not linked. -/
def forwardPort (chain : HeldChain) (name : String) (index : Nat) : Held Unit :=
  atNode engine dispatchId fun site =>
    match site.successor name index with
    | some start => forward engine chain start
    | none => pure ()

/-- Run a computation in a context of its own and return how it ended. -/
def nested (own : Registers) (x : Held α) : Held (Except GraphError α) := fun c s =>
  (x own s).bind fun ended s => .done (.ok (.ok ended.1, c)) s

/-- Run a chain with an empty return box; what the box holds at the end, or `null`. -/
def activation (chain : HeldChain) (entry : NodeHandle) : Held Value := do
  lift (Exec.modify fun s => { s with next := none, returned := none })
  chain entry
  lift (Exec.read fun s => s.returned.getD .null)

/-- Call a function in a context of its own, in which no node is executing yet. -/
def call (chain : HeldChain) (name : String) (arguments : List Value) : Held Value :=
  atNode engine dispatchId fun site => do
    let (g, entry) ← lift (do Exec.ofResult (← Exec.view (site.found name)))
    let c ← get
    if engine.config.maxForwardDepth ≤ c.depth then
      lift (Exec.fail (.forwardDepthExceeded engine.config.maxForwardDepth))
    else
      let kept ← lift (Exec.read Site.callerPart)
      let result ← nested ⟨g, c.trigger, ⟨name, arguments⟩, c.depth + 1, none⟩
        (activation chain entry)
      lift (Exec.modify (Site.restoreCaller kept))
      lift (Exec.ofResult result)

/-- Run the body for `count` indices from `index` on. -/
def loop (chain : HeldChain) : (count : Nat) → (index : Int) → Held Unit
  | 0, _ => pure ()
  | count + 1, index => do
    atNode engine dispatchId fun site => lift (site.write "index" (.int (Int64.ofInt index)))
    forwardPort engine dispatchId chain "body" 0
    loop chain count (index + 1)

/-- Execute the current node. -/
def execute (chain : HeldChain) : Behavior → Held Unit
  | .sequence =>
    atNode engine dispatchId fun site =>
      forEach (List.range (site.portCount "then")) (forwardPort engine dispatchId chain "then")
  | .forLoop => do
    let first ← atNode engine dispatchId fun site => lift (site.read "first")
    let last ← atNode engine dispatchId fun site => lift (site.read "last")
    loop engine dispatchId chain (last.toInt.toInt - first.toInt.toInt).toNat first.toInt.toInt
    atNode engine dispatchId fun site => lift (site.continueWith "completed")
  | .invokeFunction name => do
    let arguments ← atNode engine dispatchId fun site => lift (Exec.view (site.inputs "args"))
    let result ← call engine dispatchId chain name arguments
    atNode engine dispatchId fun site => lift (site.write "result" result)
    atNode engine dispatchId fun site => lift (site.continueWith "next")
  | b => atNode engine dispatchId fun site => lift (site.execute Chain.idle b)

/-- Run a node: it is the current one meanwhile, and the previous one is put back. -/
def invoke (chain : HeldChain) (h : NodeHandle) : Held Unit := do
  let c ← get
  let frame := c.frame engine dispatchId
  match c.graph.node? h with
  | none => lift (Exec.fail (.unknownNode h.text))
  | some n =>
    lift frame.count
    lift (Exec.modify fun s => { s with trace := s.trace.push n.guid })
    lift (frame.announce (.nodeStarted dispatchId n.guid n.type))
    change fun d => { d with current := some h }
    let result ← attempt (execute engine dispatchId chain n.behavior)
    change fun d => { d with current := c.current }
    lift (frame.conclude n.guid result)

/-- Run the dependency path of a node and then the node; the successor it selected. -/
def runNode (chain : HeldChain) (h : NodeHandle) : Held (Option NodeHandle) := do
  lift Frame.clearNext
  let c ← get
  let path ← lift (Exec.ofResult (c.graph.dependencyPath h))
  forEach path (invoke engine dispatchId chain)
  lift Frame.clearNext
  invoke engine dispatchId chain h
  let next ← lift (Exec.read (·.next))
  lift Frame.clearNext
  return next

/-- Run the chain that starts at a node. -/
def runChain : (fuel : Nat) → HeldChain
  | 0, _ => lift fun s => .exhausted s
  | fuel + 1, h => do
    match ← runNode engine dispatchId (runChain fuel) h with
    | some next => runChain fuel next
    | none => pure ()

/-! ## Section 4: Sub-executions give the registers back -/

variable {engine dispatchId}

/-- From these registers on the computation does what the other one does, and the registers are
    the same afterwards. -/
abbrev Agrees (c : Registers) (x : Held α) (y : Exec α) : Prop := Holding.Agrees c c x y

theorem agrees_atNode {c d : Registers} {h : NodeHandle} (hc : c.current = some h)
    {f : Site → Held α} {y : Exec α}
    (hf : Holding.Agrees c d (f ⟨c.frame engine dispatchId, h⟩) y) :
    Holding.Agrees c d (atNode engine dispatchId f) y := by
  apply Holding.Agrees.get
  rw [hc]
  exact hf

/-- What a nested context does with its registers does not matter. -/
theorem agrees_nested {c own d : Registers} {x : Held α} {y : Exec α}
    (hx : Holding.Agrees own d x y) : Agrees c (nested own x) y.attempt := by
  intro s
  show Process.bind (x own s) _ = ((y s).attempt).holding c
  rw [hx s, ← (y s).attempt.bind_done]
  exact Process.holding_after _ _ _ fun result t => rfl

/-- The chains with registers are those with frames. -/
def ChainAgrees (engine : Engine) (dispatchId : String) (chain : HeldChain) (chain' : Chain) :
    Prop :=
  ∀ (c : Registers) h, (c.frame engine dispatchId).All Network.OfLibrary →
    Agrees c (chain h) (chain' (c.frame engine dispatchId) h)

section Library

variable {chain : HeldChain} {chain' : Chain}
  (hchain : ChainAgrees engine dispatchId chain chain') {c : Registers} {h : NodeHandle}
  (hc : c.current = some h) (hnodes : (c.frame engine dispatchId).All Network.OfLibrary)

include hchain hnodes

theorem forward_agrees (start : NodeHandle) :
    Agrees c (forward engine chain start)
      ((Site.mk (c.frame engine dispatchId) h).forward chain' start) := by
  apply Holding.Agrees.get
  have hmax : (Site.mk (c.frame engine dispatchId) h).maxDepth
      = engine.config.maxForwardDepth := rfl
  have hdepth : (Site.mk (c.frame engine dispatchId) h).frame.depth = c.depth := rfl
  unfold Site.forward
  rw [hmax, hdepth]
  by_cases hlimit : engine.config.maxForwardDepth ≤ c.depth
  · rw [if_pos hlimit, if_pos hlimit]
    exact .lift _
  · rw [if_neg hlimit, if_neg hlimit]
    apply Holding.Agrees.bind (.lift _)
    intro next
    apply Holding.Agrees.change
    -- inside the chain the registers are those of a deeper frame
    have hinner := hchain { c with depth := c.depth + 1 } start ⟨hnodes.graph, hnodes.library⟩
    refine Holding.Agrees.after hinner fun result => ?_
    apply Holding.Agrees.change
    apply Holding.Agrees.change
    exact Holding.Agrees.bind (c := c) (.lift _) fun _ => .lift _

include hc

theorem forwardPort_agrees (name : String) (index : Nat) :
    Agrees c (forwardPort engine dispatchId chain name index)
      ((Site.mk (c.frame engine dispatchId) h).forwardPort chain' name index) := by
  apply agrees_atNode hc
  unfold Site.forwardPort
  cases (Site.mk (c.frame engine dispatchId) h).successor name index with
  | none => exact .pure ()
  | some start => exact forward_agrees hchain hnodes start

theorem loop_agrees (count : Nat) (index : Int) :
    Agrees c (loop engine dispatchId chain count index)
      ((Site.mk (c.frame engine dispatchId) h).loop chain' count index) := by
  induction count generalizing index with
  | zero => exact .pure ()
  | succ count ih =>
    apply Holding.Agrees.bind (agrees_atNode hc (.lift _))
    intro _
    apply Holding.Agrees.bind (forwardPort_agrees hchain hc hnodes "body" 0)
    intro _
    exact ih (index + 1)

theorem call_agrees (name : String) (arguments : List Value) :
    Agrees c (call engine dispatchId chain name arguments)
      ((Site.mk (c.frame engine dispatchId) h).call chain' name arguments) := by
  apply agrees_atNode hc
  rw [Site.call_eq]
  apply Holding.Agrees.look ((Site.mk (c.frame engine dispatchId) h).found name)
  rintro s ⟨g, entry⟩ hfound
  apply Holding.Agrees.get
  dsimp only
  have hmax : (Site.mk (c.frame engine dispatchId) h).maxDepth
      = engine.config.maxForwardDepth := rfl
  have hdepth : (Site.mk (c.frame engine dispatchId) h).frame.depth = c.depth := rfl
  rw [hmax, hdepth]
  by_cases hlimit : engine.config.maxForwardDepth ≤ c.depth
  · rw [if_pos hlimit, if_pos hlimit]
    exact .lift _
  · rw [if_neg hlimit, if_neg hlimit]
    apply Holding.Agrees.bind (.lift _)
    intro kept
    have hfunction := Site.function?_of_found _ name s g entry hfound
    have hall : g.All Network.OfLibrary := Frame.All.function? hnodes name g hfunction
    have hcallee := hchain ⟨g, c.trigger, ⟨name, arguments⟩, c.depth + 1, none⟩ entry
      ⟨hall, hnodes.library⟩
    have hactivation := Holding.Agrees.bind
      (.lift (Exec.modify fun s => { s with next := none, returned := none }))
      fun _ => hcallee.bind fun _ => .lift (Exec.read fun s => s.returned.getD .null)
    apply Holding.Agrees.bind (agrees_nested hactivation)
    intro result
    exact Holding.Agrees.bind (.lift _) fun _ => .lift _

theorem execute_agrees (b : Behavior) (hb : b.isBuiltin = true) :
    Agrees c (execute engine dispatchId chain b)
      ((Site.mk (c.frame engine dispatchId) h).execute chain' b) := by
  have hplain : ∀ b : Behavior, b.startsChains = false →
      Agrees c (atNode engine dispatchId fun site => lift (site.execute Chain.idle b))
        ((Site.mk (c.frame engine dispatchId) h).execute chain' b) := by
    intro b hb
    apply agrees_atNode hc
    rw [Site.execute_plain chain' Chain.idle _ b hb]
    exact .lift _
  cases b with
  | sequence =>
    unfold execute
    apply agrees_atNode hc
    exact .forEach _ fun index _ => forwardPort_agrees hchain hc hnodes "then" index
  | forLoop =>
    apply Holding.Agrees.bind (agrees_atNode hc (.lift _))
    intro first
    apply Holding.Agrees.bind (agrees_atNode hc (.lift _))
    intro last
    apply Holding.Agrees.bind (loop_agrees hchain hc hnodes _ _)
    intro _
    exact agrees_atNode hc (.lift _)
  | invokeFunction name =>
    apply Holding.Agrees.bind (agrees_atNode hc (.lift _))
    intro arguments
    apply Holding.Agrees.bind (call_agrees hchain hc hnodes name arguments)
    intro result
    apply Holding.Agrees.bind (agrees_atNode hc (.lift _))
    intro _
    exact agrees_atNode hc (.lift _)
  | script script => cases hb
  | _ => exact hplain _ rfl

end Library

/-! ## Section 5: Chains give the registers back -/

variable {chain : HeldChain} {chain' : Chain}
  (hchain : ChainAgrees engine dispatchId chain chain') {c : Registers}
  (hnodes : (c.frame engine dispatchId).All Network.OfLibrary)

include hchain hnodes

theorem invoke_agrees (h : NodeHandle) :
    Agrees c (invoke engine dispatchId chain h) ((c.frame engine dispatchId).invoke chain' h) := by
  apply Holding.Agrees.get
  have hgraph : (c.frame engine dispatchId).graph = c.graph := rfl
  unfold Frame.invoke
  rw [hgraph]
  cases hx : c.graph.node? h with
  | none => exact .lift _
  | some x =>
    apply Holding.Agrees.bind (.lift _)
    intro _
    apply Holding.Agrees.bind (.lift _)
    intro _
    apply Holding.Agrees.bind (.lift _)
    intro _
    apply Holding.Agrees.change
    -- the frame does not say which node executes, so it is the same with this one
    have hexecute := execute_agrees hchain (c := { c with current := some h }) rfl hnodes
      x.behavior (hnodes.graph.network h x hx).1
    refine Holding.Agrees.after hexecute fun result => ?_
    exact Holding.Agrees.change _ (.lift _)

theorem runNode_agrees (h : NodeHandle) :
    Agrees c (runNode engine dispatchId chain h)
      ((c.frame engine dispatchId).runNode chain' h) := by
  have hinvoke := invoke_agrees hchain hnodes
  apply Holding.Agrees.bind (.lift _)
  intro _
  apply Holding.Agrees.get
  apply Holding.Agrees.bind (.lift _)
  intro path
  apply Holding.Agrees.bind (.forEach path fun k _ => hinvoke k)
  intro _
  apply Holding.Agrees.bind (.lift _)
  intro _
  apply Holding.Agrees.bind (hinvoke h)
  intro _
  apply Holding.Agrees.bind (.lift _)
  intro next
  exact Holding.Agrees.bind (.lift _) fun _ => .pure next

omit hchain hnodes in
theorem runChain_agrees (fuel : Nat) :
    ChainAgrees engine dispatchId (runChain engine dispatchId fuel) (Frame.runChain fuel) := by
  -- for all registers at once, as a sub-execution and a call have others
  induction fuel with
  | zero => exact fun c h _ s => rfl
  | succ fuel ih =>
    intro c h hnodes
    apply Holding.Agrees.bind (runNode_agrees ih hnodes h)
    intro next
    cases next with
    | none => exact .pure ()
    | some k => exact ih c k hnodes

end Held
end FlowGraph
