import FlowGraph.Proofs.Dispatch.Returning
import FlowGraph.Proofs.Dispatch.Room
import FlowGraph.Proofs.Dispatch.Trace

/-! # Depth of nesting

    A frame says how deep it is nested.  Here the same dispatch is run with a counter in place
    of that: a sub-execution raises the counter of the executing chain and lowers it afterwards,
    and a call starts a counter of its own (`Counted.forward`, `Counted.call`).  A computation
    gives the counter back also where it fails, so nothing but the code keeps it in order.

    `Counted.Agrees` says that a counted computation does what the one with frames does, and
    that the counter is afterwards what it was before.  This holds of all chains of nodes of the
    library up to the limit on nesting (`Counted.runChain_agrees`); that no node ever sees more
    than the limit is a part of it, since such a node would run `breach`, which can be anything.

    The main theorem, `Dispatch.nesting_bounded`, also compares dispatches with different
    limits, by `Dispatch.start_widens`. -/

namespace FlowGraph

variable {α β : Type}

/-! ## Section 1: Processes with a register -/

namespace Process

/-- The process that returns how it ended, with what a register holds then. -/
def holding {σ : Type} (c : σ) (p : Process α) : Process (Except GraphError α × σ) :=
  p.attempt.bind fun result s => .done (.ok (result, c)) s

variable {σ : Type} {c d : σ}

/-- Steps that follow where the first ones return. -/
theorem holding_bind (p : Process α) (f : α → DispatchState → Process β)
    (k : Except GraphError α × σ → DispatchState → Process (Except GraphError β × σ))
    (hok : ∀ a s, k (.ok a, c) s = (f a s).holding c)
    (herror : ∀ e s, k (.error e, c) s = .done (.ok (.error e, c)) s) :
    (p.holding c).bind k = (p.bind f).holding c := by
  induction p with
  | done result s =>
    cases result with
    | ok a => exact hok a s
    | error e => exact herror e s
  | waiting key s resume ih =>
    show waiting key s (fun result store => ((resume result store).holding c).bind k)
      = waiting key s fun result store => ((resume result store).bind f).holding c
    simp only [ih]
  | exhausted s => rfl

/-- Steps that follow whichever way the first ones end, with the register at something else. -/
theorem holding_after (p : Process α) (f : Except GraphError α → DispatchState → Process β)
    (k : Except GraphError α × σ → DispatchState → Process (Except GraphError β × σ))
    (h : ∀ result s, k (result, d) s = (f result s).holding c) :
    (p.holding d).bind k = (p.attempt.bind f).holding c := by
  induction p with
  | done result s => exact h result s
  | waiting key s resume ih =>
    show waiting key s (fun result store => ((resume result store).holding d).bind k)
      = waiting key s fun result store => ((resume result store).attempt.bind f).holding c
    simp only [ih]
  | exhausted s => rfl

/-- Wherever it ends, it gives what the register holds. -/
theorem holding_resumed (p : Process α) (answers : List Answer) :
    (p.holding c).resumed answers = (p.resumed answers).holding c := by
  induction p generalizing answers with
  | done result s => rfl
  | waiting key s resume ih =>
    cases answers with
    | nil => rfl
    | cons answer rest => exact ih answer.1 answer.2 rest
  | exhausted s => rfl

/-- The process that returns how it ended, with a depth. -/
def counted (depth : Nat) (p : Process α) : Process (Except GraphError α × Nat) :=
  p.attempt.bind fun result s => .done (.ok (result, depth)) s

variable {depth depth' : Nat}

theorem counted_bind (p : Process α) (f : α → DispatchState → Process β)
    (k : Except GraphError α × Nat → DispatchState → Process (Except GraphError β × Nat))
    (hok : ∀ a s, k (.ok a, depth) s = (f a s).counted depth)
    (herror : ∀ e s, k (.error e, depth) s = .done (.ok (.error e, depth)) s) :
    (p.counted depth).bind k = (p.bind f).counted depth :=
  p.holding_bind f k hok herror

theorem counted_after (p : Process α) (f : Except GraphError α → DispatchState → Process β)
    (k : Except GraphError α × Nat → DispatchState → Process (Except GraphError β × Nat))
    (h : ∀ result s, k (result, depth') s = (f result s).counted depth) :
    (p.counted depth').bind k = (p.attempt.bind f).counted depth :=
  p.holding_after f k h

theorem counted_resumed (p : Process α) (answers : List Answer) :
    (p.counted depth).resumed answers = (p.resumed answers).counted depth :=
  p.holding_resumed answers

end Process

/-! ## Section 2: Computations with a counter -/

/-- A computation that is given the depth and returns how it ended, with the depth at its end. -/
def Counted (α : Type) : Type := Nat → Exec (Except GraphError α × Nat)

namespace Counted

instance : Monad Counted where
  pure a depth := pure (.ok a, depth)
  bind x f depth := do
    match ← x depth with
    | (.ok a, after) => f a after
    | (.error e, after) => pure (.error e, after)

/-- Steps that do not touch the counter. -/
def lift (x : Exec α) : Counted α := fun depth s => (x s).counted depth

/-- Run a computation and return how it ended. -/
def attempt (x : Counted α) : Counted (Except GraphError α) := fun depth => do
  let (result, after) ← x depth
  pure (.ok result, after)

/-- Run a computation for each element of a list, in order. -/
def forEach (xs : List β) (f : β → Counted Unit) : Counted Unit :=
  match xs with
  | [] => pure ()
  | x :: rest => do
    f x
    forEach rest f

/-- Fail if the limit on nesting is reached. -/
def limited (site : Site) (x : Counted α) : Counted α := fun depth =>
  if site.maxDepth ≤ depth then pure (.error (.forwardDepthExceeded site.maxDepth), depth)
  else x depth

/-- Run a computation one level deeper and then put a part of the state back, whichever way it
    ends.  The counter afterwards is made of the own one and the one at the end inside. -/
def enclosed (part : DispatchState → β) (restore : β → DispatchState → DispatchState)
    (back : Nat → Nat → Nat) (x : Counted α) : Counted α := fun depth => do
  let kept ← Exec.read part
  let (result, inside) ← x (depth + 1)
  Exec.modify (restore kept)
  pure (result, back depth inside)

end Counted

/-- The meaning of a chain, given the depth.  The depth of the frame plays no role. -/
abbrev CountedChain := Frame → NodeHandle → Counted Unit

/-- The frame at another depth. -/
def Frame.atDepth (depth : Nat) (frame : Frame) : Frame := { frame with depth }

/-- The site at another depth. -/
def Site.atDepth (depth : Nat) (site : Site) : Site :=
  { site with frame := site.frame.atDepth depth }

namespace Counted

/-! ## Section 3: Nodes with a counter -/

/-- Run a chain with the counter raised, and lower it afterwards. -/
def forward (chain : CountedChain) (site : Site) (start : NodeHandle) : Counted Unit :=
  limited site <| enclosed (·.next) Site.restoreNext (fun _ inside => inside - 1)
    (chain site.frame start)

/-- Run the chain at a control output; nothing if it is not linked. -/
def forwardPort (chain : CountedChain) (site : Site) (name : String) (index : Nat) :
    Counted Unit :=
  match site.successor name index with
  | some start => forward chain site start
  | none => pure ()

/-- Run a chain with an empty return box; what the box holds at the end, or `null`. -/
def activation (chain : CountedChain) (frame : Frame) (entry : NodeHandle) : Counted Value := do
  lift (Exec.modify fun s => { s with next := none, returned := none })
  chain frame entry
  lift (Exec.read fun s => s.returned.getD .null)

/-- Call a function, which has a counter of its own; the one of the caller stays. -/
def call (chain : CountedChain) (site : Site) (name : String) (arguments : List Value) :
    Counted Value := do
  let (g, entry) ← lift (do Exec.ofResult (← Exec.view (site.found name)))
  limited site <| enclosed Site.callerPart Site.restoreCaller (fun own _ => own)
    (activation chain (site.callFrame g ⟨name, arguments⟩) entry)

/-- Run the body for `count` indices from `index` on. -/
def loop (chain : CountedChain) (site : Site) : (count : Nat) → (index : Int) → Counted Unit
  | 0, _ => pure ()
  | count + 1, index => do
    lift (site.write "index" (.int (Int64.ofInt index)))
    forwardPort chain site "body" 0
    loop chain site count (index + 1)

/-- Execute the node of a site.  A node that runs no chains sees the counter as its depth. -/
def execute (chain : CountedChain) (site : Site) : Behavior → Counted Unit
  | .sequence => forEach (List.range (site.portCount "then")) (forwardPort chain site "then")
  | .forLoop => do
    let first ← lift (site.read "first")
    let last ← lift (site.read "last")
    loop chain site (last.toInt.toInt - first.toInt.toInt).toNat first.toInt.toInt
    lift (site.continueWith "completed")
  | .invokeFunction name => do
    let arguments ← lift (Exec.view (site.inputs "args"))
    let result ← call chain site name arguments
    lift (site.write "result" result)
    lift (site.continueWith "next")
  | b => fun depth => lift ((site.atDepth depth).execute (fun _ _ => pure ()) b) depth

variable (breach : Site → Exec Unit)

/-- Run `breach` in place of a node that sees more than the limit. -/
def guarded (site : Site) (x : Counted Unit) : Counted Unit := fun depth =>
  if site.maxDepth < depth then lift (breach (site.atDepth depth)) depth else x depth

/-- Run a node. -/
def invoke (chain : CountedChain) (frame : Frame) (h : NodeHandle) : Counted Unit :=
  match frame.graph.node? h with
  | none => lift (Exec.fail (.unknownNode h.text))
  | some n => do
    lift frame.count
    lift (Exec.modify fun s => { s with trace := s.trace.push n.guid })
    lift (frame.announce (.nodeStarted frame.dispatchId n.guid n.type))
    let result ← attempt (guarded breach ⟨frame, h⟩ (execute chain ⟨frame, h⟩ n.behavior))
    lift (frame.conclude n.guid result)

/-- Run the dependency path of a node and then the node; the successor it selected. -/
def runNode (chain : CountedChain) (frame : Frame) (h : NodeHandle) :
    Counted (Option NodeHandle) := do
  lift Frame.clearNext
  let path ← lift (Exec.ofResult (frame.graph.dependencyPath h))
  forEach path (invoke breach chain frame)
  lift Frame.clearNext
  invoke breach chain frame h
  let next ← lift (Exec.read (·.next))
  lift Frame.clearNext
  return next

/-- Run the chain that starts at a node. -/
def runChain : (fuel : Nat) → CountedChain
  | 0, _, _ => lift fun s => .exhausted s
  | fuel + 1, frame, h => do
    match ← runNode breach (runChain fuel) frame h with
    | some next => runChain fuel frame next
    | none => pure ()

/-- Run a graph from an entry node, with the counter at zero. -/
def run (fuel : Nat) (frame : Frame) (entry : NodeHandle) : Exec DispatchOutcome := do
  let guid := ((frame.graph.node? entry).map (·.guid)).getD ""
  Exec.update (·.emit (.dispatchStarted frame.graph.name frame.dispatchId guid))
  let (result, _) ← runChain breach fuel frame entry 0
  Dispatch.conclude frame.graph.name frame.dispatchId guid result

/-- Dispatch a request. -/
def start (fuel : Nat) (engine : Engine) (g : Graph) (r : DispatchRequest) (s : Store) :
    Process DispatchOutcome :=
  if !g.isRunnable s then .done (.error (.notCompiled g.name)) { store := s }
  else
    match r.entry.find? g.toNetwork with
    | none => .done (.error (.unknownEntry r.entry.text)) { store := s }
    | some entry =>
      run breach fuel (Dispatch.frameOf engine g r s) entry
        { store := s.freshDispatch.2, returned := r.effectivePayload.returned }

/-! ## Section 4: Agreement -/

/-- At this depth the counted computation does what the other one does, and the counter is
    afterwards what it was before. -/
def Agrees (depth : Nat) (x : Counted α) (y : Exec α) : Prop := x depth = lift y depth

variable {breach : Site → Exec Unit} {depth : Nat}

theorem Agrees.lift (x : Exec α) : Agrees depth (lift x) x := rfl

theorem Agrees.pure (a : α) : Agrees depth (Pure.pure a) (Pure.pure a) := rfl

/-- What follows a computation may forget the counter. -/
theorem lift_bind (x : Exec α) (depth : Nat) (k : Except GraphError α → Exec β) :
    (do let (result, _) ← lift x depth; k result : Exec β) = x.attempt >>= k :=
  funext fun s => Process.bind_assoc (x s).attempt _ _

theorem Agrees.bind {x : Counted α} {y : Exec α} {f : α → Counted β} {g : α → Exec β}
    (hx : Agrees depth x y) (hf : ∀ a, Agrees depth (f a) (g a)) :
    Agrees depth (x >>= f) (y >>= g) := by
  funext s
  show (x depth s).bind _ = ((y s).bind g).counted depth
  rw [hx]
  apply Process.counted_bind
  · exact fun a t => congrFun (hf a) t
  · exact fun e t => rfl

theorem Agrees.attempt {x : Counted α} {y : Exec α} (hx : Agrees depth x y) :
    Agrees depth (attempt x) y.attempt := by
  funext s
  show (x depth s).bind _ = (y s).attempt.counted depth
  rw [hx, ← (y s).attempt.bind_done]
  exact Process.counted_after _ _ _ fun result t => rfl

theorem Agrees.forEach (xs : List β) {f : β → Counted Unit} {g : β → Exec Unit}
    (hf : ∀ x, Agrees depth (f x) (g x)) : Agrees depth (forEach xs f) (Exec.forEach xs g) := by
  induction xs with
  | nil => exact .pure ()
  | cons x rest ih => exact (hf x).bind fun _ => ih

/-- What is looked at is known to be a part of a store. -/
theorem Agrees.look (f : Store → Except GraphError β) {k : β → Counted α} {k' : β → Exec α}
    (hk : ∀ s b, f s = .ok b → Agrees depth (k b) (k' b)) :
    Agrees depth (Counted.lift (do Exec.ofResult (← Exec.view f)) >>= k)
      (do k' (← Exec.ofResult (← Exec.view f))) := by
  funext s
  show (Process.counted depth (Exec.ofResult (f s.store) s)).bind _
    = Process.counted depth ((Exec.ofResult (f s.store) s).bind k')
  cases hf : f s.store with
  | ok b => exact congrFun (hk s.store b hf) s
  | error e => rfl

theorem Agrees.limited {site : Site} {x : Counted α} {y : Exec α}
    (hx : depth < site.maxDepth → Agrees depth x y) :
    Agrees depth (limited site x)
      (if site.maxDepth ≤ depth then Exec.fail (.forwardDepthExceeded site.maxDepth) else y) := by
  unfold Agrees Counted.limited
  by_cases hdepth : site.maxDepth ≤ depth
  · rw [if_pos hdepth, if_pos hdepth]
    rfl
  · rw [if_neg hdepth, if_neg hdepth]
    exact hx (by omega)

/-- One level deeper the counter stands one higher, and it comes back. -/
theorem Agrees.enclosed (part : DispatchState → β) (restore : β → DispatchState → DispatchState)
    {back : Nat → Nat → Nat} (hback : back depth (depth + 1) = depth) {x : Counted α}
    {y : Exec α} (hx : Agrees (depth + 1) x y) :
    Agrees depth (enclosed part restore back x) (Site.enclosed part restore y) := by
  funext s
  show (x (depth + 1) s).bind _ = ((y s).attempt.bind _).counted depth
  rw [hx]
  apply Process.counted_after
  intro result t
  -- inside the counter is put back too, so it ends one above the own one
  show Process.done (.ok (result, back depth (depth + 1))) (restore (part s) t) = _
  rw [hback]
  cases result with
  | ok a => rfl
  | error e => rfl

/-- Wherever the computation ends, the counter is what it was before. -/
def Restores (depth : Nat) (x : Counted α) : Prop :=
  ∀ s answers result t, (x depth s).resumed answers = .done result t →
    ∃ ended, result = .ok (ended, depth)

theorem Agrees.restores {x : Counted α} {y : Exec α} (hx : Agrees depth x y) :
    x.Restores depth := by
  intro s answers result t h
  rw [hx] at h
  change ((y s).counted depth).resumed answers = .done result t at h
  rw [Process.counted_resumed] at h
  cases hend : (y s).resumed answers with
  | done ended u =>
    rw [hend] at h
    cases h
    exact ⟨ended, rfl⟩
  | waiting key u resume =>
    rw [hend] at h
    cases h
  | exhausted u =>
    rw [hend] at h
    cases h

/-! ## Section 5: Chains of the library -/

/-- Up to the limit the counted chains of nodes of the library do what the chains do. -/
def ChainAgrees (limit : Nat) (chain : CountedChain) (chain' : Chain) : Prop :=
  ∀ (frame : Frame) h depth, frame.engine.config.maxForwardDepth = limit →
    frame.All Network.OfLibrary → depth ≤ limit →
    Agrees depth (chain frame h) (chain' (frame.atDepth depth) h)

section Library

variable {limit : Nat} {chain : CountedChain} {chain' : Chain}
  (hchain : ChainAgrees limit chain chain') {site : Site}
  (hlimit : site.maxDepth = limit) (hsite : site.frame.All Network.OfLibrary)

include hchain hlimit hsite

theorem forward_agrees (entry : NodeHandle) :
    Agrees depth (forward chain site entry) ((site.atDepth depth).forward chain' entry) := by
  apply Agrees.limited
  intro hdepth
  apply Agrees.enclosed _ _ rfl
  exact hchain site.frame entry (depth + 1) hlimit hsite (by omega)

theorem forwardPort_agrees (name : String) (index : Nat) :
    Agrees depth (forwardPort chain site name index)
      ((site.atDepth depth).forwardPort chain' name index) := by
  have hsuccessor : (site.atDepth depth).successor name index = site.successor name index := rfl
  unfold forwardPort Site.forwardPort
  rw [hsuccessor]
  cases site.successor name index with
  | none => exact .pure ()
  | some start => exact forward_agrees hchain hlimit hsite start

theorem loop_agrees (count : Nat) (index : Int) :
    Agrees depth (loop chain site count index)
      ((site.atDepth depth).loop chain' count index) := by
  induction count generalizing index with
  | zero => exact .pure ()
  | succ count ih =>
    apply Agrees.bind (.lift _)
    intro _
    apply Agrees.bind (forwardPort_agrees hchain hlimit hsite "body" 0)
    intro _
    exact ih (index + 1)

/-- The callee has a counter of its own, one above that of the caller. -/
theorem call_agrees (name : String) (arguments : List Value) :
    Agrees depth (call chain site name arguments)
      ((site.atDepth depth).call chain' name arguments) := by
  rw [Site.call_eq]
  apply Agrees.look (site.found name)
  intro s callee hfound
  obtain ⟨g, entry⟩ := callee
  apply Agrees.limited
  intro hdepth
  apply Agrees.enclosed _ _ rfl
  apply Agrees.bind (.lift _)
  intro _
  have hall : g.All Network.OfLibrary :=
    hsite.function? name g (site.function?_of_found name s g entry hfound)
  have hcallee := hchain (site.callFrame g ⟨name, arguments⟩) entry (depth + 1) hlimit
    ⟨hall, hsite.library⟩ (by omega)
  exact hcallee.bind fun _ => .lift _

/-- A node sees the counter as its depth. -/
theorem execute_agrees (b : Behavior) (hb : b.isBuiltin = true) :
    Agrees depth (execute chain site b) ((site.atDepth depth).execute chain' b) := by
  have hplain : ∀ b : Behavior, b.startsChains = false →
      Agrees depth (fun depth => lift ((site.atDepth depth).execute (fun _ _ => pure ()) b) depth)
        ((site.atDepth depth).execute chain' b) := by
    intro b hb
    rw [Site.execute_plain chain' (fun _ _ => pure ()) (site.atDepth depth) b hb]
    rfl
  cases b with
  | sequence =>
    exact .forEach _ fun index => forwardPort_agrees hchain hlimit hsite "then" index
  | forLoop =>
    apply Agrees.bind (.lift _)
    intro first
    apply Agrees.bind (.lift _)
    intro last
    exact (loop_agrees hchain hlimit hsite _ _).bind fun _ => .lift _
  | invokeFunction name =>
    apply Agrees.bind (.lift _)
    intro arguments
    apply Agrees.bind (call_agrees hchain hlimit hsite name arguments)
    intro result
    exact Agrees.bind (.lift _) fun _ => .lift _
  | script script => cases hb
  | _ => exact hplain _ rfl

end Library

variable {limit : Nat} {chain : CountedChain} {chain' : Chain}
  (hchain : ChainAgrees limit chain chain') {frame : Frame}
  (hlimit : frame.engine.config.maxForwardDepth = limit) (hframe : frame.All Network.OfLibrary)
  (hdepth : depth ≤ limit)

include hchain hlimit hframe hdepth

/-- Up to the limit nodes run themselves. -/
theorem invoke_agrees (h : NodeHandle) :
    Agrees depth (invoke breach chain frame h) ((frame.atDepth depth).invoke chain' h) := by
  have hnode : (frame.atDepth depth).graph.node? h = frame.graph.node? h := rfl
  unfold invoke Frame.invoke
  rw [hnode]
  cases hx : frame.graph.node? h with
  | none => exact .lift _
  | some x =>
    have hbuiltin := (hframe.graph.network h x hx).1
    have hexecute : Agrees depth
        (guarded breach ⟨frame, h⟩ (execute chain ⟨frame, h⟩ x.behavior))
        ((Site.mk (frame.atDepth depth) h).execute chain' x.behavior) := by
      -- `breach` has no turn
      have hmax : (Site.mk frame h).maxDepth = limit := hlimit
      have hseen : ¬ (Site.mk frame h).maxDepth < depth := by omega
      unfold Agrees guarded
      rw [if_neg hseen]
      exact execute_agrees hchain hmax hframe x.behavior hbuiltin
    apply Agrees.bind (.lift _)
    intro _
    apply Agrees.bind (.lift _)
    intro _
    apply Agrees.bind (.lift _)
    intro _
    exact hexecute.attempt.bind fun _ => .lift _

theorem runNode_agrees (h : NodeHandle) :
    Agrees depth (runNode breach chain frame h) ((frame.atDepth depth).runNode chain' h) := by
  have hinvoke : ∀ k, Agrees depth (invoke breach chain frame k)
      ((frame.atDepth depth).invoke chain' k) := invoke_agrees hchain hlimit hframe hdepth
  apply Agrees.bind (.lift _)
  intro _
  apply Agrees.bind (.lift _)
  intro path
  apply Agrees.bind (.forEach path hinvoke)
  intro _
  apply Agrees.bind (.lift _)
  intro _
  apply Agrees.bind (hinvoke h)
  intro _
  apply Agrees.bind (.lift _)
  intro next
  exact Agrees.bind (.lift _) fun _ => .pure next

omit hchain hlimit hframe hdepth in
theorem runChain_agrees (fuel : Nat) :
    ChainAgrees limit (runChain breach fuel) (Frame.runChain fuel) := by
  -- for all frames and depths at once, as a call changes both
  induction fuel with
  | zero => exact fun frame h depth _ _ _ => rfl
  | succ fuel ih =>
    intro frame h depth hlimit hframe hdepth
    apply Agrees.bind (runNode_agrees ih hlimit hframe hdepth h)
    intro next
    cases next with
    | none => exact .pure ()
    | some k => exact ih frame k depth hlimit hframe hdepth

omit hchain hlimit hframe hdepth in
/-- A counted dispatch of nodes of the library is the dispatch. -/
theorem start_eq (breach : Site → Exec Unit) (fuel : Nat) (engine : Engine) (g : Graph)
    (r : DispatchRequest) (s : Store) (hnodes : g.All Network.OfLibrary)
    (hlibrary : ∀ f ∈ engine.library, f.2.All Network.OfLibrary) :
    start breach fuel engine g r s = Dispatch.start fuel engine g r s := by
  have hrun : ∀ entry, run breach fuel (Dispatch.frameOf engine g r s) entry
      = Dispatch.run fuel (Dispatch.frameOf engine g r s) entry := by
    intro entry
    have hchain : runChain breach fuel (Dispatch.frameOf engine g r s) entry 0
        = lift (Frame.runChain fuel (Dispatch.frameOf engine g r s) entry) 0 :=
      runChain_agrees fuel _ entry 0 rfl ⟨hnodes, hlibrary⟩ (Nat.zero_le _)
    unfold run Dispatch.run
    rw [hchain]
    dsimp only
    congr 1
    funext _
    exact lift_bind _ 0 _
  unfold start Dispatch.start
  split
  · rfl
  · cases r.entry.find? g.toNetwork with
    | none => rfl
    | some entry => exact congrFun (hrun entry) _

end Counted

/-! ## Section 6: Dispatches -/

namespace Site

/-- At the limit no sub-execution starts. -/
theorem forward_at_limit (chain : Chain) (site : Site) (hdepth : site.maxDepth ≤ site.frame.depth)
    (entry : NodeHandle) (s : DispatchState) :
    site.forward chain entry s = .done (.error (.forwardDepthExceeded site.maxDepth)) s := by
  unfold forward
  rw [if_pos hdepth]
  rfl

/-- At the limit no callee starts. -/
theorem call_at_limit (chain : Chain) (site : Site) (hdepth : site.maxDepth ≤ site.frame.depth)
    (name : String) (arguments : List Value) (s : DispatchState) (callee : Graph × NodeHandle)
    (hfound : site.found name s.store = .ok callee) :
    site.call chain name arguments s
      = .done (.error (.forwardDepthExceeded site.maxDepth)) s := by
  simp only [call_eq, if_pos hdepth]
  show (Exec.ofResult (site.found name s.store) >>= _ : Exec Value) s = _
  rw [hfound]
  rfl

end Site

namespace Dispatch

/-- A dispatch that completes does the same with more fuel and any limit on nesting that is no
    lower. -/
theorem complete_mono {fuel fuel' limit limit' : Nat} (hfuel : fuel ≤ fuel')
    (hle : limit ≤ limit') (engine : Engine) (g : Graph) (r : DispatchRequest) (s : Store)
    (hnodes : g.All Network.OfLibrary)
    (hlibrary : ∀ f ∈ engine.library, f.2.All Network.OfLibrary) (answers : List Answer)
    (outcome : DispatchOutcome) (t : DispatchState)
    (h : (start fuel (engine.withDepth limit) g r s).resumed answers = .done (.ok outcome) t) :
    (start fuel' (engine.withDepth limit') g r s).resumed answers = .done (.ok outcome) t := by
  have hwidens : (start fuel (engine.withDepth limit) g r s).Widens (fun _ => True)
      (start fuel' (engine.withDepth limit') g r s) :=
    start_widens hle (fun _ => trivial) hfuel engine g r s hnodes hlibrary
  exact (hwidens.resumed answers).eq_of_ok outcome t h

/-- **Main theorem: nesting is bounded.**  In a dispatch of nodes of the library no node sees
    more than the limit on nesting: whatever it would do there, the dispatch is the same.  At
    the limit sub-executions and calls fail and leave everything as it was, and wherever a
    sub-execution or a call ends, also with an error, the depth is what it was before.  A
    dispatch that completes does the same with each higher limit, and with any other limit
    with which it completes. -/
theorem nesting_bounded (fuel : Nat) (engine : Engine) (g : Graph) (r : DispatchRequest)
    (s : Store) (hnodes : g.All Network.OfLibrary)
    (hlibrary : ∀ f ∈ engine.library, f.2.All Network.OfLibrary) :
    let limit := engine.config.maxForwardDepth
    (∀ breach, Counted.start breach fuel engine g r s = start fuel engine g r s) ∧
    (∀ (chain : Chain) (site : Site) (t : DispatchState),
      site.maxDepth = limit → site.frame.depth = limit →
      (∀ entry, site.forward chain entry t = .done (.error (.forwardDepthExceeded limit)) t) ∧
      ∀ name arguments callee, site.found name t.store = .ok callee →
        site.call chain name arguments t = .done (.error (.forwardDepthExceeded limit)) t) ∧
    (∀ (breach : Site → Exec Unit) (site : Site) (depth : Nat),
      site.maxDepth = limit → site.frame.All Network.OfLibrary →
      (∀ entry, (Counted.forward (Counted.runChain breach fuel) site entry).Restores depth) ∧
      ∀ name arguments,
        (Counted.call (Counted.runChain breach fuel) site name arguments).Restores depth) ∧
    ∀ answers outcome t, (start fuel engine g r s).resumed answers = .done (.ok outcome) t →
      ∀ fuel' limit',
        (limit ≤ limit' → fuel ≤ fuel' →
          (start fuel' (engine.withDepth limit') g r s).resumed answers
            = .done (.ok outcome) t) ∧
        ∀ outcome' t',
          (start fuel' (engine.withDepth limit') g r s).resumed answers
            = .done (.ok outcome') t' → outcome' = outcome ∧ t' = t := by
  intro limit
  refine ⟨?_, ?_, ?_, ?_⟩
  · intro breach
    exact Counted.start_eq breach fuel engine g r s hnodes hlibrary
  · intro chain site t hmax hdepth
    have hle : site.maxDepth ≤ site.frame.depth := by omega
    rw [← hmax]
    constructor
    · intro entry
      exact site.forward_at_limit chain hle entry t
    · intro name arguments callee hfound
      exact site.call_at_limit chain hle name arguments t callee hfound
  · intro breach site depth hmax hsite
    have hchain : Counted.ChainAgrees limit (Counted.runChain breach fuel)
        (Frame.runChain fuel) := Counted.runChain_agrees fuel
    constructor
    · intro entry
      exact (Counted.forward_agrees hchain hmax hsite entry).restores
    · intro name arguments
      exact (Counted.call_agrees hchain hmax hsite name arguments).restores
  · intro answers outcome t h fuel' limit'
    have hmono := fun {fuel fuel' limit limit' : Nat} (hfuel : fuel ≤ fuel')
      (hle : limit ≤ limit') => complete_mono hfuel hle engine g r s hnodes hlibrary answers
    constructor
    · intro hle hfuel
      exact hmono hfuel hle outcome t h
    · intro outcome' t' h'
      -- both are what happens with the more generous of the two limits and fuels
      have hwide := hmono (Nat.le_max_left fuel fuel') (Nat.le_max_left limit limit') outcome t h
      have hwide' := hmono (Nat.le_max_right fuel fuel') (Nat.le_max_right limit limit')
        outcome' t' h'
      rw [hwide] at hwide'
      cases hwide'
      exact ⟨rfl, rfl⟩

/-- A call in a sequence takes two levels: with one its callee does not start, and with more
    than two nothing changes. -/
theorem nesting_bounded_greeting :
    let g := greetingState.1
    let s := greetingState.2
    let r : DispatchRequest := { entry := .event "go" }
    let engine : Engine := { config := { maxForwardDepth := 2 } }
    (∀ breach, Counted.start breach 10 engine g r s = start 10 engine g r s) ∧
    (start 10 (engine.withDepth 1) g r s).state.trace = #["go", "each", "text", "say", "call"] ∧
    ∃ outcome t, outcome.trace = ["go", "each", "text", "say", "call", "asked"] ∧
      ∀ limit', 2 ≤ limit' →
        (start 10 (engine.withDepth limit') g r s).resumed [] = .done (.ok outcome) t := by
  intro g s r engine
  have hnodes : g.All Network.OfLibrary := (Graph.built_ofLibrary greeting .standard default).2
  obtain ⟨hsame, _, _, hmono⟩ :=
    nesting_bounded 10 engine g r s hnodes (List.forall_mem_nil _)
  refine ⟨hsame, by decide +kernel, ?_⟩
  have hresult : ((start 10 engine g r s).result?.bind Except.toOption).map (·.trace)
      = some ["go", "each", "text", "say", "call", "asked"] := by decide +kernel
  obtain ⟨outcome, hbind, htrace⟩ := Option.map_eq_some_iff.mp hresult
  obtain ⟨result, hdone, hok⟩ := Option.bind_eq_some_iff.mp hbind
  cases result with
  | error e => cases hok
  | ok o =>
    cases hok
    obtain ⟨t, hend⟩ := (start 10 engine g r s).eq_done_of_result? _ hdone
    refine ⟨outcome, t, htrace, ?_⟩
    intro limit' hle
    have hanswered : (start 10 engine g r s).resumed [] = .done (.ok outcome) t := by
      rw [hend]
      rfl
    exact (hmono [] outcome t hanswered 10 limit').1 hle le_rfl

end Dispatch
end FlowGraph
