import FlowGraph.Proofs.Dispatch.Answers
import FlowGraph.Proofs.Dispatch.Reach

/-! # Dispatches with more room

    Fuel and the limit on nesting only say how far a dispatch may go.  With more fuel, or a
    higher limit, a dispatch of nodes of the library does the same, except that it may go on
    where it was cut off or failed for the limit (`Dispatch.start_widens`).

    `Process.Widens` relates the two processes.  No node of the library goes on after an error
    of a chain that it runs, so an error is passed on to the end without further steps that
    could differ (`Widens.after`). -/

namespace FlowGraph

variable {α β : Type}

/-! ## Section 1: Processes -/

namespace Process

/-- The second process is the first one, except that it may go on in any way where the first one
    is cut off, or fails with one of the errors that are given up for. -/
inductive Widens (given : GraphError → Prop) : Process α → Process α → Prop where
  | done (result : Except GraphError α) (s : DispatchState) :
      Widens given (.done result s) (.done result s)
  | waiting (key : WaitKey) (s : DispatchState)
      (resume resume' : Except GraphError Unit → Store → Process α)
      (hrest : ∀ result store, Widens given (resume result store) (resume' result store)) :
      Widens given (.waiting key s resume) (.waiting key s resume')
  | cutOff (s : DispatchState) (q : Process α) : Widens given (.exhausted s) q
  | gaveUp (e : GraphError) (s : DispatchState) (he : given e) (q : Process α) :
      Widens given (.done (.error e) s) q

variable {given : GraphError → Prop}

theorem Widens.refl (p : Process α) : p.Widens given p := by
  induction p with
  | done result s => exact .done result s
  | waiting key s resume ih => exact .waiting key s resume resume ih
  | exhausted s => exact .cutOff s _

theorem Widens.bind {p q : Process α} {f g : α → DispatchState → Process β} (h : p.Widens given q)
    (hf : ∀ a s, (f a s).Widens given (g a s)) : (p.bind f).Widens given (q.bind g) := by
  induction h with
  | done result s =>
    cases result with
    | ok a => exact hf a s
    | error e => exact .done _ s
  | waiting key s resume resume' _ ih => exact .waiting key s _ _ ih
  | cutOff s q => exact .cutOff s _
  | gaveUp e s he q => exact .gaveUp e s he _

/-- Steps that follow whichever way the first ones end pass on the errors to be given up for. -/
theorem Widens.after {p q : Process α} {f g : Except GraphError α → DispatchState → Process β}
    (h : p.Widens given q) (hf : ∀ result s, (f result s).Widens given (g result s))
    (hpass : ∀ e s, ∃ t, f (.error e) s = .done (.error e) t) :
    (p.attempt.bind f).Widens given (q.attempt.bind g) := by
  induction h with
  | done result s => exact hf result s
  | waiting key s resume resume' _ ih => exact .waiting key s _ _ ih
  | cutOff s q => exact .cutOff s _
  | gaveUp e s he q =>
    obtain ⟨t, ht⟩ := hpass e s
    show (f (.error e) s).Widens given _
    rw [ht]
    exact .gaveUp e t he _

/-- The answers to waits keep the relation. -/
theorem Widens.resumed {p q : Process α} (h : p.Widens given q) (answers : List Answer) :
    (p.resumed answers).Widens given (q.resumed answers) := by
  induction h generalizing answers with
  | done result s => exact .done result s
  | waiting key s resume resume' hrest ih =>
    cases answers with
    | nil => exact .waiting key s resume resume' hrest
    | cons answer rest => exact ih answer.1 answer.2 rest
  | cutOff s q => exact .cutOff s _
  | gaveUp e s he q => exact .gaveUp e s he _

/-- A process that returns has enough room. -/
theorem Widens.eq_of_ok {p q : Process α} (h : p.Widens given q) (a : α) (s : DispatchState)
    (hp : p = .done (.ok a) s) : q = .done (.ok a) s := by
  cases h with
  | done result t => exact hp
  | waiting key t resume resume' hrest => cases hp
  | cutOff t q => cases hp
  | gaveUp e t he q => cases hp

/-- So has a process that is never cut off, if nothing is given up for. -/
theorem Widens.eq_of_uncut {p q : Process α} (h : p.Widens (fun _ => False) q)
    (hp : ∀ answers s, p.resumed answers ≠ .exhausted s) : p = q := by
  induction h with
  | done result s => rfl
  | waiting key s resume resume' _ ih =>
    have hsame : resume = resume' := by
      funext result store
      apply ih result store
      intro answers t hcut
      exact hp ((result, store) :: answers) t hcut
    rw [hsame]
  | cutOff s q => exact absurd rfl (hp [] s)
  | gaveUp e s he q => exact absurd he id

end Process

/-! ## Section 2: Steps -/

namespace Exec

/-- From every state the second computation is the first one with more room. -/
def Widens (given : GraphError → Prop) (x y : Exec α) : Prop := ∀ s, (x s).Widens given (y s)

variable {given : GraphError → Prop}

theorem Widens.refl (x : Exec α) : Widens given x x := fun s => .refl (x s)

theorem Widens.bind {x y : Exec α} {f g : α → Exec β} (hx : Widens given x y)
    (hf : ∀ a, Widens given (f a) (g a)) : Widens given (x >>= f) (y >>= g) :=
  fun s => (hx s).bind fun a t => hf a t

theorem Widens.after {x y : Exec α} {f g : Except GraphError α → Exec β} (hx : Widens given x y)
    (hf : ∀ result, Widens given (f result) (g result))
    (hpass : ∀ e s, ∃ t, f (.error e) s = .done (.error e) t) :
    Widens given (x.attempt >>= f) (y.attempt >>= g) :=
  fun s => (hx s).after (fun result t => hf result t) hpass

theorem Widens.forEach (xs : List β) {f g : β → Exec Unit} (hf : ∀ x, Widens given (f x) (g x)) :
    Widens given (Exec.forEach xs f) (Exec.forEach xs g) := by
  induction xs with
  | nil => exact .refl _
  | cons x rest ih => exact (hf x).bind fun _ => ih

/-- What is looked at is known to be a part of a store. -/
theorem Widens.look (f : Store → Except GraphError β) {k k' : β → Exec α}
    (hk : ∀ s b, f s = .ok b → Widens given (k b) (k' b)) :
    Widens given (do k (← Exec.ofResult (← Exec.view f)))
      (do k' (← Exec.ofResult (← Exec.view f))) := by
  intro s
  show Process.Widens given ((Exec.ofResult (f s.store) s).bind k)
    ((Exec.ofResult (f s.store) s).bind k')
  cases hf : f s.store with
  | ok b => exact hk s.store b hf s
  | error e => exact .refl _

theorem Widens.enclosed (part : DispatchState → β) (restore : β → DispatchState → DispatchState)
    {x y : Exec α} (hx : Widens given x y) :
    Widens given (Site.enclosed part restore x) (Site.enclosed part restore y) := by
  apply Widens.bind (.refl _)
  intro kept
  apply hx.after (fun result => .refl _)
  intro e s
  exact ⟨restore kept s, rfl⟩

end Exec

/-! ## Section 3: Nodes -/

/-- The engine with another limit on nesting. -/
def Engine.withDepth (limit : Nat) (e : Engine) : Engine :=
  { e with config := { e.config with maxForwardDepth := limit } }

/-- The frame with such an engine. -/
def Frame.withDepth (limit : Nat) (frame : Frame) : Frame :=
  { frame with engine := frame.engine.withDepth limit }

namespace Site

/-- A function that is there, is compiled and has its entry, at whatever depth. -/
def found (site : Site) (name : String) (s : Store) : Except GraphError (Graph × NodeHandle) :=
  match site.function? name with
  | none => .error (.unknownFunction name)
  | some g =>
    if !g.isRunnable s then .error (.notCompiled g.name)
    else
      match g.findEntry name with
      | none => .error (.unknownEntry ("function '" ++ name ++ "'"))
      | some entry => .ok (g, entry)

/-- A function that was found is called unless the limit on nesting is reached. -/
theorem callee_eq_found (site : Site) (name : String) (s : Store) :
    site.callee name s = (site.found name s).bind fun callee =>
      if site.maxDepth ≤ site.frame.depth then .error (.forwardDepthExceeded site.maxDepth)
      else .ok callee := by
  unfold callee found
  cases site.function? name with
  | none => rfl
  | some g =>
    by_cases hrunnable : (!g.isRunnable s) = true
    · simp [hrunnable, Except.bind]
    · simp only [hrunnable]
      cases g.findEntry name <;> rfl

theorem call_eq (chain : Chain) (site : Site) (name : String) (arguments : List Value) :
    site.call chain name arguments = (do
      let (g, entry) ← Exec.ofResult (← Exec.view (site.found name))
      if site.maxDepth ≤ site.frame.depth then Exec.fail (.forwardDepthExceeded site.maxDepth)
      else
        enclosed callerPart restoreCaller
          (activation chain (site.callFrame g ⟨name, arguments⟩) entry)) := by
  funext s
  show (Exec.ofResult (site.callee name s.store) >>= _ : Exec Value) s
    = (Exec.ofResult (site.found name s.store) >>= _ : Exec Value) s
  rw [callee_eq_found]
  cases site.found name s.store with
  | error e => rfl
  | ok callee =>
    dsimp only [Except.bind]
    split
    · rfl
    · rfl

theorem function?_of_found (site : Site) (name : String) (s : Store) (g : Graph)
    (entry : NodeHandle) (h : site.found name s = .ok (g, entry)) :
    site.function? name = some g := by
  unfold found at h
  cases hfunction : site.function? name with
  | none => simp [hfunction] at h
  | some f =>
    by_cases hrunnable : (!f.isRunnable s) = true
    · simp [hfunction, hrunnable] at h
    · cases hentry : f.findEntry name with
      | none => simp [hfunction, hrunnable, hentry] at h
      | some start =>
        simp only [hfunction, hrunnable, hentry] at h
        cases h
        rfl

end Site

section Nesting

variable {limit limit' : Nat} (hle : limit ≤ limit') {given : GraphError → Prop}
  (hgiven : limit < limit' → given (.forwardDepthExceeded limit))

/-- Chains of nodes of the library, with less room and with more. -/
def ChainWidens (given : GraphError → Prop) (limit limit' : Nat) (chain chain' : Chain) : Prop :=
  ∀ (frame : Frame) h, frame.All Network.OfLibrary →
    Exec.Widens given (chain (frame.withDepth limit) h) (chain' (frame.withDepth limit') h)

variable {chain chain' : Chain} (hchain : ChainWidens given limit limit' chain chain')
  {frame : Frame} (hframe : frame.All Network.OfLibrary) (h : NodeHandle)

include hle hgiven

/-- Where the lower limit is reached, the higher one is reached too, or the first process fails
    with an error that is given up for. -/
theorem limited_widens (depth : Nat) {x y : Exec α} (h : depth < limit → Exec.Widens given x y) :
    Exec.Widens given
      (if limit ≤ depth then Exec.fail (.forwardDepthExceeded limit) else x)
      (if limit' ≤ depth then Exec.fail (.forwardDepthExceeded limit') else y) := by
  by_cases hdepth : limit ≤ depth
  · rw [if_pos hdepth]
    rcases Nat.eq_or_lt_of_le hle with heq | hlt
    · subst heq
      rw [if_pos hdepth]
      exact .refl _
    · exact fun s => .gaveUp _ s (hgiven hlt) _
  · have hdepth' : ¬ limit' ≤ depth := by omega
    rw [if_neg hdepth, if_neg hdepth']
    exact h (by omega)

include hchain hframe

namespace Site

theorem forwardPort_widens (name : String) (index : Nat) :
    Exec.Widens given ((Site.mk (frame.withDepth limit) h).forwardPort chain name index)
      ((Site.mk (frame.withDepth limit') h).forwardPort chain' name index) := by
  have hsuccessor : (Site.mk (frame.withDepth limit) h).successor name index
      = (Site.mk (frame.withDepth limit') h).successor name index := rfl
  unfold forwardPort
  rw [hsuccessor]
  cases (Site.mk (frame.withDepth limit') h).successor name index with
  | none => exact .refl _
  | some start =>
    apply limited_widens hle hgiven frame.depth
    intro _
    exact .enclosed _ _ (hchain (Site.mk frame h).inner start ⟨hframe.graph, hframe.library⟩)

theorem loop_widens (count : Nat) (index : Int) :
    Exec.Widens given ((Site.mk (frame.withDepth limit) h).loop chain count index)
      ((Site.mk (frame.withDepth limit') h).loop chain' count index) := by
  induction count generalizing index with
  | zero => exact .refl _
  | succ count ih =>
    apply Exec.Widens.bind (.refl _)
    intro _
    apply Exec.Widens.bind (forwardPort_widens hle hgiven hchain hframe h "body" 0)
    intro _
    exact ih (index + 1)

/-- The callee runs in both, unless the first process fails for its limit. -/
theorem call_widens (name : String) (arguments : List Value) :
    Exec.Widens given ((Site.mk (frame.withDepth limit) h).call chain name arguments)
      ((Site.mk (frame.withDepth limit') h).call chain' name arguments) := by
  rw [call_eq, call_eq]
  apply Exec.Widens.look
  intro s callee hfound
  obtain ⟨g, entry⟩ := callee
  apply limited_widens hle hgiven frame.depth
  intro _
  have hall : g.All Network.OfLibrary :=
    @Frame.All.function? _ ⟨frame, h⟩ hframe name g (function?_of_found _ _ _ _ _ hfound)
  have hcallee := hchain ((Site.mk frame h).callFrame g ⟨name, arguments⟩) entry
    ⟨hall, hframe.library⟩
  apply Exec.Widens.enclosed
  apply Exec.Widens.bind (.refl _)
  intro _
  exact hcallee.bind fun _ => .refl _

/-- A node only passes its limit on to the chains that it runs. -/
theorem execute_widens (b : Behavior) (hb : b.isBuiltin = true) :
    Exec.Widens given ((Site.mk (frame.withDepth limit) h).execute chain b)
      ((Site.mk (frame.withDepth limit') h).execute chain' b) := by
  cases b with
  | sequence =>
    exact .forEach _ fun index => forwardPort_widens hle hgiven hchain hframe h "then" index
  | forLoop =>
    apply Exec.Widens.bind (.refl _)
    intro first
    apply Exec.Widens.bind (.refl _)
    intro last
    apply Exec.Widens.bind (loop_widens hle hgiven hchain hframe h _ _)
    exact fun _ => .refl _
  | invokeFunction name =>
    apply Exec.Widens.bind (.refl _)
    intro arguments
    apply Exec.Widens.bind (call_widens hle hgiven hchain hframe h name arguments)
    exact fun _ => .refl _
  | script script => cases hb
  | _ => exact .refl _

end Site

/-! ## Section 4: Chains -/

namespace Frame

theorem invoke_widens :
    Exec.Widens given ((frame.withDepth limit).invoke chain h)
      ((frame.withDepth limit').invoke chain' h) := by
  have hnode : (frame.withDepth limit).graph.node? h = frame.graph.node? h := rfl
  have hnode' : (frame.withDepth limit').graph.node? h = frame.graph.node? h := rfl
  unfold invoke
  rw [hnode, hnode']
  cases hx : frame.graph.node? h with
  | none => exact .refl _
  | some x =>
    have hbuiltin := (hframe.graph.network h x hx).1
    have hexecute := Site.execute_widens hle hgiven hchain hframe h x.behavior hbuiltin
    apply Exec.Widens.bind (.refl _)
    intro _
    apply Exec.Widens.bind (.refl _)
    intro _
    apply Exec.Widens.bind (.refl _)
    intro _
    apply hexecute.after (fun result => .refl _)
    intro e s
    exact ⟨_, rfl⟩

theorem runNode_widens :
    Exec.Widens given ((frame.withDepth limit).runNode chain h)
      ((frame.withDepth limit').runNode chain' h) := by
  have hinvoke := invoke_widens hle hgiven hchain hframe
  apply Exec.Widens.bind (.refl _)
  intro _
  apply Exec.Widens.bind (.refl _)
  intro path
  apply Exec.Widens.bind (.forEach path hinvoke)
  intro _
  apply Exec.Widens.bind (.refl _)
  intro _
  apply Exec.Widens.bind (hinvoke h)
  exact fun _ => .refl _

omit hchain hframe in
/-- More fuel is more room, too. -/
theorem runChain_widens {fuel fuel' : Nat} (hfuel : fuel ≤ fuel') :
    ChainWidens given limit limit' (runChain fuel) (runChain fuel') := by
  -- on the smaller fuel; with none the first chain is cut off
  induction fuel generalizing fuel' with
  | zero => exact fun frame h _ s => .cutOff s _
  | succ fuel ih =>
    intro frame h hframe
    obtain ⟨more, rfl⟩ : ∃ more, fuel' = more + 1 := ⟨fuel' - 1, by omega⟩
    have hchain := ih (Nat.le_of_succ_le_succ hfuel)
    apply Exec.Widens.bind (runNode_widens hle hgiven hchain hframe h)
    intro next
    cases next with
    | none => exact .refl _
    | some k => exact hchain frame k hframe

end Frame

/-! ## Section 5: Dispatches -/

namespace Dispatch

omit hchain hframe in
/-- A dispatch with more fuel and a limit on nesting that is no lower. -/
theorem start_widens {fuel fuel' : Nat} (hfuel : fuel ≤ fuel') (engine : Engine) (g : Graph)
    (r : DispatchRequest) (s : Store) (hnodes : g.All Network.OfLibrary)
    (hlibrary : ∀ f ∈ engine.library, f.2.All Network.OfLibrary) :
    (start fuel (engine.withDepth limit) g r s).Widens given
      (start fuel' (engine.withDepth limit') g r s) := by
  unfold start
  split
  · exact .refl _
  · cases r.entry.find? g.toNetwork with
    | none => exact .refl _
    | some entry =>
      let frame := frameOf engine g r s
      have hchain := Frame.runChain_widens hle hgiven hfuel frame entry ⟨hnodes, hlibrary⟩
      have hrun : Exec.Widens given (run fuel (frame.withDepth limit) entry)
          (run fuel' (frame.withDepth limit') entry) := by
        apply Exec.Widens.bind (.refl _)
        intro _
        apply hchain.after (fun result => .refl _)
        intro e t
        exact ⟨_, rfl⟩
      exact hrun _

end Dispatch
end Nesting
end FlowGraph
