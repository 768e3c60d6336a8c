import FlowGraph.Proofs.Dispatch.Reach

/-! # How calls are resolved

    A node names the function that it calls, and which function that is depends on the graph
    and on the library.  Nothing else in a dispatch looks at either.  So two graphs of the same
    network run alike if the calls in both resolve to functions that are such graphs again
    (`Dispatch.start_twins`). -/

namespace FlowGraph

/-! ## Section 1: Calls of a graph -/

/-- Whether an instruction calls the function of a name. -/
def Instruction.Invokes (name : String) : Instruction → Prop
  | .invoke f _ _ => f = name
  | .attempt f => f = name
  | _ => False

/-- Whether nodes of a behavior may call the function of a name. -/
def Behavior.Invokes (name : String) : Behavior → Prop
  | .invokeFunction f => f = name
  | .script s => ∃ i ∈ s.instructions, i.Invokes name
  | _ => False

instance (name : String) (i : Instruction) : Decidable (i.Invokes name) := by
  unfold Instruction.Invokes
  split <;> infer_instance

instance (name : String) (b : Behavior) : Decidable (b.Invokes name) := by
  unfold Behavior.Invokes
  split <;> infer_instance

/-- Whether a node may call the function of a name. -/
def Network.Invokes (n : Network) (name : String) : Prop :=
  ∃ h x, n.node? h = some x ∧ x.behavior.Invokes name

theorem Network.invokes_iff (n : Network) (name : String) :
    n.Invokes name ↔ ∃ e ∈ n.nodes.toList, e.2.behavior.Invokes name := by
  constructor
  · rintro ⟨h, x, hx, hinvokes⟩
    exact ⟨(h, x), (Arena.mem_toList_iff n.nodes h x).mpr hx, hinvokes⟩
  · rintro ⟨⟨h, x⟩, hx, hinvokes⟩
    exact ⟨h, x, (Arena.mem_toList_iff n.nodes h x).mp hx, hinvokes⟩

instance (n : Network) (name : String) : Decidable (n.Invokes name) :=
  decidable_of_iff _ (n.invokes_iff name).symm

/-- The function that a call in a graph means: one of the graph, or else one of the library. -/
def Engine.resolve (e : Engine) (g : Graph) (name : String) : Option Graph :=
  (g.function? name).or (e.function? name)

/-- The functions that the calls in a graph lead to, the calls in those included. -/
inductive Engine.Reaches (e : Engine) (g : Graph) : Graph → Prop where
  | call (name : String) (k : Graph) (hinvokes : g.Invokes name)
      (hk : e.resolve g name = some k) : e.Reaches g k
  | nested (f : Graph) (name : String) (k : Graph) (hf : e.Reaches g f)
      (hinvokes : f.Invokes name) (hk : e.resolve f name = some k) : e.Reaches g k

/-! ## Section 2: Nodes -/

/-- The frame with other functions, of the graph and of the library. -/
def Frame.resolving (frame : Frame) (library functions : List (String × Graph)) : Frame :=
  { frame with
    engine := { frame.engine with library }, graph := { frame.graph with functions } }

/-- The site in such a frame. -/
def Site.resolving (site : Site) (library functions : List (String × Graph)) : Site :=
  { site with frame := site.frame.resolving library functions }

namespace Site

variable {chain : Chain} {site : Site} {library functions : List (String × Graph)}
  (hinner : ∀ start, chain (site.resolving library functions).inner start = chain site.inner start)

include hinner

theorem forward_resolving (start : NodeHandle) :
    (site.resolving library functions).forward chain start = site.forward chain start := by
  unfold forward
  rw [hinner start]
  rfl

theorem forwardPort_resolving (name : String) (index : Nat) :
    (site.resolving library functions).forwardPort chain name index
      = site.forwardPort chain name index := by
  have hsuccessor : (site.resolving library functions).successor name index
      = site.successor name index := rfl
  unfold forwardPort
  rw [hsuccessor]
  split
  · exact forward_resolving hinner _
  · rfl

theorem loop_resolving (count : Nat) (index : Int) :
    (site.resolving library functions).loop chain count index = site.loop chain count index := by
  induction count generalizing index with
  | zero => rfl
  | succ count ih =>
    unfold loop
    rw [ih, forwardPort_resolving hinner]
    rfl

theorem perform_resolving (instruction : Instruction)
    (hcall : ∀ name arguments, instruction.Invokes name →
      (site.resolving library functions).call chain name arguments
        = site.call chain name arguments) :
    (site.resolving library functions).perform chain instruction
      = site.perform chain instruction := by
  cases instruction with
  | forward port index => exact forwardPort_resolving hinner port index
  | run guid =>
    have hhandle : (site.resolving library functions).frame.graph.handleOf guid
        = site.frame.graph.handleOf guid := rfl
    unfold perform
    dsimp only
    rw [hhandle]
    split
    · exact forward_resolving hinner _
    · rfl
  | invoke name arguments output =>
    unfold perform
    dsimp only
    simp only [hcall name _ rfl]
    rfl
  | attempt name =>
    unfold perform
    dsimp only
    rw [hcall name [] rfl]
    rfl
  | attemptForward port index =>
    unfold perform
    dsimp only
    rw [forwardPort_resolving hinner]
    rfl
  | _ => rfl

/-- Nodes only depend on what calls resolve to, and on what the chains do that they run. -/
theorem execute_resolving (b : Behavior)
    (hcall : ∀ name arguments, b.Invokes name →
      (site.resolving library functions).call chain name arguments
        = site.call chain name arguments) :
    (site.resolving library functions).execute chain b = site.execute chain b := by
  cases b with
  | sequence =>
    unfold execute
    rw [show (site.resolving library functions).forwardPort chain "then"
      = site.forwardPort chain "then" from
        funext fun index => forwardPort_resolving hinner "then" index]
    rfl
  | forLoop =>
    unfold execute forLoop
    simp only [loop_resolving hinner]
    rfl
  | invokeFunction name =>
    unfold execute invokeFunction
    simp only [hcall name _ rfl]
    rfl
  | script script =>
    unfold execute
    -- by induction on the instructions that are left, all of which are of the script
    have hall : ∀ is : List Instruction, (∀ i ∈ is, i ∈ script.instructions) →
        Exec.forEach is ((site.resolving library functions).perform chain)
          = Exec.forEach is (site.perform chain) := by
      intro is his
      induction is with
      | nil => rfl
      | cons i rest ih =>
        rw [List.forall_mem_cons] at his
        unfold Exec.forEach
        rw [ih his.2, perform_resolving hinner i fun name arguments hi =>
          hcall name arguments ⟨i, his.1, hi⟩]
    exact hall script.instructions fun _ hi => hi
  | _ => rfl

end Site

/-! ## Section 3: Twins -/

/-- A relation between graphs that differ in their functions at most: calls in one and in the
    other resolve to functions that are related again. -/
structure Twins (e : Engine) (library : List (String × Graph)) (R : Graph → Graph → Prop) :
    Prop where
  same : ∀ g k, R g k → k = { g with functions := k.functions }
  callee : ∀ g k name, R g k → g.Invokes name →
    Option.Rel R (e.resolve g name) ({ e with library : Engine }.resolve k name)

/-- A chain runs alike in frames with related graphs. -/
def Chain.Twin (e : Engine) (library : List (String × Graph)) (R : Graph → Graph → Prop)
    (chain : Chain) : Prop :=
  ∀ (frame : Frame) (functions : List (String × Graph)) (h : NodeHandle), frame.engine = e →
    R frame.graph { frame.graph with functions } →
    chain (frame.resolving library functions) h = chain frame h

section Twins

variable {e : Engine} {library : List (String × Graph)} {R : Graph → Graph → Prop}
  (hR : Twins e library R) {chain : Chain} (hchain : chain.Twin e library R) {frame : Frame}
  {functions : List (String × Graph)} (hframe : frame.engine = e)
  (hgraph : R frame.graph { frame.graph with functions })

include hR hchain hframe hgraph

namespace Frame

/-- Both call related functions, or fail for the same reason. -/
theorem call_twins (node : NodeHandle) (name : String) (arguments : List Value)
    (hname : frame.graph.Invokes name) :
    ((Site.mk frame node).resolving library functions).call chain name arguments
      = (Site.mk frame node).call chain name arguments := by
  have hcallee := hR.callee _ _ name hgraph hname
  rw [← hframe] at hcallee
  funext s
  show (Exec.ofResult (((Site.mk frame node).resolving library functions).callee name s.store)
      >>= _ : Exec Value) s
    = (Exec.ofResult ((Site.mk frame node).callee name s.store) >>= _ : Exec Value) s
  have hfunction : (Site.mk frame node).function? name
      = frame.engine.resolve frame.graph name := rfl
  have hfunction' : ((Site.mk frame node).resolving library functions).function? name
      = { frame.engine with library : Engine }.resolve { frame.graph with functions } name := rfl
  have hdepth : ((Site.mk frame node).resolving library functions).maxDepth
      ≤ ((Site.mk frame node).resolving library functions).frame.depth
    ↔ (Site.mk frame node).maxDepth ≤ (Site.mk frame node).frame.depth := Iff.rfl
  unfold Site.callee
  rw [hfunction, hfunction']
  -- only the callees that are found are needed from here on
  generalize frame.engine.resolve frame.graph name = f,
    { frame.engine with library : Engine }.resolve { frame.graph with functions } name = f'
    at hcallee
  cases hcallee with
  | none => rfl
  | @some g k hgk =>
    obtain ⟨locals, rfl⟩ : ∃ locals, k = { g with functions := locals } := ⟨_, hR.same _ _ hgk⟩
    -- they have the same network, so both can be called or neither, from the same entry
    have hrunnable : Graph.isRunnable { g with functions := locals } s.store
        = g.isRunnable s.store := rfl
    dsimp only
    rw [hrunnable]
    split
    · rfl
    · cases g.findEntry name with
      | none => rfl
      | some entry =>
        simp only [hdepth]
        split
        · rfl
        · have hrun := hchain ((Site.mk frame node).callFrame g ⟨name, arguments⟩) locals entry
            hframe hgk
          show Site.enclosed _ _ (Site.activation chain _ entry) s
            = Site.enclosed _ _ (Site.activation chain _ entry) s
          unfold Site.activation
          rw [← hrun]
          rfl

theorem invoke_twins (h : NodeHandle) :
    (frame.resolving library functions).invoke chain h = frame.invoke chain h := by
  have hnode : (frame.resolving library functions).graph.node? h = frame.graph.node? h := rfl
  unfold invoke
  rw [hnode]
  cases hx : frame.graph.node? h with
  | none => rfl
  | some x =>
    have hexecute : ((Site.mk frame h).resolving library functions).execute chain x.behavior
        = (Site.mk frame h).execute chain x.behavior :=
      Site.execute_resolving
        (fun start => hchain (Site.mk frame h).inner functions start hframe hgraph) x.behavior
        fun name arguments hname =>
          call_twins hR hchain hframe hgraph h name arguments ⟨h, x, hx, hname⟩
    dsimp only
    rw [show Site.mk (frame.resolving library functions) h
      = (Site.mk frame h).resolving library functions from rfl, hexecute]
    rfl

theorem runNode_twins (h : NodeHandle) :
    (frame.resolving library functions).runNode chain h = frame.runNode chain h := by
  have hinvoke : (frame.resolving library functions).invoke chain = frame.invoke chain :=
    funext fun m => invoke_twins hR hchain hframe hgraph m
  unfold runNode
  rw [hinvoke]
  rfl

omit hchain hframe hgraph in
theorem runChain_twins (fuel : Nat) : (runChain fuel).Twin e library R := by
  -- the chains that calls run have less fuel, and run in twins again
  induction fuel with
  | zero => exact fun _ _ _ _ _ => rfl
  | succ fuel ih =>
    intro frame functions h hframe hgraph
    have hchain : ∀ k, runChain fuel (frame.resolving library functions) k
        = runChain fuel frame k := fun k => ih frame functions k hframe hgraph
    unfold runChain
    rw [runNode_twins hR ih hframe hgraph]
    simp only [hchain]

end Frame

omit hchain hframe hgraph in
/-- A request does the same in twins. -/
theorem Dispatch.start_twins {g k : Graph} (hgk : R g k) (fuel : Nat) (r : DispatchRequest)
    (s : Store) : start fuel { e with library } k r s = start fuel e g r s := by
  obtain ⟨functions, rfl⟩ : ∃ functions, k = { g with functions } := ⟨_, hR.same _ _ hgk⟩
  have hrunnable : Graph.isRunnable { g with functions } s = g.isRunnable s := rfl
  unfold start
  rw [hrunnable]
  split
  · rfl
  · dsimp only
    split
    · rfl
    · rename_i entry _
      have hrun := Frame.runChain_twins hR fuel (frameOf e g r s) functions entry rfl hgk
      unfold run
      rw [show Frame.mk { e with library } s.freshDispatch.1 { g with functions } r.trigger
        r.effectivePayload.toEventCall 0 = (frameOf e g r s).resolving library functions from rfl,
        hrun]
      rfl

end Twins
end FlowGraph
