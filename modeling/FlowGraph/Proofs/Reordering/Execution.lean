import FlowGraph.Proofs.Dispatch.Pull
import FlowGraph.Proofs.Dispatch.Reach
import FlowGraph.Proofs.Graph.Matching
import FlowGraph.Proofs.Reordering.Processes

/-! # Executing nodes under other names

    Two networks are alike if related handles name the same nodes, whose slots are linked
    alike and whose variables are related (`Network.Renamed`).  A graph whose names are not
    changed is alike to itself (`Network.Fixed`), as are the functions that a graph calls.

    What a node reaches through its site is the same then.  Nodes that are executed at alike
    sites do the same, whatever their behavior (`Site.Alike.execute`): they read the same
    values, write the same slots, select nodes of the same name, and run chains and functions
    that do the same.  Texts of messages may differ, since events are left out of the
    comparison. -/

namespace FlowGraph

variable {ren : Renaming}

/-! ## Section 1: Alike networks -/

/-- Two nodes are the same under related names. -/
structure GraphNode.Alike (ren : Renaming) (N : NodeHandle → NodeHandle → Prop)
    (x y : GraphNode) : Prop where
  guid : y.guid = x.guid
  descriptor : y.descriptor = x.descriptor
  behavior : y.behavior = x.behavior
  ports : List.Forall₂ (Port.Matches N) x.ports y.ports
  vars : List.Forall₂ (fun a b => b.1 = a.1 ∧ ren.var a.2 b.2) x.vars y.vars

/-- A field names the same variable. -/
theorem GraphNode.Alike.ownVariable {N : NodeHandle → NodeHandle → Prop} {x y : GraphNode}
    (h : x.Alike ren N y) (field : String) :
    Option.Rel ren.var (x.ownVariable field) (y.ownVariable field) := by
  unfold GraphNode.ownVariable
  -- both lists name the same fields
  have hvars := h.vars
  generalize x.vars = vs, y.vars = ws at hvars
  induction hvars with
  | nil => exact .none
  | @cons a b _ _ hab _ ih =>
    rw [List.find?_cons, List.find?_cons, hab.1]
    by_cases hfield : a.1 = field
    · simp only [hfield, decide_true, Option.map_some]
      exact .some hab.2
    · simp only [hfield, decide_false]
      exact ih

/-- Related handles name alike nodes, or one handle names no node on either side. -/
inductive Network.FoundAlike (ren : Renaming) (N : NodeHandle → NodeHandle → Prop)
    (n m : Network) (h k : NodeHandle) : Prop where
  | found (x y : GraphNode) (hx : n.node? h = some x) (hy : m.node? k = some y)
      (nodes : x.Alike ren N y)
  | missing (same : k = h) (hn : n.node? h = none) (hm : m.node? k = none)

/-- Two networks are the same under related names. -/
structure Network.Renamed (ren : Renaming) (n m : Network) : Prop where
  id : m.id = n.id
  name : m.name = n.name
  node : ∀ h k, ren.nodeIn n.id h k → n.FoundAlike ren (ren.nodeIn n.id) m h k
  handle : ∀ guid, Option.Rel (ren.nodeIn n.id) (n.handleOf guid) (m.handleOf guid)
  entry : ∀ name, Option.Rel (ren.nodeIn n.id) (n.findEntry name) (m.findEntry name)
  blackboard : m.blackboard = n.blackboard
  board : ∀ v ∈ n.blackboard, ren.var v v

/-- A network with other names for none of its nodes and variables. -/
structure Network.Fixed (ren : Renaming) (n : Network) : Prop where
  other : n.id ≠ ren.graph
  vars : ∀ h x, n.node? h = some x → ∀ e ∈ x.vars, ren.var e.2 e.2
  board : ∀ v ∈ n.blackboard, ren.var v v

/-- The paths of the graph that is renamed list the same nodes, in whatever order. -/
structure Network.PathsAlike (ren : Renaming) (n m : Network) : Prop where
  consistent : n.Consistent ∧ m.Consistent
  fits : (∀ h x, n.node? h = some x → x.Fits) ∧ ∀ h x, m.node? h = some x → x.Fits
  sourced : n.Sourced ∧ m.Sourced
  coherent : n.Coherent ∧ m.Coherent
  width : ∀ a b x, ren.node a b → n.node? a = some x → ren.width a = x.ports.length
  /-- Every node of the one network is named in the other. -/
  total : (∀ a x, n.node? a = some x → ∃ b, ren.node a b) ∧
    ∀ b y, m.node? b = some y → ∃ a, ren.node a b
  needs : ∀ a b c d, ren.node a b → ren.node c d → (n.NeedsNode a c ↔ m.NeedsNode b d)
  aside : ∀ a x, n.node? a = some x → x.descriptor.path = .dependency → ren.aside x.guid

/-- Two graphs are the same under related names; their functions keep their names. -/
structure Graph.Alike (ren : Renaming) (g k : Graph) : Prop
    extends g.toNetwork.Renamed ren k.toNetwork where
  functions : k.functions = g.functions
  compiled : k.compiled = g.compiled
  fixed : ∀ f ∈ g.functions, f.2.All (Network.Fixed ren)
  same : g.id ≠ ren.graph → k = g
  paths : g.id = ren.graph → g.toNetwork.PathsAlike ren k.toNetwork

theorem rel_refl {α : Type} {S : α → α → Prop} (h : ∀ a, S a a) (o : Option α) : Option.Rel S o o := by
  cases o with
  | none => exact .none
  | some a => exact .some (h a)

/-- A slot matches itself. -/
theorem Port.Matches.refl (p : Port) : p.Matches Eq p :=
  ⟨rfl, rel_refl (fun _ => ⟨rfl, rfl, rfl⟩) _, rel_refl (fun _ => rfl) _⟩

/-- A network whose names stay is alike to itself. -/
theorem Network.Fixed.alike {n : Network} (hn : n.Fixed ren) : n.Renamed ren n := by
  have hnode : ren.nodeIn n.id = Eq := Renaming.nodeIn_other hn.other
  refine ⟨rfl, rfl, fun h k hhk => ?_, fun guid => ?_, fun name => ?_, rfl, hn.board⟩
  · rw [hnode] at hhk ⊢
    subst hhk
    cases hx : n.node? h with
    | none => exact .missing rfl hx hx
    | some x =>
      refine .found x x hx hx ⟨rfl, rfl, rfl, ?_, ?_⟩
      · exact List.forall₂_same.mpr fun p _ => .refl p
      · exact List.forall₂_same.mpr fun e he => ⟨rfl, hn.vars h x hx e he⟩
  · rw [hnode]
    exact rel_refl (fun _ => rfl) _
  · rw [hnode]
    exact rel_refl (fun _ => rfl) _

theorem Graph.alike_of_fixed {g : Graph} (hg : g.All (Network.Fixed ren)) : g.Alike ren g :=
  ⟨hg.network.alike, rfl, rfl, hg.functions, fun _ => rfl, fun hid => absurd hid hg.network.other⟩

/-! ## Section 2: Reading and writing slots -/

namespace Network.Renamed

variable {n m : Network} {s t : Store}

theorem found (h : n.Renamed ren m) {a b : NodeHandle} (hab : ren.nodeIn n.id a b) (x : GraphNode)
    (hx : n.node? a = some x) : ∃ y, m.node? b = some y ∧ x.Alike ren (ren.nodeIn n.id) y := by
  cases h.node a b hab with
  | found x' y hx' hy hxy =>
    rw [hx] at hx'
    cases hx'
    exact ⟨y, hy, hxy⟩
  | missing _ hn _ =>
    rw [hx] at hn
    cases hn

theorem port? (h : n.Renamed ren m) {a b : PortAddress} (hab : ren.SlotIn n.id a b) :
    Option.Rel (Port.Matches (ren.nodeIn n.id)) (n.port? a) (m.port? b) := by
  unfold Network.port?
  cases h.node a.node b.node hab.node with
  | found x y hx hy hxy =>
    rw [hx, hy, Option.bind_some, Option.bind_some, hab.port]
    exact rel_getElem? hxy.ports a.port
  | missing _ hn hm =>
    rw [hn, hm]
    exact .none

/-- Slots are read alike. -/
theorem readPort (h : n.Renamed ren m) (hst : s.Alike ren t) {a b : PortAddress}
    (hab : ren.SlotIn n.id a b) : m.readPort t b = n.readPort s a := by
  have hport := h.port? hab
  unfold Network.readPort
  generalize n.port? a = p, m.port? b = q at hport
  cases hport with
  | none => rfl
  | @some p q hpq =>
    have htype := hpq.same Port.type fun _ => rfl
    have hlink := hpq.link
    dsimp only
    generalize p.link = l, q.link = l' at hlink
    cases hlink with
    | none =>
      rw [h.id]
      exact hst.cell n.id a b hab
    | @some l l' hll =>
      -- the value comes from slots of the same node
      have hsource : ren.SlotIn n.id l.source l'.source := ⟨hll.node, hll.port⟩
      have hfound := h.port? hsource
      dsimp only
      generalize n.port? l.source = u, m.port? l'.source = v at hfound
      cases hfound with
      | none => exact congrArg Value.defaultFor htype
      | some _ =>
        dsimp only
        rw [hll.compatibility, hst.objects, h.id, hst.cell n.id _ _ hsource]

theorem writePort (h : n.Renamed ren m) (hst : s.Alike ren t) {a b : PortAddress}
    (hab : ren.SlotIn n.id a b) (v : Value) :
    (n.writePort s a v).Alike ren (m.writePort t b v) := by
  have hport := h.port? hab
  unfold Network.writePort
  generalize n.port? a = p, m.port? b = q at hport
  cases hport with
  | none => exact hst
  | some _ =>
    rw [h.id]
    exact hst.writeCell hab v

end Network.Renamed

/-! ## Section 3: Sites -/

/-- Two frames are the same under related names. -/
structure Frame.Alike (ren : Renaming) (frame frame' : Frame) : Prop where
  graph : frame.graph.Alike ren frame'.graph
  engine : frame'.engine = frame.engine
  dispatchId : frame'.dispatchId = frame.dispatchId
  trigger : frame'.trigger = frame.trigger
  call : frame'.call = frame.call
  depth : frame'.depth = frame.depth
  library : ∀ f ∈ frame.engine.library, f.2.All (Network.Fixed ren)
  unlimited : frame.engine.config.maxChainSteps = none

/-- The relation of the handles of the graph that runs. -/
abbrev Frame.nodeIn (ren : Renaming) (frame : Frame) : NodeHandle → NodeHandle → Prop :=
  ren.nodeIn frame.graph.id

/-- Two sites are the same under related names. -/
structure Site.Alike (ren : Renaming) (site site' : Site) : Prop where
  frame : site.frame.Alike ren site'.frame
  node : site.frame.nodeIn ren site.node site'.node

namespace Site.Alike

variable {site site' : Site} (hsite : site.Alike ren site') {s t : Store} (hst : s.Alike ren t)

include hsite

theorem node? : site.frame.graph.FoundAlike ren (site.frame.nodeIn ren) site'.frame.graph.toNetwork
    site.node site'.node :=
  hsite.frame.graph.node site.node site'.node hsite.node

/-- What is read off a node is the same, if it is the same for alike nodes. -/
theorem same {α : Type} (f : GraphNode → Option α)
    (hf : ∀ x y, x.Alike ren (site.frame.nodeIn ren) y → f y = f x) :
    site'.node?.bind f = site.node?.bind f := by
  unfold Site.node?
  cases hsite.node? with
  | found x y hx hy hxy =>
    rw [hx, hy, Option.bind_some, Option.bind_some, hf x y hxy]
  | missing _ hn hm => rw [hn, hm]

theorem portIndex (name : String) (index : Nat) :
    site'.node?.bind (·.portIndex name index) = site.node?.bind (·.portIndex name index) :=
  hsite.same _ fun _ _ hxy => GraphNode.portIndex_matches hxy.ports name index

theorem address? (name : String) (index : Nat) :
    Option.Rel (ren.SlotIn site.frame.graph.id) (site.address? name index)
      (site'.address? name index) := by
  unfold Site.address?
  rw [hsite.portIndex]
  cases site.node?.bind (·.portIndex name index) with
  | none => exact .none
  | some i => exact .some ⟨hsite.node, rfl⟩

theorem portCount (name : String) : site'.portCount name = site.portCount name := by
  have hcount : ∀ x y : GraphNode, x.Alike ren (site.frame.nodeIn ren) y →
      y.portCount name = x.portCount name := by
    intro x y hxy
    unfold GraphNode.portCount
    have hports : y.ports.map Port.name = x.ports.map Port.name :=
      (map_eq_of_forall₂ (hxy.ports.imp fun p q hpq => (hpq.same Port.name fun _ => rfl).symm)).symm
    have hcounted : ∀ z : GraphNode, z.ports.countP (fun p => decide (p.name = name))
        = (z.ports.map Port.name).countP (fun name' => decide (name' = name)) := by
      intro z
      rw [List.countP_map]
      rfl
    rw [hcounted, hcounted, hports]
  unfold Site.portCount
  rw [Option.map_eq_bind, Option.map_eq_bind]
  exact congrArg (·.getD 0) (hsite.same _ fun x y hxy => congrArg some (hcount x y hxy))

theorem portType (name : String) : site'.portType name = site.portType name := by
  have htype : ∀ x y : GraphNode, x.Alike ren (site.frame.nodeIn ren) y →
      (y.port? name 0).map Port.type = (x.port? name 0).map Port.type := by
    intro x y hxy
    unfold GraphNode.port?
    rw [GraphNode.portIndex_matches hxy.ports]
    cases x.portIndex name 0 with
    | none => rfl
    | some i =>
      have hget := rel_getElem? hxy.ports i
      rw [Option.bind_some, Option.bind_some]
      generalize x.ports[i]? = p, y.ports[i]? = q at hget
      cases hget with
      | none => rfl
      | some hpq => rw [Option.map_some, Option.map_some, hpq.same Port.type fun _ => rfl]
  unfold Site.portType
  rw [Option.map_bind, Option.map_bind]
  exact congrArg (·.getD PortType.any) (hsite.same _ htype)

theorem successor (name : String) (index : Nat) :
    Option.Rel (site.frame.nodeIn ren) (site.successor name index)
      (site'.successor name index) := by
  have haddress := hsite.address? name index
  unfold Site.successor
  generalize site.address? name index = a, site'.address? name index = b at haddress
  cases haddress with
  | none => exact .none
  | @some a b hab =>
    have hport := hsite.frame.graph.port? hab
    rw [Option.bind_some, Option.bind_some]
    generalize site.frame.graph.port? a = p, site'.frame.graph.port? b = q at hport
    cases hport with
    | none => exact .none
    | some hpq => exact hpq.target

theorem ownVariable (field : String) :
    Option.Rel ren.var (site.ownVariable field) (site'.ownVariable field) := by
  unfold Site.ownVariable Site.node?
  cases hsite.node? with
  | found x y hx hy hxy =>
    rw [hx, hy, Option.bind_some, Option.bind_some]
    exact hxy.ownVariable field
  | missing _ hn hm =>
    rw [hn, hm]
    exact .none

theorem maxDepth : site'.maxDepth = site.maxDepth := by
  unfold Site.maxDepth
  rw [hsite.frame.engine]

include hst

theorem input (name : String) (index : Nat) : site'.input name index t = site.input name index s := by
  have haddress := hsite.address? name index
  unfold Site.input
  generalize site.address? name index = a, site'.address? name index = b at haddress
  cases haddress with
  | none => rfl
  | some hab => exact hsite.frame.graph.readPort hst hab

theorem inputs (name : String) : site'.inputs name t = site.inputs name s := by
  unfold Site.inputs
  rw [hsite.portCount]
  exact List.map_congr_left fun index _ => hsite.input hst name index

theorem output (name : String) (index : Nat) (v : Value) :
    (site.output name index v s).Alike ren (site'.output name index v t) := by
  have haddress := hsite.address? name index
  unfold Site.output
  generalize site.address? name index = a, site'.address? name index = b at haddress
  cases haddress with
  | none => exact hst
  | some hab => exact hsite.frame.graph.writePort hst hab v

theorem triggerFor (name : String) : site'.triggerFor name t = site.triggerFor name s := by
  unfold Site.triggerFor
  rw [hsite.frame.trigger, hst.objects, hsite.portType]

theorem target (name : String) : site'.target name t = site.target name s := by
  unfold Site.target
  rw [hsite.input hst, hsite.triggerFor hst, hst.objects]

theorem variableValue (field : String) :
    site'.variableValue field t = site.variableValue field s := by
  have hvariable := hsite.ownVariable field
  unfold Site.variableValue
  generalize site.ownVariable field = v, site'.ownVariable field = w at hvariable
  cases hvariable with
  | none => rfl
  | some hvw => simp [hst.vars.get hvw]

end Site.Alike

variable {α β : Type}

/-- Chains that do the same under related names. -/
def Chain.Alike (ren : Renaming) (chain chain' : Chain) : Prop :=
  ∀ frame frame' h k, frame.Alike ren frame' → frame.nodeIn ren h k →
    Exec.Alike ren (frame.nodeIn ren) Eq (chain frame h) (chain' frame' k)

namespace Site.Alike

variable {site site' : Site} (hsite : site.Alike ren site')

/-- The steps do the same at a site and one that is alike. -/
abbrev Step (ren : Renaming) (site : Site) (x y : Exec α) : Prop :=
  Exec.Alike ren (site.frame.nodeIn ren) Eq x y

/-! ## Section 4: Single steps -/

/-- Messages may say anything. -/
theorem message (text text' : String) : Step ren site (site.message text) (site'.message text') :=
  .update _ _ fun _ _ hst => hst.reported _ _ _ _

theorem report (level level' : LogLevel) (text text' : String) :
    Step ren site (Exec.update (·.report level text)) (Exec.update (·.report level' text')) :=
  .update _ _ fun _ _ hst => hst.reported _ _ _ _

theorem tell (text text' : Store → String) : Step ren site (site.tell text) (site'.tell text') :=
  (Exec.Alike.view text text' (Q := fun _ _ => True) fun _ _ _ => trivial).bind
    fun a b _ => message a b

theorem answer (v : Value) : Step ren site (site.answer v) (site'.answer v) :=
  .modify _ _ fun _ _ hst => hst.withReturned (some v)

theorem select {a b : Option NodeHandle} (hab : Option.Rel (site.frame.nodeIn ren) a b) :
    Step ren site (site.select a) (site'.select b) :=
  .modify _ _ fun _ _ hst => hst.withNext hab

theorem assign {v w : VarId} (hvw : ren.var v w) (a : Value) :
    Step ren site (site.assign v a) (site'.assign w a) :=
  .update _ _ fun _ _ hst => hst.withVars (hst.vars.set ren.var_unique hvw a)

include hsite

theorem continueWith (name : String) :
    Step ren site (site.continueWith name) (site'.continueWith name) :=
  select (hsite.successor name 0)

theorem read (name : String) : Step ren site (site.read name) (site'.read name) :=
  .view _ _ fun _ _ hst => (hsite.input hst name 0).symm

theorem write (name : String) (v : Value) : Step ren site (site.write name v) (site'.write name v) :=
  .update _ _ fun _ _ hst => hsite.output hst name 0 v

/-- Writing what is computed from the store. -/
theorem output_of (name : String) (index : Nat) (f g : Store → Value)
    (hfg : ∀ s t, Store.Alike ren s t → g t = f s) :
    Step ren site (Exec.update fun s => site.output name index (f s) s)
      (Exec.update fun s => site'.output name index (g s) s) := by
  refine .update _ _ fun s t hst => ?_
  rw [hfg s t hst]
  exact hsite.output hst name index (f s)

/-! ## Section 5: Sub-executions -/

theorem inner : site.inner.Alike ren site'.inner := by
  have hframe := hsite.frame
  exact ⟨hframe.graph, hframe.engine, hframe.dispatchId, hframe.trigger, hframe.call,
    congrArg (· + 1) hframe.depth, hframe.library, hframe.unlimited⟩

/-- What is called is the same function, whose names stay. -/
theorem callee (name : String) {s t : Store} (hst : s.Alike ren t) :
    site'.callee name t = site.callee name s ∧
      ∀ g entry, site.callee name s = .ok (g, entry) → g.All (Network.Fixed ren) := by
  have hframe := hsite.frame
  have hfunction : site'.function? name = site.function? name := by
    unfold Site.function? Graph.function?
    rw [hframe.graph.functions, hframe.engine]
  have hrunnable : ∀ g : Graph, g.isRunnable t = g.isRunnable s := by
    intro g
    unfold Graph.isRunnable
    rw [hst.disposed]
  constructor
  · unfold Site.callee
    rw [hfunction]
    simp only [hrunnable, hsite.maxDepth, hframe.depth]
  · intro g entry hcallee
    have hfound := site.function?_of_callee name s g entry hcallee
    unfold Site.function? at hfound
    cases hlocal : site.frame.graph.function? name with
    | some f =>
      rw [hlocal] at hfound
      cases hfound
      unfold Graph.function? at hlocal
      obtain ⟨e, he, rfl⟩ := Option.map_eq_some_iff.mp hlocal
      exact hframe.graph.fixed e (List.mem_of_find?_eq_some he)
    | none =>
      rw [hlocal, Option.none_or] at hfound
      unfold Engine.function? at hfound
      obtain ⟨e, he, rfl⟩ := Option.map_eq_some_iff.mp hfound
      exact hframe.library e (List.mem_of_find?_eq_some he)

theorem callFrame (g : Graph) (hg : g.All (Network.Fixed ren)) (call : EventCall) :
    (site.callFrame g call).Alike ren (site'.callFrame g call) := by
  have hframe := hsite.frame
  exact ⟨Graph.alike_of_fixed hg, hframe.engine, hframe.dispatchId, hframe.trigger, rfl,
    congrArg (· + 1) hframe.depth, hframe.library, hframe.unlimited⟩

variable {chain chain' : Chain} (hchain : chain.Alike ren chain')

include hchain

theorem forward {h k : NodeHandle} (hhk : site.frame.nodeIn ren h k) :
    Step ren site (site.forward chain h) (site'.forward chain' k) := by
  unfold Site.forward
  rw [hsite.maxDepth, hsite.frame.depth]
  split
  · exact .fail _
  · refine .enclosed _ _ (hchain _ _ h k hsite.inner hhk) fun s t u v hst huv => ?_
    exact huv.withNext hst.next

theorem forwardPort (name : String) (index : Nat) :
    Step ren site (site.forwardPort chain name index) (site'.forwardPort chain' name index) := by
  have hsuccessor := hsite.successor name index
  unfold Site.forwardPort
  generalize site.successor name index = a, site'.successor name index = b at hsuccessor
  cases hsuccessor with
  | none => exact .pure () () rfl
  | some hhk => exact hsite.forward hchain hhk

/-- Inside a call the handles are those of the function, which are the same on both sides. -/
theorem call (name : String) (arguments : List Value) :
    Step ren site (site.call chain name arguments) (site'.call chain' name arguments) := by
  refine (Exec.Alike.view _ _ (Q := fun a b => b = a ∧ ∀ g entry, a = .ok (g, entry) →
    g.All (Network.Fixed ren)) fun s t hst => hsite.callee name hst).bind ?_
  rintro (e | ⟨g, entry⟩) _ ⟨rfl, hfixed⟩
  · exact .fail e
  · have hg := hfixed g entry rfl
    have hframe := hsite.callFrame g hg ⟨name, arguments⟩
    have hentry : ren.nodeIn g.id entry entry := by
      rw [Renaming.nodeIn_other hg.network.other]
    refine .enclosed (M := ren.nodeIn g.id) _ _ (fun s t hst => ?_) fun s t u v hst huv => ?_
    · -- the call starts without a pending successor
      have hstart := (hst.withNext (M := ren.nodeIn g.id) .none).withReturned none
      refine Exec.Alike.bindEq (hchain _ _ entry entry hframe hentry) (fun _ => ?_) _ _ hstart
      exact .read _ _ fun s t hst => by rw [hst.returned]
    · exact ⟨⟨huv.store, huv.steps, huv.trace, hst.returned⟩, hst.next⟩

theorem loop (count : Nat) (index : Int) :
    Step ren site (site.loop chain count index) (site'.loop chain' count index) := by
  induction count generalizing index with
  | zero => exact .pure () () rfl
  | succ count ih =>
    refine (hsite.write "index" _).bindEq fun _ => ?_
    exact (hsite.forwardPort hchain "body" 0).bindEq fun _ => ih (index + 1)

/-! ## Section 6: Behaviors of the library -/

omit hchain in
theorem publish : Step ren site site.publish site'.publish := by
  have hslots : ∀ (indices : List Nat) (s t : Store), s.Alike ren t →
      (indices.foldl (fun s index =>
        site.output "args" index (site.frame.call.argument index) s) s).Alike ren
      (indices.foldl (fun s index =>
        site'.output "args" index (site'.frame.call.argument index) s) t) := by
    intro indices
    induction indices with
    | nil => exact fun _ _ hst => hst
    | cons index rest ih =>
      intro s t hst
      refine ih _ _ ?_
      rw [hsite.frame.call]
      exact hsite.output hst "args" index _
  unfold Site.publish
  rw [hsite.portCount]
  exact .update _ _ (hslots _)

omit hchain in
theorem binary (f : Float → Float → Value) : Step ren site (site.binary f) (site'.binary f) := by
  refine hsite.output_of "result" 0 _ _ fun s t hst => ?_
  unfold Site.number
  rw [hsite.input hst, hsite.input hst]

omit hchain in
theorem delay : Step ren site site.delay site'.delay := by
  refine (hsite.read "seconds").bindEq fun v => ?_
  dsimp only
  rw [hsite.frame.engine]
  split
  · exact .fail _
  · refine (Exec.Alike.view _ _ (Q := Eq) fun s t hst => by rw [hst.scheduler]).bindEq ?_
    rintro ⟨key, scheduler⟩
    refine (Exec.Alike.update _ _ fun s t hst => hst.withScheduler scheduler).bindEq fun _ => ?_
    refine (hsite.write "handle" _).bindEq fun _ => ?_
    exact (Exec.Alike.await key).bindEq fun _ => hsite.continueWith "next"

omit hchain in
theorem logMessage (level : LogLevel) :
    Step ren site (site.logMessage level) (site'.logMessage level) := by
  refine (hsite.read "message").bindEq fun v => ?_
  have hrest : Step ren site (do site.message v.toText; site.continueWith "next")
      (do site'.message v.toText; site'.continueWith "next") :=
    (message _ _).bindEq fun _ => hsite.continueWith "next"
  dsimp only
  split
  · exact (report _ _ _ _).bindEq fun _ => hrest
  · exact hrest

omit hchain in
theorem setVariable : Step ren site site.setVariable site'.setVariable := by
  refine (hsite.read "value").bindEq fun v => ?_
  have hvariable := hsite.ownVariable "variable"
  dsimp only
  generalize site.ownVariable "variable" = a, site'.ownVariable "variable" = b at hvariable
  cases hvariable with
  | none => exact (report _ _ _ _).bindEq fun _ => hsite.continueWith "next"
  | some hvw => exact (assign hvw v).bindEq fun _ => hsite.continueWith "next"

omit hchain in
theorem describeTarget : Step ren site site.describeTarget site'.describeTarget := by
  refine (Exec.Alike.view _ _ (Q := Eq) fun s t hst => (hsite.target hst "target").symm).bindEq ?_
  intro target
  cases target with
  | some ref =>
    refine (hsite.write "kind" _).bindEq fun _ => ?_
    exact (hsite.write "valid" _).bindEq fun _ => hsite.write "object" _
  | none =>
    refine (hsite.write "kind" _).bindEq fun _ => ?_
    exact (hsite.write "valid" _).bindEq fun _ => hsite.write "object" _

/-! ## Section 7: Scripts -/

omit hchain in
theorem pause (milliseconds : Nat) :
    Step ren site (site.pause milliseconds) (site'.pause milliseconds) := by
  unfold Site.pause
  rw [hsite.frame.engine]
  split
  · exact .fail _
  · refine (Exec.Alike.view _ _ (Q := Eq) fun s t hst => by rw [hst.scheduler]).bindEq ?_
    rintro ⟨key, scheduler⟩
    refine (Exec.Alike.update _ _ fun s t hst => hst.withScheduler scheduler).bindEq fun _ => ?_
    exact .await key

omit hchain in
/-- The blackboard is the same one, and its variables keep their ids. -/
theorem boardValue (name : String) {s t : Store} (hst : s.Alike ren t) :
    ((site'.frame.graph.blackboard.find? t.vars name).map t.vars.get).getD .null
      = ((site.frame.graph.blackboard.find? s.vars name).map s.vars.get).getD .null := by
  have hboard := hsite.frame.graph.board
  rw [hsite.frame.graph.blackboard, hst.vars.board _ hboard]
  cases hfound : site.frame.graph.blackboard.find? s.vars name with
  | none => rfl
  | some v =>
    have hv : v ∈ site.frame.graph.blackboard := List.mem_of_find?_eq_some hfound
    rw [Option.map_some, Option.map_some, hst.vars.get (hboard v hv)]

theorem perform (instruction : Instruction) :
    Step ren site (site.perform chain instruction) (site'.perform chain' instruction) := by
  have htagged : ∀ (value : Json) (s t : Store), Store.Alike ren s t →
      Value.ofTagged t.objects value = Value.ofTagged s.objects value := by
    intro value s t hst
    rw [hst.objects]
  cases instruction with
  | write port index value =>
    unfold Site.perform
    exact hsite.output_of port index (fun s => Value.ofTagged s.objects value) _ (htagged value)
  | copy source i target k =>
    unfold Site.perform
    exact hsite.output_of target k (site.input source i) _ fun s t hst => hsite.input hst source i
  | next port => exact hsite.continueWith port
  | stop =>
    unfold Site.perform
    exact select .none
  | goto guid =>
    unfold Site.perform
    exact select (hsite.frame.graph.handle guid)
  | forward port index => exact hsite.forwardPort hchain port index
  | run guid =>
    have hhandle := hsite.frame.graph.handle guid
    unfold Site.perform
    dsimp only
    generalize site.frame.graph.handleOf guid = a, site'.frame.graph.handleOf guid = b at hhandle
    cases hhandle with
    | none => exact .pure () () rfl
    | some hhk => exact hsite.forward hchain hhk
  | fail reason => exact .fail _
  | cancel => exact .fail _
  | message text => exact message _ _
  | read port index => exact tell _ _
  | typed port type => exact tell _ _
  | note port =>
    refine (Exec.Alike.read _ _ (Q := fun _ _ => True) fun _ _ _ => trivial).bind ?_
    exact fun _ _ _ => message _ _
  | answer value =>
    refine (Exec.Alike.view _ _ (Q := Eq) fun s t hst => (htagged value s t hst).symm).bindEq ?_
    exact fun v => answer v
  | answerInput port index =>
    refine (Exec.Alike.view _ _ (Q := Eq) fun s t hst => (hsite.input hst port index).symm).bindEq ?_
    exact fun v => answer v
  | answerArgument index =>
    unfold Site.perform
    dsimp only
    rw [hsite.frame.call]
    exact answer _
  | answered =>
    refine (Exec.Alike.read _ _ (Q := fun _ _ => True) fun _ _ _ => trivial).bind ?_
    exact fun _ _ _ => tell _ _
  | invoke name arguments output =>
    refine (Exec.Alike.view _ _ (Q := Eq) fun s t hst => by rw [hst.objects]).bindEq fun values => ?_
    exact (hsite.call hchain name values).bindEq fun v => hsite.write output v
  | attempt name =>
    refine (hsite.call hchain name []).attempt.bind fun r r' _ => ?_
    exact tell _ _
  | attemptForward port index =>
    refine (hsite.forwardPort hchain port index).attempt.bind fun r r' hr => ?_
    cases hr with
    | ok _ _ _ => exact .pure () () rfl
    | error e => exact message _ _
  | target port =>
    unfold Site.perform
    exact tell _ _
  | readVariable field output =>
    unfold Site.perform
    exact hsite.output_of output 0 (site.variableValue field) _ fun s t hst =>
      hsite.variableValue hst field
  | writeVariable field value =>
    have hvariable := hsite.ownVariable field
    unfold Site.perform
    dsimp only
    generalize site.ownVariable field = a, site'.ownVariable field = b at hvariable
    cases hvariable with
    | none => exact .pure () () rfl
    | some hvw =>
      refine (Exec.Alike.view _ _ (Q := Eq) fun s t hst => (htagged value s t hst).symm).bindEq ?_
      exact fun a => assign hvw a
  | readBoard name output =>
    unfold Site.perform
    exact hsite.output_of output 0 (fun s =>
      ((site.frame.graph.blackboard.find? s.vars name).map s.vars.get).getD .null) _
      fun s t hst => hsite.boardValue name hst
  | delay milliseconds => exact hsite.pause milliseconds
  | skip => exact .pure () () rfl

/-! ## Section 8: All behaviors -/

/-- Nodes do the same at alike sites. -/
theorem execute (b : Behavior) : Step ren site (site.execute chain b) (site'.execute chain' b) := by
  cases b with
  | executionEvent name => exact hsite.publish.bindEq fun _ => hsite.continueWith "next"
  | functionInput name => exact hsite.publish.bindEq fun _ => hsite.continueWith "next"
  | branch => exact (hsite.read "condition").bindEq fun _ => hsite.continueWith _
  | sequence =>
    unfold Site.execute
    rw [hsite.portCount]
    refine .forEach (S := Eq) _ _ (List.forall₂_refl _) ?_
    rintro index _ rfl
    exact hsite.forwardPort hchain "then" index
  | forLoop =>
    refine (hsite.read "first").bindEq fun first => ?_
    refine (hsite.read "last").bindEq fun last => ?_
    exact (hsite.loop hchain _ _).bindEq fun _ => hsite.continueWith "completed"
  | delay => exact hsite.delay
  | log level => exact hsite.logMessage level
  | literal type raw => exact hsite.write "value" _
  | add => exact hsite.binary fun a b => .float (a + b)
  | multiply => exact hsite.binary fun a b => .float (a * b)
  | compare op => exact hsite.binary fun a b => .bool (op.apply a b)
  | getVariable =>
    unfold Site.execute
    exact hsite.output_of "value" 0 (site.variableValue "variable") _ fun s t hst =>
      hsite.variableValue hst "variable"
  | setVariable => exact hsite.setVariable
  | functionOutput =>
    refine (hsite.read "value").bindEq fun v => ?_
    exact (answer v).bindEq fun _ => select .none
  | invokeFunction name =>
    refine (Exec.Alike.view _ _ (Q := Eq) fun s t hst => (hsite.inputs hst "args").symm).bindEq ?_
    intro arguments
    refine (hsite.call hchain name arguments).bindEq fun result => ?_
    exact (hsite.write "result" result).bindEq fun _ => hsite.continueWith "next"
  | describeTarget => exact hsite.describeTarget
  | placeholder node => exact .pure () () rfl
  | script script =>
    refine .forEach (S := Eq) _ _ (List.forall₂_refl _) ?_
    rintro instruction _ rfl
    exact hsite.perform hchain instruction

end Site.Alike
end FlowGraph
