import FlowGraph.Graph.Compile
import FlowGraph.Proofs.Graph.Links

/-! # What edits leave alone

    Most edits only touch records, slots and values: the nodes stay, each with its
    dependencies, and no link appears (`Keeps`).  Such an edit preserves soundness and
    recorded links, and the dependency relation is the same before and after it.
    Only inserting and removing change which nodes there are.

    A live graph is edited, compiled and disposed in any order.  `run` does a list of such
    operations from a hydrated graph; what every operation preserves holds in every state
    that is reached (`run_consistent`). -/

namespace FlowGraph

/-! ## Section 1: Edits of records and slots -/

/-- The node is the same one, with the same dependencies, and has no new link. -/
structure GraphNode.Keeps (x y : GraphNode) : Prop where
  guid : y.guid = x.guid
  descriptor : y.descriptor = x.descriptor
  behavior : y.behavior = x.behavior
  dependencies : y.dependencies = x.dependencies
  links : ∀ q ∈ y.ports, ∀ link, q.link = some link → ∃ p ∈ x.ports, p.link = some link

namespace GraphNode

theorem Keeps.refl (x : GraphNode) : x.Keeps x :=
  ⟨rfl, rfl, rfl, rfl, fun q hq _ hlink => ⟨q, hq, hlink⟩⟩

theorem Keeps.trans {x y z : GraphNode} (hxy : x.Keeps y) (hyz : y.Keeps z) : x.Keeps z := by
  refine ⟨hyz.guid.trans hxy.guid, hyz.descriptor.trans hxy.descriptor,
    hyz.behavior.trans hxy.behavior, hyz.dependencies.trans hxy.dependencies, fun r hr link hlink => ?_⟩
  obtain ⟨q, hq, hq'⟩ := hyz.links r hr link hlink
  exact hxy.links q hq link hq'

theorem keeps_records (x : GraphNode) (records : List PortData) :
    x.Keeps { x with records := records } :=
  ⟨rfl, rfl, rfl, rfl, fun q hq _ hlink => ⟨q, hq, hlink⟩⟩

theorem portsOf_unlinked (records : List PortData) (ports : List PortDescriptor) (p : Port)
    (hp : p ∈ Layout.portsOf records ports) : p.unlinked = p := by
  unfold Layout.portsOf at hp
  obtain ⟨⟨d, index⟩, _, rfl⟩ := List.mem_map.mp hp
  rfl

theorem link_portsOf (records : List PortData) (ports : List PortDescriptor) (p : Port)
    (hp : p ∈ Layout.portsOf records ports) : p.link = none := by
  rw [← portsOf_unlinked records ports p hp]
  rfl

theorem keeps_laidOut (x : GraphNode) : GraphNode.Keeps x x.laidOut := by
  refine ⟨rfl, rfl, rfl, rfl, fun q hq link hlink => ?_⟩
  rw [link_portsOf _ _ q hq] at hlink
  cases hlink

end GraphNode

namespace Network

/-- The nodes are the same ones, with the same dependencies, and there is no new link. -/
structure Keeps (n m : Network) : Prop where
  order : m.order = n.order
  arena : n.nodes.WellFormed → m.nodes.WellFormed
  node : ∀ h, Option.Rel GraphNode.Keeps (n.node? h) (m.node? h)

theorem Keeps.of_nodes {n m : Network} (horder : m.order = n.order) (hnodes : m.nodes = n.nodes) :
    n.Keeps m := by
  refine ⟨horder, fun hn => by rw [hnodes]; exact hn, fun h => ?_⟩
  unfold node?
  rw [hnodes]
  cases n.nodes.get? h with
  | none => exact .none
  | some x => exact .some (.refl x)

theorem Keeps.of_modify {n m : Network} (h : NodeHandle) (f : GraphNode → GraphNode)
    (horder : m.order = n.order) (hnodes : m.nodes = n.nodes.modify h f)
    (hf : ∀ x : GraphNode, x.Keeps (f x)) : n.Keeps m := by
  refine ⟨horder, fun hn => by rw [hnodes]; exact Arena.modify_wellFormed _ _ _ hn, fun k => ?_⟩
  unfold node?
  rw [hnodes, Arena.get?_modify]
  by_cases hk : k = h
  · rw [if_pos hk, hk]
    cases n.nodes.get? h with
    | none => exact .none
    | some x => exact .some (hf x)
  · rw [if_neg hk]
    cases n.nodes.get? k with
    | none => exact .none
    | some x => exact .some (.refl x)

theorem Keeps.of_map {n m : Network} (f : GraphNode → GraphNode) (horder : m.order = n.order)
    (hnodes : m.nodes = n.nodes.map f) (hf : ∀ x : GraphNode, x.Keeps (f x)) : n.Keeps m := by
  refine ⟨horder, fun hn => by rw [hnodes]; exact Arena.map_wellFormed _ _ hn, fun h => ?_⟩
  unfold node?
  rw [hnodes, Arena.get?_map]
  cases n.nodes.get? h with
  | none => exact .none
  | some x => exact .some (hf x)

theorem Keeps.trans {n m l : Network} (hnm : n.Keeps m) (hml : m.Keeps l) : n.Keeps l := by
  refine ⟨hml.order.trans hnm.order, fun hn => hml.arena (hnm.arena hn), fun h => ?_⟩
  have hfirst := hnm.node h
  have hsecond := hml.node h
  generalize n.node? h = x, m.node? h = y, l.node? h = z at hfirst hsecond
  cases hfirst with
  | none => exact hsecond
  | some hxy =>
    cases hsecond with
    | some hyz => exact .some (hxy.trans hyz)

/-! ### What follows -/

/-- A node after the edit is the one of its handle before. -/
theorem Keeps.before {n m : Network} (hk : n.Keeps m) (h : NodeHandle) (y : GraphNode)
    (hy : m.node? h = some y) : ∃ x, n.node? h = some x ∧ x.Keeps y := by
  have hrel := hk.node h
  rw [hy] at hrel
  generalize n.node? h = x at hrel
  cases hrel with
  | some hxy => exact ⟨_, rfl, hxy⟩

theorem Keeps.after {n m : Network} (hk : n.Keeps m) (h : NodeHandle) (x : GraphNode)
    (hx : n.node? h = some x) : ∃ y, m.node? h = some y ∧ x.Keeps y := by
  have hrel := hk.node h
  rw [hx] at hrel
  generalize m.node? h = y at hrel
  cases hrel with
  | some hxy => exact ⟨_, rfl, hxy⟩

/-- A guid names the same node after the edit. -/
theorem Keeps.handleOf {n m : Network} (hk : n.Keeps m) (guid : String) :
    m.handleOf guid = n.handleOf guid := by
  have hnode : ∀ h, m.nodes.get? h = (n.nodes.get? h).map fun x => (m.node? h).getD x := by
    intro h
    have hrel := hk.node h
    unfold node? at hrel ⊢
    generalize n.nodes.get? h = x, m.nodes.get? h = y at hrel
    cases hrel with
    | none => rfl
    | some hxy => rfl
  unfold Network.handleOf
  rw [Arena.toList_eq_map n.nodes m.nodes _ hnode, List.find?_map, Option.map_map]
  congr 1
  refine List.find?_congr fun e he => ?_
  obtain ⟨y, hy, hxy⟩ := hk.after e.1 e.2 ((Arena.mem_toList_iff n.nodes e.1 e.2).mp he)
  simp [hy, hxy.guid]

theorem Keeps.sound {n m : Network} (hk : n.Keeps m) (hn : n.Sound) : m.Sound := by
  refine hn.congr (hk.arena hn.arena) hk.order fun h => ⟨?_, ?_⟩
  · rintro ⟨y, hy⟩
    obtain ⟨x, hx, _⟩ := hk.before h y hy
    exact ⟨x, hx⟩
  · rintro ⟨x, hx⟩
    obtain ⟨y, hy, _⟩ := hk.after h x hx
    exact ⟨y, hy⟩

theorem Keeps.recorded {n m : Network} (hk : n.Keeps m) (hn : n.Recorded) : m.Recorded := by
  intro h y hy q hq link hlink
  obtain ⟨x, hx, hxy⟩ := hk.before h y hy
  obtain ⟨p, hp, hp'⟩ := hxy.links q hq link hlink
  rw [hxy.dependencies]
  exact hn h x hx p hp link hp'

/-- What the search sees of a node. -/
def standing (e : NodeHandle × GraphNode) : List NodeHandle × ExecutionPath × String :=
  (e.2.dependencies, e.2.descriptor.path, e.2.guid)

/-- The dependency relation only looks at the order and at what the nodes depend on. -/
theorem dependencies_congr (n m : Network) (horder : m.order = n.order)
    (hstanding : m.placed.map standing = n.placed.map standing) :
    m.dependencies = n.dependencies := by
  -- written with `standing`, the relation shows what it depends on
  have hindex : m.indexOf = n.indexOf := by
    funext h
    unfold indexOf
    rw [horder]
  have hview : ∀ l : Network, l.dependencies =
      ⟨((l.placed.map standing).map fun e => e.1.filterMap l.indexOf).toArray,
        ((l.placed.map standing).map fun e => decide (e.2.1 = .forward)).toArray,
        ((l.placed.map standing).map fun e => e.2.2).toArray⟩ := by
    intro l
    simp only [dependencies, standing, List.map_map, Function.comp_def]
    congr
  rw [hview m, hview n, hstanding, hindex]

theorem Keeps.dependencies {n m : Network} (hk : n.Keeps m) : m.dependencies = n.dependencies := by
  apply dependencies_congr n m hk.order
  unfold placed
  rw [hk.order, List.map_filterMap, List.map_filterMap]
  apply congrArg (List.filterMap · n.order)
  funext h
  have hrel := hk.node h
  generalize n.node? h = x, m.node? h = y at hrel
  cases hrel with
  | none => rfl
  | some hxy => simp [standing, hxy.dependencies, hxy.descriptor, hxy.guid]

end Network

/-! ## Section 2: Edits of a graph -/

/-- Records, slots and values may differ, and all that is not in the network. -/
structure Graph.Keeps (g k : Graph) : Prop where
  network : g.toNetwork.Keeps k.toNetwork
  paths : k.paths = g.paths
  compiled : k.compiled = g.compiled

namespace Graph

theorem Keeps.refl (g : Graph) : g.Keeps g := ⟨.of_nodes rfl rfl, rfl, rfl⟩

theorem Keeps.trans {g k l : Graph} (hgk : g.Keeps k) (hkl : k.Keeps l) : g.Keeps l :=
  ⟨hgk.network.trans hkl.network, hkl.paths.trans hgk.paths, hkl.compiled.trans hgk.compiled⟩

/-- Laying out changes slots and values. -/
theorem layOut_graph (g : Graph) (h : NodeHandle) (s : Store) :
    (g.layOut h s).1 = { g with nodes := g.nodes.modify h GraphNode.laidOut } := by
  unfold layOut
  cases hx : g.node? h with
  | none =>
    have hnone : ∀ x, g.nodes.get? h = some x → x.laidOut = x := by
      intro x hx'
      exact absurd (hx.symm.trans hx') (by simp)
    rw [Arena.modify_eq_self _ h _ hnone]
    cases g
    rfl
  | some x => rfl

theorem layOut_keeps (g : Graph) (h : NodeHandle) (s : Store) : g.Keeps (g.layOut h s).1 := by
  rw [layOut_graph]
  exact ⟨.of_modify h GraphNode.laidOut rfl rfl GraphNode.keeps_laidOut, rfl, rfl⟩

theorem modifyRecords_keeps (g : Graph) (h : NodeHandle) (f : List PortData → List PortData) :
    g.Keeps (g.modifyRecords h f) :=
  ⟨.of_modify h _ rfl rfl fun x => x.keeps_records (f x.records), rfl, rfl⟩

theorem layOutAll_keeps (g : Graph) (hs : List NodeHandle) (s : Store) :
    g.Keeps (g.layOutAll hs s).1 := by
  induction hs generalizing g s with
  | nil => exact .refl g
  | cons h rest ih => exact (g.layOut_keeps h s).trans (ih _ _)

theorem addIncomingSlots_keeps (g : Graph) (s : Store) : g.Keeps (g.addIncomingSlots s).1 := by
  -- the slots are recorded one after the other, then their nodes are laid out
  have hrecord : ∀ (missing : List MissingSlot) (k : Graph), k.Keeps
      (missing.foldl (fun g m => g.modifyRecords m.handle (recordSlot m.port m.index)) k) := by
    intro missing
    induction missing with
    | nil => intro k; exact .refl k
    | cons m rest ih => intro k; exact (k.modifyRecords_keeps _ _).trans (ih _)
  exact (hrecord _ g).trans (layOutAll_keeps _ _ _)

theorem addVariables_keeps (g : Graph) (data : List VariableData) (s : Store) :
    g.Keeps (g.addVariables data s).1 := by
  induction data generalizing g s with
  | nil => exact .refl g
  | cons d rest ih =>
    have hfirst : ∀ (blackboard : Blackboard) (t : Store),
        g.Keeps (addVariables { g with blackboard := blackboard } rest t).1 := by
      intro blackboard t
      have hboard : g.Keeps { g with blackboard := blackboard } := ⟨.of_nodes rfl rfl, rfl, rfl⟩
      exact hboard.trans (ih _ t)
    exact hfirst _ _

/-- Opening a slot records it and lays its node out, if it is one of an array port and is not
    there. -/
theorem openSlot_cases (g : Graph) (target : SlotRef) (s : Store) :
    (g.openSlot target s = (g, s) ∧ ∀ k y, g.handleOf target.guid = some k → g.node? k = some y →
      y.descriptor.isArray target.port = true →
        (y.port? target.port target.index).isSome = true) ∨
    ∃ k y, g.handleOf target.guid = some k ∧ g.node? k = some y ∧
      y.descriptor.isArray target.port = true ∧ y.port? target.port target.index = none ∧
      g.openSlot target s
        = (g.modifyRecords k (· ++ [{ name := target.port, index := target.index }])).layOut k s := by
  unfold openSlot
  cases hh : g.handleOf target.guid with
  | none => exact .inl ⟨rfl, fun k y hk => by cases hk⟩
  | some h =>
    cases hx : g.node? h with
    | none =>
      refine .inl ⟨?_, fun k y hk hy => ?_⟩
      · simp only [hx]
        rfl
      · cases hk
        rw [hx] at hy
        cases hy
    | some x =>
      simp only [hx]
      split
      · rename_i hopens
        obtain ⟨harray, hnone⟩ := Bool.and_eq_true_iff.mp hopens
        exact .inr ⟨h, x, rfl, hx, harray, Option.isNone_iff_eq_none.mp hnone, rfl⟩
      · rename_i hthere
        refine .inl ⟨rfl, fun k y hk hy harray => ?_⟩
        cases hk
        rw [hx] at hy
        cases hy
        simpa [harray, Option.isSome_iff_ne_none] using hthere

theorem openSlot_keeps (g : Graph) (target : SlotRef) (s : Store) :
    g.Keeps (g.openSlot target s).1 := by
  rcases g.openSlot_cases target s with ⟨heq, _⟩ | ⟨k, _, _, _, _, _, heq⟩
  · rw [heq]
    exact .refl g
  · rw [heq]
    exact (g.modifyRecords_keeps k _).trans (layOut_keeps _ k s)

/-- A connection can be recorded: both ends are nodes, and it starts at an output. -/
structure Connects (g : Graph) (source target : SlotRef) (h : NodeHandle) (x : GraphNode)
    (d : PortDescriptor) : Prop where
  target : ∃ k, g.handleOf target.guid = some k
  handle : g.handleOf source.guid = some h
  node : g.node? h = some x
  port : x.descriptor.port? source.port = some d
  output : d.direction = .output

/-- The records of an output slot with a connection. -/
def connectionRecord (source target : SlotRef) : List PortData → List PortData :=
  NodeData.modifyRecord source.port source.index
    (addConnection ⟨target.guid, target.port, target.index⟩)

/-- Record a connection at its output, and lay the node out anew if the output is an array. -/
def recordConnection (g : Graph) (h : NodeHandle) (d : PortDescriptor) (source target : SlotRef) :
    Work Graph :=
  let recorded := g.modifyRecords h (connectionRecord source target)
  if d.array then recorded.layOut h else pure recorded

/-- Then its other end is opened. -/
theorem Connects.connect_eq {g : Graph} {source target : SlotRef} {h : NodeHandle} {x : GraphNode}
    {d : PortDescriptor} (hc : g.Connects source target h x d) (s : Store) :
    g.connect source target s =
      let recorded := g.recordConnection h d source target s
      let opened := recorded.1.openSlot target recorded.2
      (.ok opened.1.invalidate, opened.2) := by
  obtain ⟨⟨k, hk⟩, hh, hx, hd, hdirection⟩ := hc
  unfold connect recordConnection
  rw [if_neg (by simp [hk])]
  simp only [hh, hx, hd]
  rw [if_neg (by simp [hdirection])]
  cases d.array with
  | true => rfl
  | false => rfl

/-- Everything is checked before a connection is recorded. -/
theorem connect_cases (g : Graph) (source target : SlotRef) (s : Store) :
    (∃ e, g.connect source target s = (.error e, s)) ∨
      ∃ h x d, g.Connects source target h x d := by
  unfold connect
  cases hk : g.handleOf target.guid with
  | none => exact .inl ⟨_, rfl⟩
  | some k =>
    rw [if_neg (by simp)]
    cases hh : g.handleOf source.guid with
    | none => exact .inl ⟨_, rfl⟩
    | some h =>
      cases hx : g.node? h with
      | none =>
        simp only [hx]
        exact .inl ⟨_, rfl⟩
      | some x =>
        cases hd : x.descriptor.port? source.port with
        | none =>
          simp only [hx, hd]
          exact .inl ⟨_, rfl⟩
        | some d =>
          simp only [hx, hd]
          by_cases hdirection : d.direction = .output
          · exact .inr ⟨h, x, d, ⟨k, hk⟩, hh, hx, hd, hdirection⟩
          · rw [if_pos hdirection]
            exact .inl ⟨_, rfl⟩

/-- What a connection that is recorded makes of the graph. -/
theorem exists_of_connect (g : Graph) (source target : SlotRef) (s : Store) (g' : Graph)
    (hconnect : (g.connect source target s).1 = .ok g') :
    ∃ h x d, g.Connects source target h x d ∧
      g' = ((g.recordConnection h d source target s).1.openSlot target
        (g.recordConnection h d source target s).2).1.invalidate := by
  rcases g.connect_cases source target s with ⟨e, heq⟩ | ⟨h, x, d, hc⟩
  · rw [heq] at hconnect
    cases hconnect
  · rw [hc.connect_eq s] at hconnect
    exact ⟨h, x, d, hc, (Except.ok.inj hconnect).symm⟩

theorem recordConnection_keeps (g : Graph) (h : NodeHandle) (d : PortDescriptor)
    (source target : SlotRef) (s : Store) : g.Keeps (g.recordConnection h d source target s).1 := by
  unfold recordConnection
  cases d.array with
  | true => exact (g.modifyRecords_keeps h _).trans (layOut_keeps _ h s)
  | false => exact g.modifyRecords_keeps h _

/-- A connection is recorded at the nodes, and the graph has to be compiled again. -/
theorem connect_invalidates (g : Graph) (source target : SlotRef) (s : Store) (g' : Graph)
    (hconnect : (g.connect source target s).1 = .ok g') : ∃ k, g.Keeps k ∧ g' = k.invalidate := by
  obtain ⟨h, x, d, _, rfl⟩ := g.exists_of_connect source target s g' hconnect
  exact ⟨_, (g.recordConnection_keeps h d source target s).trans (openSlot_keeps _ target _), rfl⟩

/-- A slot of an array port that its node does not have. -/
def Lacks (g : Graph) (slot : SlotRef) : Prop :=
  ∃ h x d, g.handleOf slot.guid = some h ∧ g.node? h = some x ∧
    x.descriptor.port? slot.port = some d ∧ d.array = true ∧ x.portIndex slot.port slot.index = none

/-- The record of a slot with a new constant. -/
def constantRecord (slot : SlotRef) (v : Value) (records : List PortData) : List PortData :=
  NodeData.modifyRecord slot.port slot.index (fun r => { r with value := some v.toJson }) records

/-- A constant is refused, or recorded at a declared port.  Then it is written where the node has
    the slot; else the node is laid out anew if the port is an array, and the constant is refused
    after all if it is none. -/
theorem setConstant_eq (g : Graph) (slot : SlotRef) (v : Value) (s : Store) :
    (∃ e, g.setConstant slot v s = ((g, .error e), s)) ∨
    ∃ h x d, g.handleOf slot.guid = some h ∧ g.node? h = some x ∧
      x.descriptor.port? slot.port = some d ∧
      ((∃ i, x.portIndex slot.port slot.index = some i ∧ g.setConstant slot v s
          = ((g.modifyRecords h (constantRecord slot v), .ok ()), s.writeCell g.id ⟨h, i⟩ v)) ∨
        (x.portIndex slot.port slot.index = none ∧ d.array = true ∧ g.setConstant slot v s
          = ((((g.modifyRecords h (constantRecord slot v)).layOut h s).1, .ok ()),
            ((g.modifyRecords h (constantRecord slot v)).layOut h s).2)) ∨
        (x.portIndex slot.port slot.index = none ∧ d.array = false ∧ ∃ e, g.setConstant slot v s
          = ((g.modifyRecords h (constantRecord slot v), .error e), s))) := by
  unfold setConstant
  cases hh : g.handleOf slot.guid with
  | none => exact .inl ⟨_, rfl⟩
  | some h =>
    cases hx : g.node? h with
    | none =>
      simp only [hx]
      exact .inl ⟨_, rfl⟩
    | some x =>
      cases hd : x.descriptor.port? slot.port with
      | none =>
        simp only [hx, hd]
        exact .inl ⟨_, rfl⟩
      | some d =>
        refine .inr ⟨h, x, d, rfl, hx, hd, ?_⟩
        cases hi : x.portIndex slot.port slot.index with
        | some i =>
          simp only [hx, hd, hi]
          exact .inl ⟨i, rfl, rfl⟩
        | none =>
          simp only [hx, hd, hi]
          cases harray : d.array with
          | true => exact .inr (.inl ⟨trivial, rfl, rfl⟩)
          | false => exact .inr (.inr ⟨trivial, rfl, _, rfl⟩)

/-- A constant that is set is recorded, and written or given to a new slot. -/
theorem setConstant_ok {g k : Graph} {slot : SlotRef} {v : Value} {s u : Store}
    (hset : g.setConstant slot v s = ((k, .ok ()), u)) :
    ∃ h x, g.handleOf slot.guid = some h ∧ g.node? h = some x ∧
      ((∃ i, x.portIndex slot.port slot.index = some i ∧
          k = g.modifyRecords h (constantRecord slot v) ∧ u = s.writeCell g.id ⟨h, i⟩ v) ∨
        (x.portIndex slot.port slot.index = none ∧
          (k, u) = (g.modifyRecords h (constantRecord slot v)).layOut h s)) := by
  rcases g.setConstant_eq slot v s with ⟨e, heq⟩ | ⟨h, x, d, hh, hx, _, hresult⟩
  · rw [heq] at hset
    cases hset
  · refine ⟨h, x, hh, hx, ?_⟩
    rcases hresult with ⟨i, hi, heq⟩ | ⟨hi, _, heq⟩ | ⟨_, _, e, heq⟩
    · rw [heq] at hset
      cases hset
      exact .inl ⟨i, hi, rfl, rfl⟩
    · rw [heq] at hset
      cases hset
      exact .inr ⟨hi, rfl⟩
    · rw [heq] at hset
      cases hset

/-- A constant is only recorded, but a node that lacks the slot is laid out anew.  Either
    way the graph stays compiled. -/
theorem setConstant_cases (g : Graph) (slot : SlotRef) (v : Value) (s : Store) :
    (g.setConstant slot v s).1.1 = g ∨
    (∃ h, (g.setConstant slot v s).1.1 = g.modifyRecords h (constantRecord slot v)) ∨
    (g.Lacks slot ∧ ∃ h, (g.setConstant slot v s).1.1 =
      let k := g.modifyRecords h (constantRecord slot v)
      { k with nodes := k.nodes.modify h GraphNode.laidOut }) := by
  rcases g.setConstant_eq slot v s with ⟨e, heq⟩ | ⟨h, x, d, hh, hx, hd, hresult⟩
  · rw [heq]
    exact .inl rfl
  · rcases hresult with ⟨i, _, heq⟩ | ⟨hi, harray, heq⟩ | ⟨_, _, e, heq⟩
    · rw [heq]
      exact .inr (.inl ⟨h, rfl⟩)
    · rw [heq]
      exact .inr (.inr ⟨⟨h, x, d, hh, hx, hd, harray, hi⟩, h, layOut_graph _ h s⟩)
    · rw [heq]
      exact .inr (.inl ⟨h, rfl⟩)

theorem setConstant_keeps (g : Graph) (slot : SlotRef) (v : Value) (s : Store) :
    g.Keeps (g.setConstant slot v s).1.1 := by
  rcases g.setConstant_cases slot v s with heq | ⟨h, heq⟩ | ⟨_, h, heq⟩
  · rw [heq]
    exact .refl g
  · rw [heq]
    exact g.modifyRecords_keeps h _
  · rw [heq]
    exact (g.modifyRecords_keeps h _).trans
      ⟨.of_modify h GraphNode.laidOut rfl rfl GraphNode.keeps_laidOut, rfl, rfl⟩

end Graph

/-! ## Section 3: Which nodes there are -/

/-- What holds of every network: the order lists the nodes, and links are recorded. -/
structure Network.Consistent (n : Network) : Prop where
  sound : n.Sound
  recorded : n.Recorded

namespace Network

theorem Keeps.consistent {n m : Network} (hk : n.Keeps m) (hn : n.Consistent) : m.Consistent :=
  ⟨hk.sound hn.sound, hk.recorded hn.recorded⟩

/-- A network with a new node, that is listed last. -/
theorem Consistent.insert {n m : Network} (hn : n.Consistent) (x : GraphNode)
    (hx : ∀ p ∈ x.ports, p.link = none) (hnodes : m.nodes = (n.nodes.insert x).2)
    (horder : m.order = n.order ++ [(n.nodes.insert x).1]) : m.Consistent := by
  have hget := hn.sound.node?_insert x hnodes
  have hfresh := hn.sound.insert_not_mem_order x
  refine ⟨⟨?_, ?_, fun k => ?_⟩, ?_⟩
  · rw [hnodes]
    exact Arena.insert_wellFormed _ _ hn.sound.arena
  · rw [horder, List.nodup_append]
    refine ⟨hn.sound.nodup_order, List.nodup_singleton _, fun a ha b hb => ?_⟩
    rw [List.mem_singleton.mp hb]
    intro hab
    exact hfresh (hab ▸ ha)
  · rw [horder, List.mem_append, List.mem_singleton, hget, hn.sound.mem_order_iff]
    by_cases hk : k = (n.nodes.insert x).1
    · simp [hk]
    · simp [hk]
  · -- the new node has no links, and all others have the links that they had
    intro k y hy p hp link hlink
    rw [hget] at hy
    by_cases hk : k = (n.nodes.insert x).1
    · rw [if_pos hk] at hy
      cases hy
      rw [hx p hp] at hlink
      cases hlink
    · rw [if_neg hk] at hy
      exact hn.recorded k y hy p hp link hlink

/-- A network without one of its nodes. -/
theorem Consistent.remove {n m : Network} (hn : n.Consistent) (h : NodeHandle) (x : GraphNode)
    (hremove : n.nodes.remove h = some (x, m.nodes))
    (horder : m.order = n.order.filter (· ≠ h)) : m.Consistent := by
  have hget : ∀ k, m.node? k = if k = h then none else n.node? k :=
    fun k => (Arena.get?_remove n.nodes m.nodes h k x hremove).2
  refine ⟨⟨Arena.remove_wellFormed _ _ _ _ hremove hn.sound.arena, ?_, fun k => ?_⟩, ?_⟩
  · rw [horder]
    exact hn.sound.nodup_order.filter _
  · rw [horder, List.mem_filter, hn.sound.mem_order_iff, hget]
    by_cases hk : k = h
    · simp [hk]
    · simp [hk]
  · intro k y hy p hp link hlink
    rw [hget] at hy
    by_cases hk : k = h
    · rw [if_pos hk] at hy
      cases hy
    · rw [if_neg hk] at hy
      exact hn.recorded k y hy p hp link hlink

end Network

namespace Graph

theorem ensureGuid_node (g : Graph) (x : GraphNode) (s : Store) :
    ∃ guid, ∃ t : Store, g.ensureGuid x s = ({ x with guid := guid }, t) ∧ t.graphs = s.graphs := by
  unfold ensureGuid
  split
  · exact ⟨(s.freshGuid).1, _, rfl, rfl⟩
  · exact ⟨x.guid, s, rfl, rfl⟩

/-- The node is stored under a guid of its own, its slots hold their first values, and the
    graph has to be compiled again. -/
theorem insert_eq (g : Graph) (x : GraphNode) (s : Store) :
    ∃ y, (∃ guid, y = { x with guid := guid }) ∧ ∃ t : Store, t.graphs = s.graphs ∧ g.insert x s =
      (((g.nodes.insert y).1, { g with
          nodes := (g.nodes.insert y).2, order := g.order ++ [(g.nodes.insert y).1] }.invalidate),
        t.fill g.id (g.nodes.insert y).1 x.initialValues) := by
  obtain ⟨guid, t, hguid, ht⟩ := g.ensureGuid_node x s
  refine ⟨{ x with guid := guid }, ⟨guid, rfl⟩, ?_⟩
  unfold insert
  simp only [bind, StateT.bind, hguid]
  cases hx : x.invalid with
  | none => exact ⟨t, ht, rfl⟩
  | some invalid => exact ⟨t.report .warn _, ht, rfl⟩

theorem insert_consistent (g : Graph) (x : GraphNode) (s : Store) (hg : g.toNetwork.Consistent)
    (hx : ∀ p ∈ x.ports, p.link = none) : (g.insert x s).1.2.toNetwork.Consistent := by
  obtain ⟨_, ⟨guid, rfl⟩, t, _, heq⟩ := g.insert_eq x s
  rw [heq]
  exact hg.insert { x with guid := guid } hx rfl rfl

theorem addNode_consistent (g : Graph) (registry : Registry) (data : NodeData) (s : Store)
    (hg : g.toNetwork.Consistent) : (g.addNode registry data s).1.2.toNetwork.Consistent :=
  insert_consistent _ _ _ hg fun p hp => GraphNode.link_portsOf _ _ p hp

theorem addLive_consistent (g : Graph) (guid : String) (descriptor : NodeDescriptor)
    (behavior : Behavior) (s : Store) (hg : g.toNetwork.Consistent) :
    (g.addLive guid descriptor behavior s).1.2.toNetwork.Consistent :=
  insert_consistent _ _ _ hg fun p hp => GraphNode.link_portsOf _ _ p hp

theorem removeNode_cases (g : Graph) (vs : Variables) (h : NodeHandle) :
    (g.removeNode vs h).2 = g ∨
    ((g.removeNode vs h).2.toNetwork.paths = none ∧ (g.removeNode vs h).2.compiled = false) := by
  unfold removeNode
  cases g.nodes.remove h with
  | none => exact .inl rfl
  | some r => exact .inr ⟨rfl, rfl⟩

theorem removeNode_consistent (g : Graph) (vs : Variables) (h : NodeHandle)
    (hg : g.toNetwork.Consistent) : (g.removeNode vs h).2.toNetwork.Consistent := by
  unfold removeNode
  cases hr : g.nodes.remove h with
  | none => exact hg
  | some r =>
    obtain ⟨x, nodes⟩ := r
    have hremoved : Network.Consistent
        { g.toNetwork with nodes := nodes, order := g.order.filter (· ≠ h) } :=
      hg.remove h x hr rfl
    -- the records of the other nodes lose their connections to the removed one
    dsimp only
    refine Network.Keeps.consistent ?_ hremoved
    exact .of_map _ rfl rfl fun y => y.keeps_records _

/-! ## Section 4: Hydrating and compiling -/

theorem create_node? (name : String) (s : Store) (h : NodeHandle) :
    (create name s).1.toNetwork.node? h = none := by
  show (Arena.get? {} h : Option GraphNode) = none
  simp [Arena.get?]

theorem create_consistent (name : String) (s : Store) : (create name s).1.toNetwork.Consistent := by
  refine ⟨⟨Arena.wellFormed_empty, List.nodup_nil, fun h => ⟨fun hin => ?_, ?_⟩⟩, ?_⟩
  · cases hin
  · rintro ⟨x, hx⟩
    rw [create_node?] at hx
    cases hx
  · intro h x hx
    rw [create_node?] at hx
    cases hx

theorem addNodes_consistent (g : Graph) (registry : Registry) (data : List NodeData) (s : Store)
    (hg : g.toNetwork.Consistent) : (g.addNodes registry data s).1.toNetwork.Consistent := by
  induction data generalizing g s with
  | nil => exact hg
  | cons d rest ih => exact ih _ _ (g.addNode_consistent registry d s hg)

/-- Neither compiled nor with known paths. -/
structure Fresh (g : Graph) : Prop where
  paths : g.paths = none
  compiled : g.compiled = false

theorem Keeps.fresh {g k : Graph} (hk : g.Keeps k) (hg : g.Fresh) : k.Fresh :=
  ⟨hk.paths.trans hg.paths, hk.compiled.trans hg.compiled⟩

theorem invalidate_fresh (g : Graph) : g.invalidate.Fresh := ⟨rfl, rfl⟩

theorem insert_fresh (g : Graph) (x : GraphNode) (s : Store) : (g.insert x s).1.2.Fresh := by
  obtain ⟨_, _, t, _, heq⟩ := g.insert_eq x s
  rw [heq]
  exact invalidate_fresh _

theorem addNodes_fresh (g : Graph) (registry : Registry) (data : List NodeData) (s : Store)
    (hg : g.Fresh) : (g.addNodes registry data s).1.Fresh := by
  induction data generalizing g s with
  | nil => exact hg
  | cons d rest ih => exact ih _ _ (insert_fresh _ _ _)

/-- Hydrate a graph up to its local functions. -/
def placeAll (registry : Registry) (data : GraphData) : Work Graph := do
  let g ← create data.name
  let g ← g.addNodes registry data.nodes
  let g ← g.addVariables data.vars
  g.addIncomingSlots

theorem ofData_eq (registry : Registry) (data : GraphData) (s : Store) :
    ofData registry data s =
      let placed := placeAll registry data s
      let made := functionsOfData registry data.functions placed.2
      ({ placed.1 with groups := data.nodeGroups, functions := made.1 }, made.2) := by
  cases data
  unfold ofData
  rfl

/-- After its nodes are placed, a graph is only given records, slots and variables. -/
theorem ofData_keeps (registry : Registry) (data : GraphData) (s : Store) :
    ((create data.name s).1.addNodes registry data.nodes (create data.name s).2).1.Keeps
      (ofData registry data s).1 := by
  have hslots : ∀ (k : Graph) (t : Store), k.Keeps
      ((k.addVariables data.vars t).1.addIncomingSlots (k.addVariables data.vars t).2).1 := by
    intro k t
    exact (k.addVariables_keeps data.vars t).trans (addIncomingSlots_keeps _ _)
  have hplaced : Keeps _ (placeAll registry data s).1 := hslots _ _
  rw [ofData_eq]
  exact hplaced.trans ⟨.of_nodes rfl rfl, rfl, rfl⟩

theorem ofData_consistent (registry : Registry) (data : GraphData) (s : Store) :
    (ofData registry data s).1.toNetwork.Consistent :=
  (ofData_keeps registry data s).network.consistent
    (addNodes_consistent _ registry data.nodes _ (create_consistent data.name s))

theorem ofData_fresh (registry : Registry) (data : GraphData) (s : Store) :
    (ofData registry data s).1.Fresh :=
  (ofData_keeps registry data s).fresh (addNodes_fresh _ registry data.nodes _ ⟨rfl, rfl⟩)

/-- The functions decide whether a graph counts as compiled, not what its network is. -/
theorem compile_network (g : Graph) (conversions : Conversions) (s : Store) (n : Network)
    (hfind : findPaths (g.link conversions).1 = .ok n) :
    (g.compile conversions s).1.1.toNetwork = n := by
  obtain ⟨network, groups, functions, compiled⟩ := g
  obtain ⟨t, ht⟩ : ∃ t, prepare conversions network s
      = (((network.link conversions).1, (network.link conversions).2.1), t) := ⟨_, rfl⟩
  obtain ⟨fs, result, t', hfunctions⟩ : ∃ fs result t',
      compileFunctions conversions n.name functions t = ((fs, result), t') := ⟨_, _, _, rfl⟩
  unfold compile
  simp only [bind, StateT.bind, ht, hfind, hfunctions]
  cases result with
  | error e => rfl
  | ok _ => rfl

theorem compile_cycle (g : Graph) (conversions : Conversions) (s : Store) (e : GraphError)
    (hfind : findPaths (g.link conversions).1 = .error e) :
    (g.compile conversions s).1.1.toNetwork = (g.link conversions).1 ∧
      (g.compile conversions s).1.1.compiled = false ∧
      (g.compile conversions s).1.2 = .error e := by
  obtain ⟨network, groups, functions, compiled⟩ := g
  obtain ⟨t, ht⟩ : ∃ t, prepare conversions network s
      = (((network.link conversions).1, (network.link conversions).2.1), t) := ⟨_, rfl⟩
  unfold compile
  simp only [bind, StateT.bind, ht, hfind]
  exact ⟨rfl, rfl, rfl⟩

/-- A compilation links the network.  Then it reuses the paths, or finds them, or stops at
    a cycle. -/
theorem compile_cases (g : Graph) (conversions : Conversions) (s : Store) :
    (∃ ps, g.paths = some ps ∧
      (g.compile conversions s).1.1.toNetwork = (g.link conversions).1) ∨
    (g.paths = none ∧ ∃ ps, (g.link conversions).1.dependencies.paths = .ok ps ∧
      (g.compile conversions s).1.1.toNetwork
        = { (g.link conversions).1 with paths := some ps }) ∨
    (g.paths = none ∧ ∃ e, (g.compile conversions s).1.1.toNetwork = (g.link conversions).1 ∧
      (g.compile conversions s).1.1.compiled = false ∧
      (g.compile conversions s).1.2 = .error e) := by
  have hlinked := g.link_paths conversions
  cases hpaths : g.paths with
  | some ps =>
    rw [hpaths] at hlinked
    have hfind : findPaths (g.link conversions).1 = .ok (g.link conversions).1 := by
      unfold findPaths
      rw [hlinked]
    exact .inl ⟨ps, rfl, g.compile_network conversions s _ hfind⟩
  | none =>
    rw [hpaths] at hlinked
    have hfind : findPaths (g.link conversions).1 = (g.link conversions).1.dependencies.paths.map
        fun paths => { (g.link conversions).1 with paths := some paths } := by
      unfold findPaths
      rw [hlinked]
    cases hfound : (g.link conversions).1.dependencies.paths with
    | error e =>
      rw [hfound] at hfind
      exact .inr (.inr ⟨rfl, e, g.compile_cycle conversions s e hfind⟩)
    | ok ps =>
      rw [hfound] at hfind
      exact .inr (.inl ⟨rfl, ps, rfl, g.compile_network conversions s _ hfind⟩)

theorem compile_consistent (g : Graph) (conversions : Conversions) (s : Store)
    (hg : g.toNetwork.Consistent) : (g.compile conversions s).1.1.toNetwork.Consistent := by
  have hlink : (g.link conversions).1.Consistent :=
    ⟨g.link_sound conversions hg.sound, g.link_recorded conversions⟩
  rcases g.compile_cases conversions s with ⟨_, _, heq⟩ | ⟨_, _, _, heq⟩ | ⟨_, _, heq, _⟩
  · rw [heq]
    exact hlink
  · rw [heq]
    exact Network.Keeps.consistent (n := (g.link conversions).1) (.of_nodes rfl rfl) hlink
  · rw [heq]
    exact hlink

end Graph

/-! ## Section 5: Runs of operations -/

namespace Graph

/-- A live graph and the store. -/
abbrev State := Graph × Store

/-- What can be done with a live graph. -/
inductive Operation where
  | addNode (registry : Registry) (data : NodeData)
  | addLive (guid : String) (descriptor : NodeDescriptor) (behavior : Behavior)
  | removeNode (h : NodeHandle)
  | connect (source target : SlotRef)
  | setConstant (slot : SlotRef) (v : Value)
  | addFunction (name : String) (f : Graph)
  | addGroup (group : NodeGroup)
  | clearPaths
  | dispose
  | compile (conversions : Conversions)
  /-- Other work on the store, such as a dispatch. -/
  | elsewhere (work : Store → Store)

/-- Do an operation.  A refused one changes nothing. -/
def Operation.apply (op : Operation) (st : State) : State :=
  let (g, s) := st
  match op with
  | .addNode registry data => ((g.addNode registry data s).1.2, (g.addNode registry data s).2)
  | .addLive guid descriptor behavior =>
    ((g.addLive guid descriptor behavior s).1.2, (g.addLive guid descriptor behavior s).2)
  | .removeNode h => ((g.removeNode s.vars h).2, s)
  | .connect source target =>
    match g.connect source target s with
    | (.ok g', s) => (g', s)
    | (.error _, s) => (g, s)
  | .setConstant slot v => ((g.setConstant slot v s).1.1, (g.setConstant slot v s).2)
  | .addFunction name f => (g.addFunction name f, s)
  | .addGroup group => (g.addGroup group, s)
  | .clearPaths => (g.clearPaths, s)
  | .dispose => (g, (g.dispose s).2)
  | .compile conversions => ((g.compile conversions s).1.1, (g.compile conversions s).2)
  | .elsewhere work => (g, work s)

/-- A hydrated graph. -/
def hydrated (registry : Registry) (data : GraphData) (s : Store) : State := ofData registry data s

/-- Do operations in order. -/
def run (ops : List Operation) (st : State) : State := ops.foldl (fun st op => op.apply st) st

theorem run_append (first second : List Operation) (st : State) :
    run (first ++ second) st = run second (run first st) := List.foldl_append

theorem run_snoc (ops : List Operation) (op : Operation) (st : State) :
    run (ops ++ [op]) st = op.apply (run ops st) := run_append ops [op] st

theorem apply_consistent (op : Operation) (st : State) (hst : st.1.toNetwork.Consistent) :
    (op.apply st).1.toNetwork.Consistent := by
  obtain ⟨g, s⟩ := st
  cases op with
  | addNode registry data => exact g.addNode_consistent registry data s hst
  | addLive guid descriptor behavior => exact g.addLive_consistent guid descriptor behavior s hst
  | removeNode h => exact g.removeNode_consistent s.vars h hst
  | connect source target =>
    unfold Operation.apply
    dsimp only
    split
    · rename_i g' s' heq
      obtain ⟨k, hk, rfl⟩ := g.connect_invalidates source target s g' (by rw [heq])
      exact Network.Keeps.consistent (n := k.toNetwork) (.of_nodes rfl rfl) (hk.network.consistent hst)
    · exact hst
  | setConstant slot v => exact (g.setConstant_keeps slot v s).network.consistent hst
  | addFunction name f => exact hst
  | addGroup group => exact hst
  | clearPaths => exact Network.Keeps.consistent (n := g.toNetwork) (.of_nodes rfl rfl) hst
  | dispose => exact hst
  | compile conversions => exact g.compile_consistent conversions s hst
  | elsewhere work => exact hst

/-- In every state that is reached the order lists the nodes and links are recorded. -/
theorem run_consistent (ops : List Operation) (st : State) (hst : st.1.toNetwork.Consistent) :
    (run ops st).1.toNetwork.Consistent := by
  induction ops generalizing st with
  | nil => exact hst
  | cons op rest ih => exact ih (op.apply st) (apply_consistent op st hst)

end Graph
end FlowGraph
