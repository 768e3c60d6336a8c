import FlowGraph.Proofs.Graph.Normal
import FlowGraph.Proofs.Graph.Records
import FlowGraph.Proofs.Graph.Hydration

/-! # Where hydrating puts what a graph is made of

    Hydrating a graph whose nodes have guids of their own adds one graph to the store and
    some variables to the table, and leaves everything else alone (`Store.Works`).  First
    come the variables of the nodes, in their order, and then those of the blackboard
    (`Graph.Placed`); every slot has its first value.

    The slots of a node do not depend on the order of the nodes: each is one that the node's
    records ask for, or one that some connection leads to (`GraphNode.Opens`). -/

namespace FlowGraph

/-! ## Section 1: Work on one graph -/

namespace Store

/-- The cells of a node. -/
def row (s : Store) (g : GraphId) (i : Nat) : Option (Array Value) :=
  (s.graphs[g]?).bind (·.cells[i]?)

/-- Only the cells of one graph, the variables, the guids and the log are worked on. -/
structure Works (g : GraphId) (s t : Store) : Prop where
  objects : t.objects = s.objects
  globals : t.globals = s.globals
  scheduler : t.scheduler = s.scheduler
  dispatchesMade : t.dispatchesMade = s.dispatchesMade
  size : t.graphs.size = s.graphs.size
  others : ∀ k, k ≠ g → t.graphs[k]? = s.graphs[k]?
  disposed : t.isDisposed g = s.isDisposed g

variable {g : GraphId} {s t u : Store}

theorem Works.refl (s : Store) : Works g s s := ⟨rfl, rfl, rfl, rfl, rfl, fun _ _ => rfl, rfl⟩

theorem Works.trans (h : Works g s t) (h' : Works g t u) : Works g s u :=
  ⟨h'.objects.trans h.objects, h'.globals.trans h.globals, h'.scheduler.trans h.scheduler,
    h'.dispatchesMade.trans h.dispatchesMade, h'.size.trans h.size,
    fun k hk => (h'.others k hk).trans (h.others k hk), h'.disposed.trans h.disposed⟩

theorem works_fill (s : Store) (g : GraphId) (h : NodeHandle) (values : List Value) :
    Works g s (s.fill g h values) := by
  refine ⟨rfl, rfl, rfl, rfl, by simp [fill], fun k hk => ?_, ?_⟩
  · unfold fill
    rw [Array.getElem?_modify, if_neg (Ne.symm hk)]
  · unfold fill isDisposed
    rw [Array.getElem?_modify, if_pos rfl]
    cases s.graphs[g]? <;> rfl

theorem row_fill_self (s : Store) (g : GraphId) (h : NodeHandle) (values : List Value)
    (hg : g < s.graphs.size) : (s.fill g h values).row g h.index = some values.toArray := by
  unfold row fill
  simp only [Array.getElem?_modify, ↓reduceIte, Array.getElem?_eq_getElem hg, Option.map_some,
    Option.bind_some, getElem?_setRow_self]

theorem row_fill_of_ne (s : Store) (g : GraphId) (h : NodeHandle) (values : List Value) (i : Nat)
    (row : Array Value) (hne : i ≠ h.index) (hrow : s.row g i = some row) :
    (s.fill g h values).row g i = some row := by
  obtain ⟨x, hx, hcells⟩ := Option.bind_eq_some_iff.mp hrow
  unfold Store.row fill
  simp only [Array.getElem?_modify, ↓reduceIte, hx, Option.map_some, Option.bind_some]
  exact getElem?_setRow_of_ne x.cells h.index i values.toArray row hne hcells

end Store

/-- A node was just made from a saved one. -/
structure GraphNode.Newly (registry : Registry) (vs : Variables) (d : NodeData) (x : GraphNode) :
    Prop where
  restores : x.Restores registry vs d
  records : x.records = d.ports
  laidOut : x.LaidOut

namespace Graph

/-- Every slot holds its first value. -/
def Valued (g : Graph) (s : Store) : Prop :=
  ∀ h x, g.node? h = some x → s.row g.id h.index = some x.initialValues.toArray

/-- The node of a handle gets new values, the others keep theirs. -/
theorem Valued.fill {g k : Graph} {s : Store} (hg : g.Valued s) (hid : k.id = g.id) (hlt : g.id < s.graphs.size) (h : NodeHandle) (x : GraphNode)
    (hx : k.node? h = some x)
    (hother : ∀ j y, j ≠ h → k.node? j = some y → g.node? j = some y) :
    k.Valued (s.fill g.id h x.initialValues) := by
  intro j y hy
  rw [hid]
  by_cases hj : j = h
  · subst hj
    rw [hx] at hy
    cases hy
    exact s.row_fill_self g.id j _ hlt
  · have hindex : j.index ≠ h.index := fun hi => hj (Arena.eq_of_index_eq k.nodes j h y x hy hx hi)
    exact s.row_fill_of_ne g.id h _ j.index _ hindex (hg j y (hother j y hj hy))

/-! ## Section 2: Placing a node -/

/-- The variables of a node are added behind the others. -/
theorem makeVariables_eq (guid : String) (fields : Json) (ds : List VariableDescriptor) (s : Store) :
    ∃ log own ids, makeVariables guid fields ds s
        = (ids, { s with vars := ⟨s.vars.cells ++ own⟩, log }) ∧
      own.size = ds.length ∧ ids.map Prod.snd = List.range' s.vars.cells.size ds.length := by
  induction ds generalizing s with
  | nil => exact ⟨s.log, #[], [], rfl, rfl, rfl⟩
  | cons d rest ih =>
    obtain ⟨x, hx⟩ : ∃ x, Variable.ofData (declaredVariable guid fields d).1 = x := ⟨_, rfl⟩
    obtain ⟨log, hstep⟩ : ∃ log, makeVariables guid fields (d :: rest) s
        = ((d.field, s.vars.cells.size)
            :: (makeVariables guid fields rest { s with vars := ⟨s.vars.cells.push x⟩, log }).1,
          (makeVariables guid fields rest { s with vars := ⟨s.vars.cells.push x⟩, log }).2) := by
      rw [← hx]
      exact ⟨_, rfl⟩
    obtain ⟨log', own, ids, hrest, hsize, hids⟩ := ih { s with vars := ⟨s.vars.cells.push x⟩, log }
    rw [hstep, hrest]
    have hcells : s.vars.cells ++ (#[x] ++ own) = s.vars.cells.push x ++ own := by
      rw [← Array.append_assoc, Array.append_singleton]
    refine ⟨log', #[x] ++ own, (d.field, s.vars.cells.size) :: ids, by rw [hcells], ?_, ?_⟩
    · rw [Array.size_append, hsize, Nat.add_comm]
      rfl
    · rw [List.map_cons, hids, Array.size_push]
      rfl

/-- A node with a guid of its own is placed as it is. -/
theorem insert_kept (g : Graph) (x : GraphNode) (s : Store) (hnamed : x.guid ≠ "")
    (hnew : g.handleOf x.guid = none) : ∃ log, g.insert x s = (((g.nodes.insert x).1, { g with
        nodes := (g.nodes.insert x).2, order := g.order ++ [(g.nodes.insert x).1] }.invalidate),
      Store.fill { s with log } g.id (g.nodes.insert x).1 x.initialValues) := by
  rcases g.ensureGuid_cases x s with ⟨_, _, heq⟩ | ⟨htaken, _, _⟩
  · unfold insert
    simp only [bind, StateT.bind, heq]
    cases hinvalid : x.invalid with
    | none => exact ⟨s.log, rfl⟩
    | some invalid => exact ⟨_, rfl⟩
  · rcases htaken with hnone | ⟨k, hk⟩
    · exact absurd hnone hnamed
    · rw [hnew] at hk
      cases hk

/-- The live form of a saved node is placed last, its variables are added behind the others,
    and its slots get their first values. -/
theorem addNode_kept (g : Graph) (registry : Registry) (d : NodeData) (s : Store)
    (hnamed : d.guid ≠ "") (hnew : g.handleOf d.guid = none) :
    ∃ x log own, x.Newly registry ⟨s.vars.cells ++ own⟩ d ∧
      own.size = (registry.resolve d).descriptor.vars.length ∧
      x.vars.map Prod.snd = List.range' s.vars.cells.size own.size ∧
      g.addNode registry d s = (((g.nodes.insert x).1, { g with
          nodes := (g.nodes.insert x).2, order := g.order ++ [(g.nodes.insert x).1] }.invalidate),
        Store.fill { s with vars := ⟨s.vars.cells ++ own⟩, log } g.id (g.nodes.insert x).1
          x.initialValues) := by
  obtain ⟨u, hu⟩ : ∃ u, u = (s.reportAll (registry.resolveNotices d)).reportAll
      (Layout.notices d.guid d.ports (registry.resolve d).descriptor.ports) := ⟨_, rfl⟩
  obtain ⟨_, hdeclares⟩ := makeVariables_declares d.guid d.fields
    (registry.resolve d).descriptor.vars u
  obtain ⟨log, own, ids, hmade, hsize, hids⟩ := makeVariables_eq d.guid d.fields
    (registry.resolve d).descriptor.vars u
  rw [hmade] at hdeclares
  obtain ⟨x, hx, hadd⟩ : ∃ x : GraphNode, x = {
      guid := d.guid
      position := d.position
      type := if (registry.resolve d).redirectedFrom.isSome then (registry.resolve d).identity.text
        else d.type
      identity := (registry.resolve d).identity
      genericArguments := (registry.resolve d).genericArguments
      descriptor := (registry.resolve d).descriptor
      behavior := (registry.resolve d).behavior
      invalid := (registry.resolve d).invalid
      ports := Layout.portsOf d.ports (registry.resolve d).descriptor.ports
      records := d.ports
      vars := ids
      dependencies := [] } ∧
      g.addNode registry d s = g.insert x { s with vars := ⟨s.vars.cells ++ own⟩, log } := by
    refine ⟨_, rfl, ?_⟩
    unfold addNode makeNode
    simp only [bind, StateT.bind, modify, modifyGet, MonadStateOf.modifyGet, StateT.modifyGet, pure,
      StateT.pure]
    rw [← hu, hmade, hu]
    rfl
  obtain ⟨log', hinsert⟩ := g.insert_kept x { s with vars := ⟨s.vars.cells ++ own⟩, log }
    (hx ▸ hnamed) (hx ▸ hnew)
  have huvars : u.vars = s.vars := by
    rw [hu]
    rfl
  rw [huvars] at hids hdeclares
  refine ⟨x, log', own, ?_, hsize, ?_, hadd.trans hinsert⟩
  · rw [hx]
    exact ⟨⟨rfl, rfl, rfl, rfl, rfl, rfl, rfl, hdeclares⟩, rfl, rfl⟩
  · rw [hx, hsize]
    exact hids

/-! ## Section 3: Placing all nodes -/

/-- How many variables some saved nodes have. -/
def ownCount (registry : Registry) (nodes : List NodeData) : Nat :=
  (nodes.map fun d => (registry.resolve d).descriptor.vars.length).sum

/-- Some saved nodes were placed, from a store on that has the graph as its last one. -/
structure Laid (registry : Registry) (s₀ : Store) (done : List NodeData) (g : Graph) (s : Store) :
    Prop where
  consistent : g.toNetwork.Consistent
  last : s₀.graphs.size = g.id + 1
  works : s₀.Works g.id s
  guidsMade : s.guidsMade = s₀.guidsMade
  /-- The variables of the nodes were added, in their order. -/
  vars : ∃ own, s.vars.cells = s₀.vars.cells ++ own ∧ own.size = ownCount registry done
  ids : g.placed.flatMap (fun e => e.2.vars.map Prod.snd)
    = List.range' s₀.vars.cells.size (ownCount registry done)
  nodes : List.Forall₂ (fun d e => e.2.Newly registry s.vars d) done g.placed
  valued : g.Valued s

theorem Laid.known {registry : Registry} {s₀ s : Store} {done : List NodeData} {g : Graph}
    (h : Laid registry s₀ done g s) : g.id < s.graphs.size := by
  rw [h.works.size, h.last]
  exact Nat.lt_succ_self _

theorem extends_append (vs : Variables) (own : Array Variable) :
    vs.Extends ⟨vs.cells ++ own⟩ := by
  intro v x hx
  have hlt : v < vs.cells.size := (Array.getElem?_eq_some_iff.mp hx).1
  show (vs.cells ++ own)[v]? = some x
  rw [Array.getElem?_append_left hlt]
  exact hx

theorem Laid.addNode {registry : Registry} {s₀ s : Store} {done : List NodeData} {g : Graph}
    (h : Laid registry s₀ done g s) (d : NodeData) (hnamed : d.guid ≠ "")
    (hnew : d.guid ∉ done.map (·.guid)) :
    Laid registry s₀ (done ++ [d]) (g.addNode registry d s).1.2 (g.addNode registry d s).2 := by
  have hconsistent := g.addNode_consistent registry d s h.consistent
  have hhandle : g.handleOf d.guid = none := by
    refine Network.handleOf_eq_none_of_forall₂ h.consistent.sound h.nodes (fun e f hef hguid => ?_)
      hnew
    rw [← hef.restores.guid, hguid]
  obtain ⟨x, log, own, hx, hsize, hids, heq⟩ :=
    g.addNode_kept registry d s hnamed hhandle
  obtain ⟨before, hbefore, hcount⟩ := h.vars
  have harena := h.consistent.sound.arena
  have hplaced : (g.addNode registry d s).1.2.placed = g.placed ++ [((g.nodes.insert x).1, x)] := by
    rw [heq]
    exact Network.placed_insert h.consistent.sound x rfl rfl
  have htotal : ownCount registry (done ++ [d]) = ownCount registry done + own.size := by
    unfold ownCount
    rw [List.map_append, List.sum_append, hsize]
    rfl
  have hworks : s₀.Works g.id { s with vars := ⟨s.vars.cells ++ own⟩, log } :=
    ⟨h.works.objects, h.works.globals, h.works.scheduler, h.works.dispatchesMade, h.works.size,
      h.works.others, h.works.disposed⟩
  rw [heq] at hconsistent hplaced ⊢
  refine ⟨hconsistent, h.last, hworks.trans (Store.works_fill _ _ _ _), h.guidsMade,
    ⟨before ++ own, ?_, ?_⟩, ?_, ?_, ?_⟩
  · show s.vars.cells ++ own = _
    rw [hbefore, Array.append_assoc]
  · rw [Array.size_append, hcount, htotal]
  · -- the variables follow those of the nodes before
    have hstart : s.vars.cells.size = s₀.vars.cells.size + ownCount registry done := by
      rw [hbefore, Array.size_append, hcount]
    rw [hplaced, List.flatMap_append, h.ids, List.flatMap_singleton, hids, hstart, htotal,
      List.range'_append_1]
  · rw [hplaced]
    refine List.rel_append (h.nodes.imp fun e f hef => ?_) (.cons hx .nil)
    exact ⟨hef.restores.mono (extends_append s.vars own), hef.records, hef.laidOut⟩
  · have hvalued : g.Valued { s with vars := ⟨s.vars.cells ++ own⟩, log } := h.valued
    have hget := fun k => Arena.get?_insert g.nodes x k harena
    refine hvalued.fill
      (k := ({ g with
        nodes := (g.nodes.insert x).2
        order := g.order ++ [(g.nodes.insert x).1] } : Graph).invalidate)
      rfl h.known (g.nodes.insert x).1 x ?_ fun j y hj hy => ?_
    · exact (hget _).trans (if_pos rfl)
    · exact (((hget j).trans (if_neg hj)).symm.trans hy)

theorem Laid.addNodes {registry : Registry} {s₀ s : Store} {done : List NodeData} {g : Graph}
    (h : Laid registry s₀ done g s) (data : List NodeData) (hnamed : ∀ d ∈ data, d.guid ≠ "")
    (hnodup : ((done ++ data).map (·.guid)).Nodup) :
    Laid registry s₀ (done ++ data) (g.addNodes registry data s).1
      (g.addNodes registry data s).2 := by
  induction data generalizing g done s with
  | nil =>
    rw [List.append_nil]
    exact h
  | cons d rest ih =>
    have hnew : d.guid ∉ done.map (·.guid) := by
      rw [List.map_append, List.nodup_append] at hnodup
      exact fun hmem => hnodup.2.2 _ hmem _ (List.mem_map_of_mem List.mem_cons_self) rfl
    have hstep := ih (h.addNode d (hnamed d List.mem_cons_self) hnew)
      (fun e he => hnamed e (List.mem_cons_of_mem d he)) (by simpa using hnodup)
    rw [List.append_assoc] at hstep
    exact hstep

/-- The variables of the blackboard are added behind the others. -/
theorem addVariables_kept (g : Graph) (data : List VariableData) (s : Store) :
    g.addVariables data s
      = ({ g with blackboard := g.blackboard ++ List.range' s.vars.cells.size data.length },
        { s with vars := ⟨s.vars.cells ++ (data.map Variable.ofData).toArray⟩ }) := by
  induction data generalizing g s with
  | nil =>
    obtain ⟨n, groups, functions, compiled⟩ := g
    show (_, s) = _
    simp
  | cons d rest ih =>
    have hstep : g.addVariables (d :: rest) s
        = Graph.addVariables { g with blackboard := g.blackboard ++ [s.vars.cells.size] } rest
          { s with vars := ⟨s.vars.cells.push (Variable.ofData d)⟩ } := rfl
    rw [hstep, ih]
    simp [List.range'_succ]

end Graph

/-! ## Section 4: Slots that are opened -/

/-- A connection leads to a slot of an array port that the records of its node do not ask for. -/
def NodeData.Lacks (registry : Registry) (nodes : List NodeData) (d : NodeData) (name : String)
    (index : Nat) : Prop :=
  (∃ e ∈ nodes, ∃ r ∈ e.ports, ⟨d.guid, name, index⟩ ∈ r.connections) ∧
    (registry.resolve d).descriptor.isArray name = true ∧
    (Layout.portsOf d.ports (registry.resolve d).descriptor.ports).find? (·.isSlot name index)
      = none ∧
    index < maxArraySlots

/-- A node has the records of a saved one, and records of the slots that this lacks. -/
structure GraphNode.Opens (registry : Registry) (nodes : List NodeData) (d : NodeData)
    (x : GraphNode) : Prop where
  laidOut : x.LaidOut
  descriptor : x.descriptor = (registry.resolve d).descriptor
  records : ∃ opened, x.records = d.ports ++ opened ∧ ∀ r ∈ opened, r.connections = [] ∧
    r.value = none ∧ d.Lacks registry nodes r.name r.index
  lacking : ∀ name index, d.Lacks registry nodes name index →
    ∃ r ∈ x.records, r.name = name ∧ r.index = index

/-- Only how far the array ports reach matters for the slots. -/
theorem Layout.slots_congr (records more : List PortData) (ports : List PortDescriptor)
    (h : ∀ d ∈ ports, extent more d.name = extent records d.name) :
    slots more ports = slots records ports := by
  refine List.flatMap_congr fun d hd => ?_
  unfold slotsOf
  rw [h d hd]

namespace GraphNode.Opens

variable {registry : Registry} {nodes nodes' : List NodeData} {d : NodeData} {x y : GraphNode}

/-- The constant of a slot is the saved one. -/
theorem constant (hx : x.Opens registry nodes d) (name : String) (index : Nat) :
    (x.records.find? (·.isFor name index)).bind (·.value)
      = (d.ports.find? (·.isFor name index)).bind (·.value) := by
  obtain ⟨opened, hopened, hall⟩ := hx.records
  rw [hopened, List.find?_append]
  cases d.ports.find? (·.isFor name index) with
  | some r => rfl
  | none =>
    rw [Option.none_or]
    cases hfound : opened.find? (·.isFor name index) with
    | none => rfl
    | some r => exact (hall r (List.mem_of_find?_eq_some hfound)).2.1

theorem connected_eq (hx : x.Opens registry nodes d) : connected x.records = connected d.ports := by
  obtain ⟨opened, hopened, hall⟩ := hx.records
  have hnone : opened.filter (fun r => !r.connections.isEmpty) = [] :=
    List.filter_eq_nil_iff.mpr fun r hr => by simp [(hall r hr).1]
  unfold connected
  rw [hopened, List.filter_append, hnone, List.append_nil]

theorem covers (hx : x.Opens registry nodes d) (hy : y.Opens registry nodes' d)
    (hnodes : nodes.Perm nodes') : Layout.Covers x.records y.records := by
  obtain ⟨opened, hopened, hall⟩ := hx.records
  obtain ⟨opened', hopened', _⟩ := hy.records
  intro r hr
  rw [hopened] at hr
  rcases List.mem_append.mp hr with hr | hr
  · exact ⟨r, hopened' ▸ List.mem_append_left _ hr, rfl, rfl⟩
  · -- the slot is opened whatever the order of the nodes is
    obtain ⟨_, _, ⟨e, he, hrest⟩, harray⟩ := hall r hr
    exact hy.lacking r.name r.index ⟨⟨e, hnodes.mem_iff.mp he, hrest⟩, harray⟩

theorem slots_eq (hx : x.Opens registry nodes d) (hy : y.Opens registry nodes' d)
    (hnodes : nodes.Perm nodes') (ports : List PortDescriptor) :
    Layout.slots y.records ports = Layout.slots x.records ports := by
  refine Layout.slots_congr _ _ _ fun p _ => le_antisymm ?_ ?_
  · exact (hy.covers hx hnodes.symm).extent_le p.name
  · exact (hx.covers hy hnodes).extent_le p.name

/-- The slots do not depend on the order of the nodes. -/
theorem ports_eq (hx : x.Opens registry nodes d) (hy : y.Opens registry nodes' d)
    (hnodes : nodes.Perm nodes') : y.ports = x.ports := by
  rw [hx.laidOut, hy.laidOut, hx.descriptor, hy.descriptor]
  unfold Layout.portsOf
  rw [hx.slots_eq hy hnodes]

/-- Nor do their first values. -/
theorem initialValues_eq (hx : x.Opens registry nodes d) (hy : y.Opens registry nodes' d)
    (hnodes : nodes.Perm nodes') : y.initialValues = x.initialValues := by
  unfold GraphNode.initialValues Layout.initialValues
  rw [hx.descriptor, hy.descriptor, hx.slots_eq hy hnodes]
  refine List.map_congr_left fun ⟨p, index⟩ _ => ?_
  dsimp only
  unfold Layout.initialValue
  rw [hx.constant, hy.constant]

end GraphNode.Opens

/-- Live nodes have saved forms, and saved nodes live ones. -/
theorem Network.exists_of_placed {n : Network} (hn : n.Sound) {R : NodeData → GraphNode → Prop}
    {nodes : List NodeData} (h : List.Forall₂ (fun d e => R d e.2) nodes n.placed) :
    (∀ k x, n.node? k = some x → ∃ d ∈ nodes, R d x) ∧
      ∀ d ∈ nodes, ∃ k x, n.node? k = some x ∧ R d x := by
  constructor
  · intro k x hx
    obtain ⟨i, hi⟩ := List.mem_iff_getElem?.mp ((n.mem_placed_iff hn k x).mpr hx)
    obtain ⟨d, hd, hdx⟩ := exists_left_of_forall₂ h i _ hi
    exact ⟨d, List.mem_of_getElem? hd, hdx⟩
  · intro d hd
    obtain ⟨i, hi⟩ := List.mem_iff_getElem?.mp hd
    obtain ⟨⟨k, x⟩, he, hdx⟩ := exists_right_of_forall₂ h i d hi
    exact ⟨k, x, n.node?_of_mem_placed k x (List.mem_of_getElem? he), hdx⟩

namespace Graph

/-- The slots that a node is given are those that it lacks. -/
theorem opens_withSlots {registry : Registry} {nodes : List NodeData} {g : Graph} {vs : Variables}
    (hg : g.toNetwork.Sound)
    (hplaced : List.Forall₂ (fun d e => e.2.Newly registry vs d) nodes g.placed)
    (hdistinct : g.toNetwork.Distinct) (h : NodeHandle) (x : GraphNode) (hx : g.node? h = some x)
    (d : NodeData) (hdx : x.Newly registry vs d) :
    (GraphNode.laidOut { x with records := withSlots g.lacking h x.records }).Opens registry nodes
      d := by
  obtain ⟨hsaved, hlive⟩ := Network.exists_of_placed hg
    (R := fun d x => x.Newly registry vs d) hplaced
  obtain ⟨hrestores, hrecords, hlaid⟩ := hdx
  have hports : x.ports = Layout.portsOf d.ports (registry.resolve d).descriptor.ports := by
    rw [hlaid, hrecords, hrestores.descriptor]
  refine ⟨rfl, hrestores.descriptor, ?_, fun name index hlacks => ?_⟩
  · obtain ⟨opened, hopened, hall⟩ := withSlots_opened g.lacking h x.records
    refine ⟨opened, hrecords ▸ hopened, fun r hr => ?_⟩
    obtain ⟨m, hm, rfl, rfl⟩ := hall r hr
    obtain ⟨k, z, r', c, y, p, hz, hr', hc, hy, hguid, hp, harray, hnone, hindex, hcp, hci⟩ :=
      g.exists_of_mem_lacking m hm
    obtain rfl : y = x := Option.some.inj (hy.symm.trans hx)
    obtain ⟨e, he, hez⟩ := hsaved k z hz
    refine ⟨rfl, rfl, ⟨e, he, r', hez.records ▸ hr', ?_⟩, ?_, ?_, hci ▸ hindex⟩
    · have hc' : c = ⟨d.guid, m.port, m.index⟩ := by
        rw [← hcp, ← hci, ← hrestores.guid, hguid]
      exact hc' ▸ hc
    · rw [hcp, hrestores.descriptor] at hp
      exact (NodeDescriptor.isArray_eq_true_iff _ _).mpr ⟨_, hp, harray⟩
    · rw [GraphNode.port?_eq_find?, hcp, hci, hports] at hnone
      exact hnone
  · obtain ⟨⟨e, he, r, hr, hc⟩, harray, hnone, hindex⟩ := hlacks
    obtain ⟨k, z, hz, hez⟩ := hlive e he
    have hhandle : g.handleOf d.guid = some h := hrestores.guid ▸ hdistinct.handleOf h x hx
    have hlacking := g.mem_lacking k z hz r (hez.records ▸ hr) ⟨d.guid, name, index⟩ hc h x hhandle hx
      (hrestores.descriptor ▸ harray) (by rw [GraphNode.port?_eq_find?, hports]; exact hnone) hindex
    exact exists_mem_withSlots g.lacking _ hlacking x.records

/-! ## Section 5: The whole network -/

/-- Nodes that are laid out anew get their first values. -/
theorem layOutAll_kept (g : Graph) (hs : List NodeHandle) (s : Store) (hlt : g.id < s.graphs.size)
    (hvalued : ∀ h x, g.node? h = some x → h ∉ hs →
      s.row g.id h.index = some x.initialValues.toArray) :
    (g.layOutAll hs s).1.Valued (g.layOutAll hs s).2 ∧ s.Works g.id (g.layOutAll hs s).2 := by
  induction hs generalizing g s with
  | nil => exact ⟨fun h x hx => hvalued h x hx List.not_mem_nil, .refl s⟩
  | cons k rest ih =>
    cases hk : g.node? k with
    | none =>
      have hstep : g.layOutAll (k :: rest) s = g.layOutAll rest s := by
        show (g.layOut k s).1.layOutAll rest (g.layOut k s).2 = _
        unfold layOut
        rw [hk]
        rfl
      rw [hstep]
      refine ih g s hlt fun h x hx hnot => hvalued h x hx ?_
      rintro (_ | _)
      · rw [hk] at hx
        cases hx
      · exact absurd ‹_› hnot
    | some y =>
      obtain ⟨log, hstep⟩ : ∃ log, g.layOutAll (k :: rest) s
          = Graph.layOutAll { g with nodes := g.nodes.modify k GraphNode.laidOut } rest
            (Store.fill { s with log } g.id k y.initialValues) := by
        refine ⟨(s.reportAll (Layout.notices y.guid y.records y.descriptor.ports)).log, ?_⟩
        show (g.layOut k s).1.layOutAll rest (g.layOut k s).2 = _
        unfold layOut
        rw [hk]
        rfl
      have hlog : ∀ log, s.Works g.id { s with log } :=
        fun _ => ⟨rfl, rfl, rfl, rfl, rfl, fun _ _ => rfl, rfl⟩
      have hworks := (hlog log).trans (Store.works_fill { s with log } g.id k y.initialValues)
      have hafter : ∀ h x,
          ({ g with nodes := g.nodes.modify k GraphNode.laidOut } : Graph).node? h = some x →
          h ∉ rest → (Store.fill { s with log } g.id k y.initialValues).row g.id h.index
            = some x.initialValues.toArray := by
        -- the node itself has new values, and the others have theirs
        intro h x hx hnot
        have hget : (g.nodes.modify k GraphNode.laidOut).get? h = some x := hx
        rw [Arena.get?_modify] at hget
        by_cases hh : h = k
        · subst hh
          have hy : g.nodes.get? h = some y := hk
          rw [if_pos rfl, hy] at hget
          cases hget
          exact Store.row_fill_self _ g.id h y.initialValues hlt
        · rw [if_neg hh] at hget
          have hindex : h.index ≠ k.index :=
            fun hi => hh (Arena.eq_of_index_eq g.nodes h k x y hget hk hi)
          have hold := hvalued h x hget (List.not_mem_cons_of_ne_of_not_mem hh hnot)
          exact Store.row_fill_of_ne { s with log } g.id k y.initialValues h.index _ hindex hold
      obtain ⟨hdone, hrest⟩ := ih _ _ (hworks.size ▸ hlt) hafter
      rw [hstep]
      exact ⟨hdone, hworks.trans hrest⟩

theorem addIncomingSlots_kept (g : Graph) (s : Store) (hlt : g.id < s.graphs.size)
    (hvalued : g.Valued s) : (g.addIncomingSlots s).1.Valued (g.addIncomingSlots s).2 ∧
      s.Works g.id (g.addIncomingSlots s).2 := by
  obtain ⟨k, hk⟩ : ∃ k, g.lacking.foldl
    (fun g m => g.modifyRecords m.handle (recordSlot m.port m.index)) g = k := ⟨_, rfl⟩
  obtain ⟨log, hslots⟩ : ∃ log, g.addIncomingSlots s
      = k.layOutAll (distinct (g.lacking.map (·.handle))) { s with log } := by
    rw [← hk]
    exact ⟨_, rfl⟩
  have hid : k.id = g.id := by
    have hfold : ∀ (missing : List MissingSlot) (j : Graph), (missing.foldl
        (fun g m => g.modifyRecords m.handle (recordSlot m.port m.index)) j).id = j.id := by
      intro missing
      induction missing with
      | nil => exact fun _ => rfl
      | cons m rest ih => exact fun j => ih _
    exact hk ▸ hfold g.lacking g
  have hdiffers := g.differs_withSlots g.lacking
  rw [hk] at hdiffers
  rw [hslots]
  have hbefore : ∀ h y, k.node? h = some y → h ∉ distinct (g.lacking.map (·.handle)) →
      s.row k.id h.index = some y.initialValues.toArray := by
    -- nodes that lack no slot have their records and values
    intro h y hy hnot
    rw [hdiffers.node] at hy
    obtain ⟨x, hx, rfl⟩ := Option.map_eq_some_iff.mp hy
    have hsame : withSlots g.lacking h x.records = x.records :=
      withSlots_of_not_mem _ _ _ fun hmem => hnot ((mem_distinct _ h).mpr hmem)
    rw [hid, hsame]
    exact hvalued h x hx
  obtain ⟨hdone, hworks⟩ := k.layOutAll_kept (distinct (g.lacking.map (·.handle))) { s with log }
    (hid ▸ hlt) hbefore
  rw [hid] at hworks
  exact ⟨hdone, hworks.objects, hworks.globals, hworks.scheduler, hworks.dispatchesMade, hworks.size,
    hworks.others, hworks.disposed⟩

/-- A saved network was hydrated. -/
structure Placed (registry : Registry) (data : GraphData) (s₀ : Store) (g : Graph) (s : Store) :
    Prop where
  id : g.id = s₀.graphs.size
  name : g.name = data.name
  sound : g.toNetwork.Sound
  works : s₀.addGraph.2.Works g.id s
  guidsMade : s.guidsMade = s₀.guidsMade
  /-- First come the variables of the nodes, then those of the blackboard. -/
  vars : ∃ own, s.vars.cells = s₀.vars.cells ++ own ++ (data.vars.map Variable.ofData).toArray ∧
    own.size = ownCount registry data.nodes
  ids : g.placed.flatMap (fun e => e.2.vars.map Prod.snd)
    = List.range' s₀.vars.cells.size (ownCount registry data.nodes)
  blackboard : g.blackboard = List.range'
    (s₀.vars.cells.size + ownCount registry data.nodes) data.vars.length
  nodes : List.Forall₂ (fun d e => e.2.Restores registry s.vars d ∧
    e.2.Opens registry data.nodes d) data.nodes g.placed
  valued : g.Valued s

/-- Up to the slots for connections, hydrating places the nodes and adds the variables. -/
theorem placeNodes_laid (registry : Registry) (data : GraphData) (s : Store)
    (hnamed : data.Named) : ∃ g t, Laid registry s.addGraph.2 data.nodes g t ∧
      g.id = s.graphs.size ∧ g.name = data.name ∧ g.blackboard = [] ∧
      placeNodes registry data s
        = ({ g with blackboard := List.range' t.vars.cells.size data.vars.length },
          { t with vars := ⟨t.vars.cells ++ (data.vars.map Variable.ofData).toArray⟩ }) := by
  obtain ⟨created, t, hcreate, hcreated, ht⟩ : ∃ created t, create data.name s = (created, t) ∧
      created = (create data.name s).1 ∧ t = s.addGraph.2 := ⟨_, _, rfl, rfl, rfl⟩
  have hempty : Laid registry t [] created t := by
    refine ⟨hcreated ▸ create_consistent data.name s, ?_, .refl t, rfl, ⟨#[], ?_, rfl⟩, ?_, ?_, ?_⟩
    · rw [hcreated, ht]
      exact Array.size_push _
    · simp
    · rw [hcreated]
      rfl
    · rw [hcreated]
      exact .nil
    · intro h x hx
      rw [hcreated, create_node?] at hx
      cases hx
  have hlaid := hempty.addNodes data.nodes hnamed.nonempty hnamed.nodup
  have hlabels := created.addNodes_labels registry data.nodes t
  obtain ⟨g, u, hadd⟩ : ∃ g u, created.addNodes registry data.nodes t = (g, u) := ⟨_, _, rfl⟩
  rw [List.nil_append, hadd] at hlaid
  rw [hadd] at hlabels
  have hblackboard : g.blackboard = [] := by
    rw [hlabels.2, hcreated]
    rfl
  refine ⟨g, u, ht ▸ hlaid, ?_, ?_, hblackboard, ?_⟩
  · have hsize : t.graphs.size = s.graphs.size + 1 := by
      rw [ht]
      exact Array.size_push _
    exact Nat.succ.inj (hlaid.last.symm.trans hsize)
  · rw [hlabels.1, hcreated]
    rfl
  · have hbound : placeNodes registry data s = g.addVariables data.vars u := by
      unfold placeNodes
      simp only [bind, StateT.bind, hcreate, hadd]
    rw [hbound, g.addVariables_kept data.vars u, hblackboard, List.nil_append]

theorem placeAll_placed (registry : Registry) (data : GraphData) (s : Store)
    (hnamed : data.Named) :
    Placed registry data s (placeAll registry data s).1 (placeAll registry data s).2 := by
  obtain ⟨g, t, hlaid, hid, hname, hblackboard, heq⟩ := placeNodes_laid registry data s hnamed
  have hcarries := placeNodes_carries registry data s hnamed.nodup fun d hd hnone =>
    absurd hnone (hnamed.nonempty d hd)
  obtain ⟨own, hown, hsize⟩ := hlaid.vars
  have hstart : t.vars.cells.size = s.vars.cells.size + ownCount registry data.nodes := by
    rw [hown, Array.size_append, hsize]
    rfl
  obtain ⟨bound, hboundeq⟩ : ∃ bound : Graph,
    bound = { g with blackboard := List.range' t.vars.cells.size data.vars.length } := ⟨_, rfl⟩
  obtain ⟨u, hu⟩ : ∃ u : Store,
    u = { t with vars := ⟨t.vars.cells ++ (data.vars.map Variable.ofData).toArray⟩ } := ⟨_, rfl⟩
  rw [← hboundeq, ← hu] at heq
  have hplaceall : placeAll registry data s = bound.addIncomingSlots u := by
    rw [placeAll_eq, heq]
  rw [heq] at hcarries
  rw [hplaceall]
  have hworks : s.addGraph.2.Works g.id u := by
    have hbefore := hlaid.works
    rw [hu]
    exact ⟨hbefore.objects, hbefore.globals, hbefore.scheduler, hbefore.dispatchesMade,
      hbefore.size, hbefore.others, hbefore.disposed⟩
  have hboundid : bound.id = g.id := by rw [hboundeq]
  have hvalued : bound.Valued u := by
    rw [hboundeq, hu]
    exact hlaid.valued
  have hknown : bound.id < u.graphs.size := by
    rw [hboundid, hu]
    exact hlaid.known
  have hnewly : List.Forall₂ (fun d e => e.2.Newly registry u.vars d) data.nodes bound.placed := by
    rw [hboundeq, hu]
    exact hlaid.nodes.imp fun d e he =>
      ⟨he.restores.mono (extends_append t.vars _), he.records, he.laidOut⟩
  obtain ⟨hafter, hslots⟩ := bound.addIncomingSlots_kept u hknown hvalued
  have hretains := bound.addIncomingSlots_retains u
  have hdiffers := bound.differs_addIncomingSlots u hcarries.laidOut
  have hkeeps := bound.addIncomingSlots_keeps u
  have hgrows := bound.addIncomingSlots_grows u
  have hguids : (bound.addIncomingSlots u).2.guidsMade = u.guidsMade := layOutAll_guidsMade _ _ _
  have hconsistent : bound.toNetwork.Consistent :=
    (Network.Keeps.of_nodes (n := g.toNetwork) (by rw [hboundeq]) (by rw [hboundeq])).consistent
      hlaid.consistent
  refine ⟨?_, ?_, (hkeeps.network.consistent hconsistent).sound, ?_, ?_, ⟨own, ?_, hsize⟩, ?_, ?_, ?_,
    hafter⟩
  · rw [hgrows.id, hboundid, hid]
  · rw [hretains.name, hboundeq, ← hname]
  · rw [hgrows.id]
    exact (hboundid ▸ hworks).trans hslots
  · rw [hguids, hu, hlaid.guidsMade]
    rfl
  · rw [hretains.vars, hu, hown]
    rfl
  · rw [hdiffers.placed, List.flatMap_map, hboundeq]
    exact hlaid.ids
  · rw [hretains.blackboard, hboundeq, hstart]
  · rw [hdiffers.placed, List.forall₂_map_right_iff, hretains.vars]
    -- each node is given the slots that it lacks
    refine List.forall₂_iff_get.mpr ⟨hnewly.length_eq, fun i hi hi' => ?_⟩
    have hat := (List.forall₂_iff_get.mp hnewly).2 i hi hi'
    have hmem := List.get_mem bound.placed ⟨i, hi'⟩
    refine ⟨hat.restores.laidOut _, opens_withSlots hconsistent.sound hnewly
      (hcarries.distinct hnamed.nodup) _ _ (bound.node?_of_mem_placed _ _ hmem) _ hat⟩

end Graph
end FlowGraph
