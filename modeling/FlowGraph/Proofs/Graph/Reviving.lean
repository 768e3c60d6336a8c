import FlowGraph.Proofs.Graph.Normal
import FlowGraph.Proofs.Graph.Placeholders
import FlowGraph.Proofs.Graph.Slotted
import FlowGraph.Proofs.Registry.Resolving

/-! # What a node is

    Which type a node has, with which arguments, and what a placeholder keeps is settled when the
    node is resolved: edits and compilations change slots, records and dependencies, and nothing
    else of a node (`GraphNode.kind`, `run_kindAt`).

    So the type text of a saved node stays what its resolution says, whatever is done with the
    graph, short of removing the node.  `saved_of_resolved` puts this together with how a node is
    resolved. -/

namespace FlowGraph

/-! ## Section 1: Kinds -/

/-- The node without what edits and compilations change. -/
def GraphNode.kind (x : GraphNode) : GraphNode :=
  { x with ports := [], records := [], dependencies := [] }

namespace GraphNode

/-- A node is saved as its kind is, with its records. -/
theorem toData_eq_kind (x : GraphNode) (vs : Variables) :
    x.toData vs = { x.kind.toData vs with ports := x.records } := by
  unfold toData kind
  cases x.invalid with
  | none => rfl
  | some invalid => rfl

end GraphNode

/-- The kind of the node of a handle. -/
def Network.kindAt (n : Network) (h : NodeHandle) : Option GraphNode :=
  (n.node? h).map GraphNode.kind

namespace Network

theorem kindAt_eq_some_iff (n : Network) (h : NodeHandle) (k : GraphNode) :
    n.kindAt h = some k ↔ ∃ x, n.node? h = some x ∧ x.kind = k :=
  Option.map_eq_some_iff

/-- A change of nodes that keeps their kinds. -/
theorem Differs.kindAt {n m : Network} {f : NodeHandle → GraphNode → GraphNode}
    (hf : n.Differs m f) (hkind : ∀ h x, (f h x).kind = x.kind) (h : NodeHandle) :
    m.kindAt h = n.kindAt h := by
  unfold Network.kindAt
  rw [hf.node, Option.map_map]
  exact congrArg (Option.map · (n.node? h)) (funext fun x => hkind h x)

theorem kindAt_modify {n m : Network} (k : NodeHandle) (f : GraphNode → GraphNode)
    (hm : m.nodes = n.nodes.modify k f) (hkind : ∀ x, (f x).kind = x.kind) (h : NodeHandle) :
    m.kindAt h = n.kindAt h := by
  unfold kindAt node?
  rw [hm, Arena.get?_modify]
  by_cases hk : h = k
  · subst hk
    rw [if_pos rfl, Option.map_map]
    exact congrArg (Option.map · (n.nodes.get? h)) (funext hkind)
  · rw [if_neg hk]

theorem kindAt_link (n : Network) (conversions : Conversions) (h : NodeHandle) :
    (n.link conversions).1.kindAt h = n.kindAt h := by
  have hkind : ∀ m : Network, m.unlinked.kindAt h = m.kindAt h := fun m =>
    m.differs_unlinked.kindAt (fun _ _ => rfl) h
  rw [← hkind, n.link_unlinked conversions, hkind]

end Network

/-! ## Section 2: Operations keep kinds -/

namespace Graph

theorem kindAt_modifyRecords (g : Graph) (k : NodeHandle) (f : List PortData → List PortData)
    (h : NodeHandle) : (g.modifyRecords k f).kindAt h = g.kindAt h :=
  Network.kindAt_modify k (fun x => { x with records := f x.records }) rfl (fun _ => rfl) h

theorem kindAt_layOut (g : Graph) (k : NodeHandle) (s : Store) (h : NodeHandle) :
    (g.layOut k s).1.kindAt h = g.kindAt h := by
  rw [layOut_graph]
  exact Network.kindAt_modify k GraphNode.laidOut rfl (fun _ => rfl) h

theorem kindAt_connect (g : Graph) (source target : SlotRef) (s : Store) (g' : Graph)
    (hconnect : (g.connect source target s).1 = .ok g') (h : NodeHandle) :
    g'.kindAt h = g.kindAt h := by
  obtain ⟨k, y, d, hc, rfl⟩ := g.exists_of_connect source target s g' hconnect
  -- the connection is recorded at one end, and a slot may be opened at the other end
  have hrecorded : (g.recordConnection k d source target s).1.kindAt h = g.kindAt h := by
    have hfirst := g.kindAt_modifyRecords k (connectionRecord source target) h
    unfold recordConnection
    by_cases harray : d.array = true
    · rw [if_pos harray, kindAt_layOut, hfirst]
    · rw [if_neg harray]
      exact hfirst
  have hopened : ∀ (l : Graph) (t : Store), (l.openSlot target t).1.kindAt h = l.kindAt h := by
    intro l t
    rcases l.openSlot_cases target t with ⟨heq, _⟩ | ⟨j, _, _, _, _, _, heq⟩
    · rw [heq]
    · rw [heq, kindAt_layOut, kindAt_modifyRecords]
  exact (hopened _ _).trans hrecorded

theorem kindAt_setConstant (g : Graph) (slot : SlotRef) (v : Value) (s : Store) (h : NodeHandle) :
    (g.setConstant slot v s).1.1.kindAt h = g.kindAt h := by
  rcases g.setConstant_eq slot v s with ⟨e, heq⟩ | ⟨k, y, d, _, _, _, hresult⟩
  · rw [heq]
  · have hrecorded := g.kindAt_modifyRecords k (constantRecord slot v) h
    rcases hresult with ⟨i, _, heq⟩ | ⟨_, _, heq⟩ | ⟨_, _, e, heq⟩
    · rw [heq, hrecorded]
    · rw [heq, kindAt_layOut, hrecorded]
    · rw [heq, hrecorded]

theorem kindAt_compile (g : Graph) (conversions : Conversions) (s : Store) (h : NodeHandle) :
    (g.compile conversions s).1.1.kindAt h = g.kindAt h := by
  have hlinked := g.toNetwork.kindAt_link conversions h
  rcases g.compile_cases conversions s with ⟨_, _, heq⟩ | ⟨_, _, _, heq⟩ | ⟨_, _, heq, _⟩
  · rw [heq, hlinked]
  · rw [heq]
    exact hlinked
  · rw [heq, hlinked]

theorem kindAt_insert (g : Graph) (hg : g.toNetwork.Sound) (y : GraphNode) (s : Store)
    (h : NodeHandle) (k : GraphNode) (hk : g.kindAt h = some k) :
    (g.insert y s).1.2.kindAt h = some k := by
  obtain ⟨x, hx, rfl⟩ := (g.kindAt_eq_some_iff h k).mp hk
  exact (Network.kindAt_eq_some_iff _ h _).mpr ⟨x, g.insert_node? h x hx hg y s, rfl⟩

/-- The removal of another node changes records. -/
theorem kindAt_removeNode (g : Graph) (vs : Variables) (j h : NodeHandle) (hj : h ≠ j)
    (k : GraphNode) (hk : g.kindAt h = some k) : (g.removeNode vs j).2.kindAt h = some k := by
  obtain ⟨x, hx, rfl⟩ := (g.kindAt_eq_some_iff h k).mp hk
  exact (Network.kindAt_eq_some_iff _ h _).mpr ⟨_, g.removeNode_node? h x hx vs j hj, rfl⟩

/-- An operation keeps the kind of each node that it does not remove. -/
theorem apply_kindAt (op : Operation) (st : State) (hst : st.1.toNetwork.Sound) (h : NodeHandle)
    (k : GraphNode) (hk : st.1.kindAt h = some k) (hop : op ≠ .removeNode h) :
    (op.apply st).1.kindAt h = some k := by
  obtain ⟨g, s⟩ := st
  cases op with
  | addNode registry data => exact g.kindAt_insert hst _ _ h k hk
  | addLive guid descriptor behavior => exact g.kindAt_insert hst _ _ h k hk
  | removeNode j =>
    have hj : h ≠ j := fun heq => hop (by rw [heq])
    exact g.kindAt_removeNode s.vars j h hj k hk
  | connect source target =>
    unfold Operation.apply
    dsimp only
    split
    · rename_i g' s' heq
      rw [g.kindAt_connect source target s g' (by rw [heq]) h]
      exact hk
    · exact hk
  | setConstant slot v => exact (g.kindAt_setConstant slot v s h).trans hk
  | compile conversions => exact (g.kindAt_compile conversions s h).trans hk
  | addFunction name f => exact hk
  | addGroup group => exact hk
  | clearPaths => exact hk
  | dispose => exact hk
  | elsewhere work => exact hk

/-- So do all operations of a run. -/
theorem run_kindAt (ops : List Operation) (st : State) (hst : st.1.toNetwork.Consistent)
    (h : NodeHandle) (k : GraphNode) (hk : st.1.kindAt h = some k)
    (hops : ∀ op ∈ ops, op ≠ .removeNode h) : (run ops st).1.kindAt h = some k := by
  induction ops generalizing st with
  | nil => exact hk
  | cons op rest ih =>
    have hstep := apply_kindAt op st hst.sound h k hk (hops op List.mem_cons_self)
    exact ih (op.apply st) (apply_consistent op st hst) hstep
      fun op' hop' => hops op' (List.mem_cons_of_mem op hop')

end Graph

/-! ## Section 3: Nodes that come from saved ones -/

/-- A live node is what a saved one was resolved to, with its variables in the table; its guid
    may be another one. -/
def GraphNode.Revives (registry : Registry) (vs : Variables) (d : NodeData) (x : GraphNode) : Prop :=
  ({ x with guid := d.guid } : GraphNode).Restores registry vs d

namespace GraphNode.Revives

variable {registry : Registry} {vs ws : Variables} {d : NodeData} {x : GraphNode}

theorem of_restores (hx : x.Restores registry vs d) (guid : String) :
    ({ x with guid } : GraphNode).Revives registry vs d :=
  ⟨rfl, hx.position, hx.type, hx.genericArguments, hx.descriptor, hx.behavior, hx.invalid, hx.vars⟩

theorem mono (hx : x.Revives registry vs d) (h : vs.Extends ws) : x.Revives registry ws d :=
  Restores.mono hx h

/-- It is saved in normal form, with its own guid and records. -/
theorem toData (hx : x.Revives registry vs d) :
    x.toData vs = { d.normal registry with guid := x.guid, ports := x.records } := by
  have hguid : x.toData vs
      = { ({ x with guid := d.guid } : GraphNode).toData vs with guid := x.guid } := by
    unfold GraphNode.toData
    cases x.invalid with
    | none => rfl
    | some invalid => rfl
  rw [hguid, Restores.toData hx]

end GraphNode.Revives

namespace Graph

/-- A saved node that is added is placed behind the others. -/
theorem addNode_revives (g : Graph) (registry : Registry) (d : NodeData) (s : Store)
    (hg : g.toNetwork.Sound) :
    s.vars.Extends (g.addNode registry d s).2.vars ∧
      ∃ x, x.Revives registry (g.addNode registry d s).2.vars d ∧
        (g.addNode registry d s).1.2.placed
          = g.placed ++ [((g.addNode registry d s).1.1, x)] := by
  obtain ⟨x, t, heq, hextends, hx, _⟩ := g.addNode_restores registry d s
  obtain ⟨hnodes, horder, _⟩ := g.insert_ensured x t
  have hplaced := Network.placed_insert hg _ hnodes horder
  rw [← g.insert_handle x t] at hplaced
  obtain ⟨guid, _, hensured, _⟩ := g.ensureGuid_node x t
  rw [heq, g.insert_vars x t]
  refine ⟨hextends, _, ?_, hplaced⟩
  rw [hensured]
  exact .of_restores hx guid

theorem addNodes_revives (g : Graph) (registry : Registry) (done nodes : List NodeData) (s : Store)
    (hg : g.toNetwork.Consistent)
    (hdone : List.Forall₂ (fun d e => e.2.Revives registry s.vars d) done g.placed) :
    List.Forall₂ (fun d e => e.2.Revives registry (g.addNodes registry nodes s).2.vars d)
      (done ++ nodes) (g.addNodes registry nodes s).1.placed := by
  induction nodes generalizing g done s with
  | nil =>
    rw [List.append_nil]
    exact hdone
  | cons d rest ih =>
    obtain ⟨hextends, x, hx, hplaced⟩ := g.addNode_revives registry d s hg.sound
    have hstep := ih (g.addNode registry d s).1.2 (done ++ [d]) (g.addNode registry d s).2
      (g.addNode_consistent registry d s hg) (by
        rw [hplaced]
        exact List.rel_append (hdone.imp fun _ _ he => he.mono hextends) (.cons hx .nil))
    rw [List.append_assoc] at hstep
    exact hstep

/-- Each node of a hydrated graph comes from the saved one at its position. -/
theorem ofData_revives (registry : Registry) (data : GraphData) (s : Store) (vs : Variables)
    (hvs : (ofData registry data s).2.vars.Extends vs) :
    List.Forall₂ (fun d e => e.2.Revives registry vs d) data.nodes
      (ofData registry data s).1.placed := by
  obtain ⟨created, t, hcreate, hconsistent, hempty⟩ : ∃ created t,
      create data.name s = (created, t) ∧ created.toNetwork.Consistent ∧ created.placed = [] :=
    ⟨_, _, rfl, create_consistent data.name s, rfl⟩
  have hadded := created.addNodes_revives registry [] data.nodes t hconsistent (hempty ▸ .nil)
  obtain ⟨placed, u, hadd⟩ : ∃ placed u, created.addNodes registry data.nodes t = (placed, u) :=
    ⟨_, _, rfl⟩
  obtain ⟨bound, v, hbind⟩ : ∃ bound v, placed.addVariables data.vars u = (bound, v) :=
    ⟨_, _, rfl⟩
  have hplace : placeNodes registry data s = (bound, v) := by
    unfold placeNodes
    simp only [bind, StateT.bind, hcreate, hadd, hbind]
  -- variables do not touch the nodes
  have hsame : bound.placed = placed.placed ∧ u.vars.Extends v.vars := by
    obtain ⟨hnodes, horder, _⟩ := placed.addVariables_eq data.vars u
    have hextends := (placed.addVariables_declares data.vars u).1
    rw [hbind] at hnodes horder hextends
    refine ⟨?_, hextends⟩
    unfold Network.placed Network.node?
    rw [hnodes, horder]
  have hlaid := placeNodes_laidOut registry data s
  have hfunctions := functionsOfData_extends registry data.functions
    (placeAll registry data s).2
  rw [ofData_eq] at hvs ⊢
  rw [placeAll_eq, hplace] at hfunctions hvs ⊢
  rw [hplace] at hlaid
  rw [hadd] at hadded
  dsimp only at hadded hlaid hfunctions hvs ⊢
  -- then slots are opened, and functions are hydrated
  have hlast : u.vars.Extends vs := by
    rw [(bound.addIncomingSlots_retains v).vars] at hfunctions
    exact (hsame.2.trans hfunctions).trans hvs
  show List.Forall₂ _ data.nodes (bound.addIncomingSlots v).1.placed
  rw [(bound.differs_addIncomingSlots v hlaid).placed, List.forall₂_map_right_iff, hsame.1]
  exact hadded.imp fun d e he => GraphNode.Restores.laidOut (he.mono hlast) _

end Graph

/-- What is saved once the node was hydrated: its normal form, perhaps with another guid, and with
    records of its own. -/
def NodeData.Rewritten (registry : Registry) (d saved : NodeData) : Prop :=
  ∃ guid records, saved = { d.normal registry with guid := guid, ports := records }

/-- A graph that is hydrated and saved has the nodes that it had, at every level. -/
theorem GraphData.rewritten_resaved (registry : Registry) (data : GraphData) (s : Store) :
    data.Corresponds (fun d e => List.Forall₂ (NodeData.Rewritten registry) d.nodes e.nodes)
      (data.resaved registry s) := by
  -- the functions are hydrated later, so the variables of the nodes are in a larger table
  have hlevel : ∀ vs : Variables, (Graph.ofData registry data s).2.vars.Extends vs →
      data.Corresponds (fun d e => List.Forall₂ (NodeData.Rewritten registry) d.nodes e.nodes)
        ((Graph.ofData registry data s).1.toData vs) := by
    induction data.all_true generalizing s with
    | intro data _ functions ih =>
      intro vs hvs
      have hnodes := Graph.ofData_revives registry data s vs hvs
      rw [corresponds_iff, Graph.toData_eq]
      refine ⟨?_, ?_⟩
      · rw [List.forall₂_map_right_iff]
        exact hnodes.imp fun d e he => ⟨_, _, he.toData⟩
      · rw [Graph.ofData_eq] at hvs ⊢
        exact Graph.functionsToData_forall₂ registry data.functions _ vs hvs _
          fun f hf t ht => ih f hf t vs ht
  exact hlevel _ (.refl _)

namespace Graph

/-! ## Section 4: What is saved in the end -/

/-- How a saved node gets into a live graph; the handle that it is given, and the state then. -/
inductive Enters (registry : Registry) (d : NodeData) : NodeHandle → State → Prop where
  /-- It is added to a live graph. -/
  | added (st : State) (consistent : st.1.toNetwork.Consistent) :
      Enters registry d (st.1.addNode registry d st.2).1.1 (Operation.apply (.addNode registry d) st)
  /-- It is one of the nodes of a graph that is hydrated. -/
  | loaded (data : GraphData) (s : Store) (i : Nat) (h : NodeHandle) (node : data.nodes[i]? = some d)
      (place : (hydrated registry data s).1.handleAt i = some h) :
      Enters registry d h (hydrated registry data s)

theorem Enters.revives {registry : Registry} {d : NodeData} {h : NodeHandle} {st : State}
    (hst : Enters registry d h st) : st.1.toNetwork.Consistent ∧
      ∃ x, st.1.node? h = some x ∧ x.Revives registry st.2.vars d := by
  cases hst with
  | added st consistent =>
    obtain ⟨g, s⟩ := st
    obtain ⟨_, x, hx, hplaced⟩ := g.addNode_revives registry d s consistent.sound
    refine ⟨g.addNode_consistent registry d s consistent, x, ?_, hx⟩
    refine Network.node?_of_mem_placed _ _ x ?_
    show _ ∈ (g.addNode registry d s).1.2.placed
    rw [hplaced]
    exact List.mem_append_right _ (List.mem_singleton_self _)
  | loaded data s i h node place =>
    have hconsistent := ofData_consistent registry data s
    obtain ⟨⟨k, x⟩, hplaced, hx⟩ :=
      exists_right_of_forall₂ (ofData_revives registry data s _ (.refl _)) i d node
    -- the handles of the nodes that are placed are those of the order
    have hk : (hydrated registry data s).1.handleAt i = some k := by
      show (ofData registry data s).1.order[i]? = some k
      rw [← Network.map_fst_placed _ hconsistent.sound, List.getElem?_map, hplaced]
      rfl
    rw [place, Option.some.injEq] at hk
    subst hk
    exact ⟨hconsistent, x, Network.node?_of_mem_placed _ _ x (List.mem_of_getElem? hplaced), hx⟩

/-- The graph is saved with such a node, at the position of the handle. -/
def SavesAs (g : Graph) (h : NodeHandle) (P : NodeData → Prop) : Prop :=
  ∃ i, g.indexOf h = some i ∧ ∀ vs, ∃ saved, (g.toData vs).nodes[i]? = some saved ∧ P saved

/-- However the node gets into a graph, and whatever is done then, short of removing it, the graph
    is saved with such a node. -/
def Lastingly (registry : Registry) (d : NodeData) (P : NodeData → Prop) : Prop :=
  ∀ h st, Enters registry d h st → ∀ ops : List Operation, (∀ op ∈ ops, op ≠ .removeNode h) →
    (run ops st).1.SavesAs h P

theorem lastingly_of_kind (registry : Registry) (d : NodeData) (P : NodeData → Prop)
    (hP : ∀ (x : GraphNode) (vs ws : Variables) (records : List PortData),
      x.Revives registry vs d → P { x.kind.toData ws with ports := records }) :
    Lastingly registry d P := by
  intro h st hst ops hops
  obtain ⟨hconsistent, x, hx, hrevives⟩ := hst.revives
  have hkind := run_kindAt ops st hconsistent h x.kind
    ((Network.kindAt_eq_some_iff _ h _).mpr ⟨x, hx, rfl⟩) hops
  obtain ⟨y, hy, hyx⟩ := (Network.kindAt_eq_some_iff _ h _).mp hkind
  have hsound := (run_consistent ops st hconsistent).sound
  obtain ⟨i, hi, hget⟩ := (run ops st).1.exists_indexOf hsound h y hy
  refine ⟨i, hi, fun vs => ⟨y.toData vs, ?_, ?_⟩⟩
  · rw [toData_eq, List.getElem?_map, (run ops st).1.placed_getElem? hsound i h y hget hy]
    rfl
  · rw [y.toData_eq_kind, hyx]
    exact hP x st.2.vars vs y.records hrevives

/-- **Main theorem: resolution.**  A saved node that fits a type is a live node of that type, with
    the descriptor filled in, and is saved under the name of the type if its own does not agree
    with it, and else under its own.  A saved node that fits none is a placeholder that keeps type,
    arguments and fields, and is saved with them. -/
theorem saved_of_resolved (r : Registry) (hr : r.Fillable) (n : NodeData) :
    (∀ id t arguments b, r.Fits n id t arguments b →
      (∃ filled, t.descriptor.instantiate arguments = some filled ∧
        r.resolve n = ⟨t.descriptor.identity, arguments, filled, b,
          if (TypeIdentity.parse n.type).agrees id then none
          else some (TypeIdentity.parse n.type), none⟩) ∧
      Lastingly r n fun saved =>
        saved.type = (if (TypeIdentity.parse n.type).agrees id then n.type
          else t.descriptor.identity.text) ∧
        saved.genericArguments = arguments.map PortType.text) ∧
    ((∀ id t arguments b, ¬ r.Fits n id t arguments b) →
      (r.resolve n = .placeholder n ∧
        (r.resolve n).invalid = some ⟨n.type, n.genericArguments, n.serializedData⟩) ∧
      Lastingly r n fun saved =>
        saved.type = n.type ∧ saved.genericArguments = n.genericArguments ∧
        saved.serializedData = n.serializedData) := by
  constructor
  · intro id t arguments b hfits
    obtain ⟨filled, hfilled, hresolve⟩ := Registry.resolve_of_fits hfits
      (hr t (r.mem_types_of_find? id t hfits.known))
    refine ⟨⟨filled, hfilled, hresolve⟩, lastingly_of_kind r n _ ?_⟩
    intro x vs ws records hx
    have hinvalid : x.invalid = none := by
      rw [show x.invalid = (r.resolve n).invalid from hx.invalid, hresolve]
    have htype : x.type = (r.resolve n).savedType n := hx.type
    have harguments : x.genericArguments = (r.resolve n).genericArguments := hx.genericArguments
    unfold GraphNode.toData GraphNode.kind
    simp only [hinvalid, htype, harguments, hresolve, ResolvedNode.savedType]
    by_cases hagrees : (TypeIdentity.parse n.type).agrees id = true
    · simp [hagrees]
    · simp [hagrees]
  · intro hnone
    have hresolve := Registry.resolve_of_not_fits hnone
    refine ⟨⟨hresolve, by rw [hresolve]; rfl⟩, lastingly_of_kind r n _ ?_⟩
    intro x vs ws records hx
    have hinvalid : x.invalid = some (InvalidNode.ofData n) := by
      rw [show x.invalid = (r.resolve n).invalid from hx.invalid, hresolve]
      rfl
    unfold GraphNode.toData GraphNode.kind
    simp [hinvalid, InvalidNode.ofData]

/-- A node of a type that was renamed. -/
def renamed : NodeData where
  guid := "if"
  type := "Ceres.Nodes.If, Legacy"

/-- It is live, and saved under the new name. -/
theorem saved_of_resolved_renamed :
    Registry.builtin.Fillable ∧
    Registry.builtin.Fits renamed ⟨"Ceres.Flow", "Branch", none⟩ Builtin.branch [] .branch ∧
    (∃ filled, Builtin.branch.descriptor.instantiate [] = some filled ∧
      Registry.builtin.resolve renamed = ⟨⟨"Ceres.Flow", "Branch", none⟩, [], filled, .branch,
        some ⟨"Ceres.Nodes", "If", some "Legacy"⟩, none⟩) ∧
    Lastingly .builtin renamed fun saved =>
      saved.type = "Ceres.Flow.Branch" ∧ saved.genericArguments = [] := by
  have hfits : Registry.builtin.Fits renamed ⟨"Ceres.Flow", "Branch", none⟩ Builtin.branch []
      .branch := by
    refine ⟨⟨?_, rfl, .nil, rfl⟩, by decide +kernel⟩
    exact (Registry.resolveIdentity_eq_some_iff _ _ _).mp (by decide +kernel)
  have hparse : TypeIdentity.parse renamed.type = ⟨"Ceres.Nodes", "If", some "Legacy"⟩ := by
    decide +kernel
  have hagrees : (⟨"Ceres.Nodes", "If", some "Legacy"⟩ : TypeIdentity).agrees
      ⟨"Ceres.Flow", "Branch", none⟩ = false := by decide +kernel
  have htext : Builtin.branch.descriptor.identity.text = "Ceres.Flow.Branch" := by decide +kernel
  obtain ⟨hresolve, hsaved⟩ :=
    (saved_of_resolved .builtin Registry.builtin_fillable renamed).1 _ _ _ _ hfits
  simp only [hparse, hagrees, htext, List.map_nil] at hresolve hsaved
  exact ⟨Registry.builtin_fillable, hfits, hresolve, hsaved⟩

end Graph
end FlowGraph
