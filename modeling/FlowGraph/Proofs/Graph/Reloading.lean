import FlowGraph.Proofs.Graph.Agreeing
import FlowGraph.Proofs.Graph.Edited
import FlowGraph.Proofs.Graph.Normal

/-! # Saving and reloading

    A node is saved with its guid and its records, and what it is saved as is resolved to its
    own type (`GraphNode.Resolved.resolve_toData`).  So a graph and the graph that is
    hydrated from its saved form have the same nodes in the same order, up to handles:
    both show the saved graph (`Network.Shows`).  Nothing else matters for links and paths,
    so both are compiled with the same result (`Graph.compiledView_reloaded`).

    This needs that every connection into an array port has its slot, since hydrating opens
    the slots that are missing.  Hydrating and recording a connection see to it, but adding a
    node does not, and then a graph that is reloaded has a link more (`Graph.reloaded_rewires`). -/

namespace FlowGraph

/-! ## Section 1: What nodes are saved as -/

/-- A factory takes the fields that what it makes is saved with, whatever the variables of those
    names are. -/
def Factory.Accepts (factory : Factory) (names : List String) : Prop :=
  ∀ fields arguments b, factory fields arguments = .ok b → ∀ vars : List (String × Json),
    vars.map Prod.fst = names → ∃ b', factory (.obj (b.fieldsWith vars)) arguments = .ok b'

/-- All types declare their ports by distinct names, and take the fields that they write. -/
structure Registry.Accepting (registry : Registry) : Prop where
  ports : registry.DistinctPorts
  accepts : ∀ t ∈ registry.types, t.factory.Accepts (t.descriptor.vars.map (·.field))

theorem Registry.Restorable.accepting {registry : Registry} (hregistry : registry.Restorable) :
    registry.Accepting :=
  ⟨hregistry.wellFormed.distinctPorts, fun t ht fields arguments b hb vars hvars =>
    ⟨b, hregistry.resumes t ht fields arguments b hb vars hvars⟩⟩

namespace GraphNode

/-- The fields that the node is saved with, its variables apart. -/
theorem savedFields_eq (x : GraphNode) (vs : Variables) : x.savedFields vs
    = .obj (x.behavior.fieldsWith (x.vars.map fun v => (v.1, (vs.toData v.2).toJson.sorted))) := by
  unfold savedFields Behavior.fieldsWith
  rw [List.foldl_map]

/-- The text of the node's fields is read as what it was written from. -/
def ReadsBack (vs : Variables) (x : GraphNode) : Prop :=
  x.invalid = none → Json.parse (x.savedFields vs).compact = .ok (x.savedFields vs)

instance (vs : Variables) (x : GraphNode) : Decidable (x.ReadsBack vs) :=
  inferInstanceAs (Decidable (x.invalid = none → _ = _))

theorem toData_guid (x : GraphNode) (vs : Variables) : (x.toData vs).guid = x.guid := by
  unfold toData
  cases x.invalid with
  | none => rfl
  | some invalid => rfl

theorem toData_ports (x : GraphNode) (vs : Variables) : (x.toData vs).ports = x.records := by
  unfold toData
  cases x.invalid with
  | none => rfl
  | some invalid => rfl

/-- A node that is saved is resolved to its own type: the one that it was resolved to first, unless
    redirects lead on from there. -/
theorem resolve_toData {registry : Registry} (hregistry : registry.Accepting) {x : GraphNode}
    {d : NodeData} {ws : Variables}
    (hx : ({ x with guid := d.guid } : GraphNode).Restores registry ws d)
    (hknown : (registry.resolve d).redirectedFrom = none ∨ ∀ t ∈ registry.types, registry.Knows t)
    (vs : Variables) (hreads : x.ReadsBack vs) :
    (registry.resolve (x.toData vs)).descriptor = x.descriptor := by
  rw [show x.descriptor = (registry.resolve d).descriptor from hx.descriptor]
  cases hlive : (registry.resolve d).isPlaceholder with
  | true =>
    -- what cannot be resolved is saved as it was
    have hplaceholder := registry.resolve_of_placeholder d hlive
    have hinvalid : x.invalid = some (InvalidNode.ofData d) :=
      hx.invalid.trans (congrArg ResolvedNode.invalid hplaceholder)
    unfold toData
    rw [hinvalid]
    rfl
  | false =>
    have hinvalid : x.invalid = none :=
      hx.invalid.trans (Option.isNone_iff_eq_none.mp
        (by simpa [ResolvedNode.isPlaceholder] using hlive))
    have hdata : x.toData vs = ⟨x.guid, x.type, x.genericArguments.map PortType.text, x.position,
        (x.savedFields vs).compact, x.records⟩ := by
      unfold toData
      rw [hinvalid]
    have hparse := hreads hinvalid
    rw [x.savedFields_eq vs] at hparse
    have hfields := (x.toData vs).fields_of_text _ (by rw [hdata, x.savedFields_eq vs]) hparse
    have hnames : (x.vars.map fun v => (v.1, (vs.toData v.2).toJson.sorted)).map Prod.fst
        = (registry.resolve d).descriptor.vars.map (·.field) := by
      have hdeclared : ((registry.resolve d).declaredVars d).map Prod.fst = x.vars.map Prod.fst :=
        map_eq_of_forall₂ (hx.vars.imp fun _ _ hv => hv.1.symm)
      rw [List.map_map, show (Prod.fst ∘ fun v : String × VarId =>
        (v.1, (vs.toData v.2).toJson.sorted)) = Prod.fst from rfl, ← hdeclared]
      simp [ResolvedNode.declaredVars, Function.comp_def]
    have hbehavior : x.behavior = (registry.resolve d).behavior := hx.behavior
    rw [hbehavior] at hfields
    obtain ⟨t, hmem, hb, hvars, hresolved⟩ := registry.exists_type_of_saved d
      (x.toData vs) _ (registry.tryResolve_of_live d hlive) hknown
      (by rw [hdata]; exact hx.type) (by rw [hdata]; exact congrArg _ hx.genericArguments)
    obtain ⟨b, hb'⟩ := hregistry.accepts t hmem _ _ _ hb _ (hnames.trans hvars)
    rw [← hfields] at hb'
    rw [NodeData.resolve_of_ok _ _ (hresolved b hb')]

theorem Resolved.resolve_toData {registry : Registry} (hregistry : registry.Accepting)
    {x : GraphNode} (hx : x.Resolved registry) (vs : Variables) (hreads : x.ReadsBack vs) :
    (registry.resolve (x.toData vs)).descriptor = x.descriptor := by
  obtain ⟨d, ws, hrestores, hkept⟩ := hx
  exact GraphNode.resolve_toData hregistry hrestores (.inl hkept) vs hreads

end GraphNode

/-! ## Section 2: Networks that show a saved graph -/

/-- A live node has the guid and the records of a saved one and is of its type, and it has the
    slots of its records. -/
structure GraphNode.Shows (registry : Registry) (d : NodeData) (x : GraphNode) : Prop where
  guid : x.guid = d.guid
  descriptor : x.descriptor = (registry.resolve d).descriptor
  records : x.records = d.ports
  laidOut : x.LaidOut

theorem GraphNode.Shows.matches {registry : Registry} {R : NodeHandle → NodeHandle → Prop}
    {d : NodeData} {x y : GraphNode} (hx : x.Shows registry d) (hy : y.Shows registry d) :
    x.unlinked.Matches R y.unlinked := by
  have hdescriptor := hy.descriptor.trans hx.descriptor.symm
  have hrecords := hy.records.trans hx.records.symm
  have hports : y.unlinked.ports = x.unlinked.ports := by
    show y.ports.map Port.unlinked = x.ports.map Port.unlinked
    rw [hy.laidOut, hx.laidOut, hdescriptor, hrecords]
  refine ⟨hy.guid.trans hx.guid.symm, hdescriptor, hrecords, ?_, .nil⟩
  rw [hports, List.forall₂_same]
  intro p hp
  obtain ⟨q, _, rfl⟩ := List.mem_map.mp hp
  exact ⟨rfl, .none, .none⟩

/-- A network that was not compiled has the nodes of a saved graph, in their order. -/
structure Network.Shows (registry : Registry) (data : GraphData) (n : Network) : Prop where
  sound : n.Sound
  distinct : n.Distinct
  nodes : List.Forall₂ (fun d e => e.2.Shows registry d) data.nodes n.placed
  paths : n.paths = none

namespace Network

variable {registry : Registry} {data : GraphData} {n m : Network}

/-- Nodes of one position are live forms of one saved node. -/
theorem twins_of_forall₂ {P : NodeData → GraphNode → Prop} {ds : List NodeData} (hn : n.Sound)
    (hm : m.Sound) (hlive : List.Forall₂ (fun d e => P d e.2) ds n.placed)
    (hlive' : List.Forall₂ (fun d e => P d e.2) ds m.placed) :
    List.Forall₂ (fun e f => n.Twins m e.1 f.1 ∧ ∃ d, P d e.2 ∧ P d f.2) n.placed m.placed := by
  refine forall₂_of_getElem? (hlive.length_eq.symm.trans hlive'.length_eq) fun i e f he hf => ?_
  have hposition : ∀ {l : Network} (hl : l.Sound) (e : NodeHandle × GraphNode),
      l.placed[i]? = some e → l.order[i]? = some e.1 := by
    intro l hl e he
    rw [← l.map_fst_placed hl, List.getElem?_map, he]
    rfl
  obtain ⟨d, hd, hde⟩ := exists_left_of_forall₂ hlive i e he
  obtain ⟨d', hd', hdf⟩ := exists_left_of_forall₂ hlive' i f hf
  rw [hd] at hd'
  cases hd'
  exact ⟨⟨i, hposition hn e he, hposition hm f hf⟩, d, hde, hdf⟩

/-- Networks that show the same saved graph are alike. -/
theorem Shows.alike (hn : n.Shows registry data) (hm : m.Shows registry data) : n.Alike m := by
  refine ⟨?_, ⟨hn.sound, hm.sound⟩, ⟨hn.distinct, hm.distinct⟩, ⟨hn.paths, hm.paths⟩⟩
  unfold Matches
  rw [n.differs_unlinked.placed, m.differs_unlinked.placed, List.forall₂_map_left_iff,
    List.forall₂_map_right_iff]
  refine (twins_of_forall₂ hn.sound hm.sound hn.nodes hm.nodes).imp ?_
  rintro e f ⟨htwins, d, hde, hdf⟩
  exact ⟨htwins, hde.matches hdf⟩

end Network

/-! ## Section 3: A graph and what it is saved as -/

namespace Network

/-- The texts that the nodes are saved with are read as what they were written from. -/
def ReadsBack (vs : Variables) (n : Network) : Prop :=
  ∀ e ∈ n.nodes.toList, e.2.ReadsBack vs

instance (vs : Variables) (n : Network) : Decidable (n.ReadsBack vs) :=
  inferInstanceAs (Decidable (∀ e ∈ n.nodes.toList, e.2.ReadsBack vs))

/-- Nodes with guids of their own are saved with guids of their own. -/
theorem named_toData {n : Network} (hsound : n.Sound) (hdistinct : n.Distinct)
    (hnamed : ∀ h x, n.node? h = some x → x.guid ≠ "") (vs : Variables) (data : GraphData)
    (hdata : data.nodes = n.placed.map fun e => e.2.toData vs) : data.Named := by
  have hnode : ∀ e ∈ n.placed, n.node? e.1 = some e.2 :=
    fun e he => n.node?_of_mem_placed e.1 e.2 he
  have hguids : data.nodes.map (·.guid) = n.placed.map (·.2.guid) := by
    rw [hdata, List.map_map]
    exact List.map_congr_left fun e _ => e.2.toData_guid vs
  refine ⟨?_, fun d hd => ?_⟩
  · -- every handle is placed once, and two handles never have one guid
    rw [hguids]
    have hnodup : (n.placed.map Prod.fst).Nodup := n.map_fst_placed hsound ▸ hsound.nodup_order
    refine List.Nodup.map_on (fun e he f hf hguid => ?_) hnodup.of_map
    have hsame := hdistinct e.1 f.1 e.2 f.2 (hnode e he) (hnode f hf) hguid
    exact List.inj_on_of_nodup_map hnodup he hf hsame
  · have hmem : d.guid ∈ n.placed.map (·.2.guid) := hguids ▸ List.mem_map_of_mem hd
    obtain ⟨e, he, hguid⟩ := List.mem_map.mp hmem
    exact hguid ▸ hnamed _ _ (hnode e he)

/-- A tidy network shows what it is saved as: nodes with guids of their own, and with slots for
    all connections. -/
theorem Tidy.shows {registry : Registry} (hregistry : registry.Accepting) {n : Network}
    (hn : n.Tidy registry) (hopened : n.Opened) (vs : Variables) (hreads : n.ReadsBack vs)
    (data : GraphData) (hdata : data.nodes = n.placed.map fun e => e.2.toData vs) :
    n.Shows registry data ∧ data.Named ∧ NodeData.Opened registry data.nodes := by
  have hsound := hn.consistent.sound
  have hnode : ∀ e ∈ n.placed, n.node? e.1 = some e.2 :=
    fun e he => n.node?_of_mem_placed e.1 e.2 he
  have hshows : ∀ e ∈ n.placed, e.2.Shows registry (e.2.toData vs) := by
    intro e he
    have hx := hnode e he
    exact ⟨(e.2.toData_guid vs).symm,
      ((hn.resolved _ _ hx).resolve_toData hregistry vs
        (hreads e ((Arena.mem_toList_iff n.nodes e.1 e.2).mpr hx))).symm, (e.2.toData_ports vs).symm,
      (hn.arranged _ _ hx).1⟩
  refine ⟨⟨hsound, hn.distinct, ?_, hn.paths⟩, named_toData hsound hn.distinct hn.named vs data hdata,
    fun d hd r hr c hc e he hguid hindex p hp harray => ?_⟩
  · rw [hdata, List.forall₂_map_left_iff, List.forall₂_same]
    exact hshows
  · -- the saved nodes have the slots that the network has
    rw [hdata] at hd he
    obtain ⟨x, hx, rfl⟩ := List.mem_map.mp hd
    obtain ⟨y, hy, rfl⟩ := List.mem_map.mp he
    rw [← (hshows y hy).records]
    rw [← (hshows x hx).records] at hr
    rw [← (hshows y hy).descriptor] at hp
    exact hopened _ _ (hnode x hx) r hr c hc _ _ (hnode y hy) ((hshows y hy).guid.trans hguid)
      (hn.arranged _ _ (hnode y hy)).2 hindex p hp harray

end Network

namespace Graph

/-- A graph of tidy networks shows what it is saved as, level by level. -/
theorem represents_toData {registry : Registry} (hregistry : registry.Accepting) (vs : Variables)
    (g : Graph) (hg : g.All fun n => (n.Tidy registry ∧ n.Opened) ∧ n.ReadsBack vs) :
    g.Represents (fun d n => n.Shows registry d ∧ d.Named ∧ NodeData.Opened registry d.nodes)
      (g.toData vs) := by
  induction hg with
  | intro g network functions ih =>
    rw [toData_eq, represents_iff]
    refine ⟨network.1.1.shows hregistry network.1.2 vs network.2 _ rfl, ?_⟩
    rw [functionsToData_eq, List.forall₂_map_left_iff, List.forall₂_same]
    exact fun f hf => ⟨rfl, ih f hf⟩

/-- Hydrating a saved graph with guids of their own and all slots shows it. -/
theorem placeAll_shows (registry : Registry) (data : GraphData) (s : Store) (hnamed : data.Named)
    (hopened : NodeData.Opened registry data.nodes) :
    (placeAll registry data s).1.toNetwork.Shows registry data := by
  obtain ⟨hcarries, _⟩ := placeAll_carries registry data s hnamed.nodup fun d hd hnone =>
    absurd hnone (hnamed.nonempty d hd)
  have hrecords := records_placeAll registry data s hnamed.nodup hnamed.nonempty hopened
  have hpaths := (ofData_fresh registry data s).paths
  rw [ofData_eq] at hpaths
  refine ⟨hcarries.sound, hcarries.distinct hnamed.nodup, ?_, hpaths⟩
  refine forall₂_of_getElem? hcarries.nodes.length_eq fun i d e hd he => ?_
  obtain ⟨e', he', hde, hsame⟩ :=
    exists_right_of_forall₂ (forall₂_and hcarries.nodes hrecords) i d hd
  rw [he] at he'
  cases he'
  exact ⟨hde.guid (hnamed.nonempty d (List.mem_of_getElem? hd)), hde.descriptor, hsame, hde.laidOut⟩

/-- **Main theorem: reloading does not rewire a graph.**  A graph that was made or hydrated, and
    edited so that adding a node left no connection without its slot, and the graph that is
    hydrated from its saved form are compiled with the same result, and then look the same. -/
theorem compiledView_reloaded (registry : Registry) (hregistry : registry.Accepting) (st : State)
    (hst : Edited registry Network.Opened st) (vs : Variables)
    (hreads : st.1.All (Network.ReadsBack vs)) (conversions : Conversions) (s t u : Store) :
    (ofData registry (st.1.toData vs) t).1.compiledView conversions u
      = st.1.compiledView conversions s := by
  -- the edited graph and the reloaded one both show the saved one
  have hsaved := represents_toData hregistry vs st.1 ((hst.tidy hregistry.ports).1.and hreads)
  have hdata : (st.1.toData vs).All fun d => d.Named ∧ NodeData.Opened registry d.nodes :=
    hsaved.saved fun _ _ h => h.2
  have hreloaded : (ofData registry (st.1.toData vs) t).1.Represents
      (fun d n => n.Shows registry d) (st.1.toData vs) :=
    represents_ofData registry t _
      (hdata.mono fun d hd v _ => placeAll_shows registry d v hd.1 hd.2) t (le_refl _)
  have hshows : st.1.Represents (fun d n => n.Shows registry d) (st.1.toData vs) :=
    hsaved.mono fun _ _ h => h.1
  exact hshows.compiledView_alike hreloaded (fun _ _ _ hn hm => hn.alike hm) conversions s u

/-! ### A call and its argument -/

/-- Where no connection is recorded, every connection has its slot. -/
theorem opened_of_unconnected (n : Network)
    (h : ∀ e ∈ n.nodes.toList, ∀ r ∈ e.2.records, r.connections = []) : n.Opened := by
  intro k x hx r hr c hc
  rw [h (k, x) ((Arena.mem_toList_iff n.nodes k x).mpr hx) r hr] at hc
  cases hc

theorem all_of_functionless {P : Network → Prop} (g : Graph) (hnetwork : P g.toNetwork)
    (hfunctions : g.functions.length = 0) : g.All P := by
  refine .intro g hnetwork fun f hf => ?_
  rw [List.length_eq_zero_iff.mp hfunctions] at hf
  cases hf

/-- A number with some connections. -/
def numberNode (connections : List PortConnection) : NodeData :=
  { guid := "number", type := "Ceres.Values.Literal", genericArguments := ["int"],
    ports := [{ name := "value", connections }] }

/-- A call of a function, with no slot for an argument yet. -/
def calling : State :=
  Operation.apply
    (.addNode .builtin { guid := "call", type := "Ceres.Functions.InvokeFunction" })
    (create "calls" default)

/-- A number is added and then connected to an argument of the call. -/
def connectedLater : State :=
  Operation.apply (.connect ⟨"number", "value", 0⟩ ⟨"call", "args", 1⟩)
    (Operation.apply (.addNode .builtin (numberNode [])) calling)

/-- A number is added with its connection. -/
def connectedAtOnce : State :=
  Operation.apply (.addNode .builtin (numberNode [⟨"call", "args", 0⟩])) calling

theorem calling_edited (P : Network → Prop) (hP : P calling.1.toNetwork) :
    Edited .builtin P calling := by
  have hunmade : (create "calls" default).2.Unmade ["call"] :=
    Store.unmade_of_prefix _ _ (by decide)
  unfold calling at hP ⊢
  exact .edit _ _ (.created "calls" default) ⟨rfl, by decide +kernel, hunmade, hP⟩

theorem number_edited (P : Network → Prop) (connections : List PortConnection)
    (hcalling : P calling.1.toNetwork) (hunredirected :
      (Registry.builtin.resolve (numberNode connections)).redirectedFrom = none)
    (hP : P (Operation.apply (.addNode .builtin (numberNode connections)) calling).1.toNetwork) :
    Edited .builtin P (Operation.apply (.addNode .builtin (numberNode connections)) calling) := by
  have hunmade : calling.2.Unmade ["number"] := Store.unmade_of_prefix _ _ (by decide)
  exact .edit _ _ (calling_edited P hcalling) ⟨rfl, hunredirected, hunmade, hP⟩

theorem compiledView_reloaded_connected :
    Registry.builtin.Accepting ∧ Edited .builtin Network.Opened connectedLater ∧
      connectedLater.1.All (Network.ReadsBack connectedLater.2.vars) ∧
      (ofData .builtin (connectedLater.1.toData connectedLater.2.vars) default).1.compiledView
          .standard default
        = connectedLater.1.compiledView .standard default := by
  have hregistry := Registry.builtin_restorable.accepting
  have hst : Edited .builtin Network.Opened connectedLater := by
    unfold connectedLater
    refine .edit _ _ (number_edited _ _ ?_ (by decide +kernel) ?_) trivial
    · exact opened_of_unconnected _ (by decide +kernel)
    · exact opened_of_unconnected _ (by decide +kernel)
  have hreads : connectedLater.1.All (Network.ReadsBack connectedLater.2.vars) :=
    all_of_functionless _ (by decide +kernel) (by decide +kernel)
  exact ⟨hregistry, hst, hreads, compiledView_reloaded .builtin hregistry _ hst _ hreads .standard
    default default default⟩

/-- The slots of the nodes, by name and index. -/
def slotNames (v : GraphView) : List (List (String × Nat)) :=
  v.nodes.map fun n => n.slots.map fun p => (p.name, p.index)

/-- A connection that is added with its node has no slot at the call, until the graph is
    reloaded. -/
theorem reloaded_rewires :
    Edited .builtin (fun _ => True) connectedAtOnce ∧
      connectedAtOnce.1.All (Network.ReadsBack connectedAtOnce.2.vars) ∧
      ∃ v w, connectedAtOnce.1.compiledView .standard default = .ok v ∧
        (ofData .builtin (connectedAtOnce.1.toData connectedAtOnce.2.vars) default).1.compiledView
          .standard default = .ok w ∧
        ("args", 0) ∉ (slotNames v).flatten ∧ ("args", 0) ∈ (slotNames w).flatten := by
  refine ⟨number_edited _ _ trivial (by decide +kernel) trivial,
    all_of_functionless _ (by decide +kernel) (by decide +kernel), ?_⟩
  have hbefore : (connectedAtOnce.1.compiledView .standard default).toOption.map slotNames
      = some [[("input", 0), ("result", 0), ("next", 0)], [("value", 0)]] := by
    decide +kernel
  have hafter : ((ofData .builtin (connectedAtOnce.1.toData connectedAtOnce.2.vars)
      default).1.compiledView .standard default).toOption.map slotNames
      = some [[("input", 0), ("args", 0), ("result", 0), ("next", 0)], [("value", 0)]] := by
    decide +kernel
  obtain ⟨v, hv, hslots⟩ := Option.map_eq_some_iff.mp hbefore
  obtain ⟨w, hw, hslots'⟩ := Option.map_eq_some_iff.mp hafter
  have hok : ∀ (e : Except GraphError GraphView) (v : GraphView),
      e.toOption = some v → e = .ok v := by
    intro e v h
    cases e with
    | error _ => cases h
    | ok _ => rw [Option.some.inj h]
  refine ⟨v, w, hok _ v hv, hok _ w hw, ?_, ?_⟩
  · rw [hslots]
    decide
  · rw [hslots']
    decide

end Graph

end FlowGraph
