import FlowGraph.Proofs.Validation.Soundness

/-! # Saved links and live links

    Types are well-formed if they declare no port name twice and have a parameter for every
    placeholder (`NodeDescriptor.WellFormed`); then the report declares just what the
    registry resolves.

    The report gathers data links from saved records, by guids; the compiler gathers them
    from live slots, by handles.  Where all nodes are live and the slots are below the limit,
    both see the same links in the same order, if nodes are named by their positions
    (`Faithful.ends`). -/

namespace FlowGraph

open Validation

/-! ## Section 1: Well-formed types -/

/-- Whether a placeholder is below the number of parameters. -/
def PortType.fillable (parameters : Nat) : PortType → Bool
  | .generic index => index < parameters
  | _ => true

/-- No port name is declared twice, and there is a parameter for every placeholder. -/
structure NodeDescriptor.WellFormed (d : NodeDescriptor) : Prop where
  names : (d.ports.map (·.name)).Nodup
  ports : ∀ p ∈ d.ports, p.type.fillable d.genericParameters = true
  vars : ∀ v ∈ d.vars, v.type.fillable d.genericParameters = true

instance (d : NodeDescriptor) : Decidable d.WellFormed :=
  decidable_of_iff ((d.ports.map (·.name)).Nodup ∧
      (∀ p ∈ d.ports, p.type.fillable d.genericParameters = true) ∧
      ∀ v ∈ d.vars, v.type.fillable d.genericParameters = true)
    ⟨fun ⟨names, ports, vars⟩ => ⟨names, ports, vars⟩, fun ⟨names, ports, vars⟩ =>
      ⟨names, ports, vars⟩⟩

/-- All types are declared well. -/
def Registry.WellFormed (registry : Registry) : Prop :=
  ∀ t ∈ registry.types, t.descriptor.WellFormed

/-- No type declares a port name twice. -/
def Registry.DistinctPorts (registry : Registry) : Prop :=
  ∀ t ∈ registry.types, (t.descriptor.ports.map (·.name)).Nodup

theorem Registry.WellFormed.distinctPorts {registry : Registry} (hwell : registry.WellFormed) :
    registry.DistinctPorts := fun t ht => (hwell t ht).names

/-- The types of the library are. -/
theorem Registry.builtin_wellFormed : builtin.WellFormed := by
  unfold WellFormed
  decide

theorem mapM_eq_some {α β : Type} (f : α → Option β) (xs : List α)
    (h : ∀ x ∈ xs, ∃ y, f x = some y) : ∃ ys, xs.mapM f = some ys := by
  induction xs with
  | nil => exact ⟨[], rfl⟩
  | cons x rest ih =>
    obtain ⟨y, hy⟩ := h x List.mem_cons_self
    obtain ⟨ys, hys⟩ := ih fun z hz => h z (List.mem_cons_of_mem x hz)
    exact ⟨y :: ys, by simp [List.mapM_cons, hy, hys]⟩

theorem exists_instantiate_type (type : PortType) (arguments : List PortType)
    (h : type.fillable arguments.length = true) :
    ∃ filled, type.instantiate arguments = some filled := by
  cases type with
  | generic index =>
    have hlt : index < arguments.length := of_decide_eq_true h
    exact ⟨_, List.getElem?_eq_getElem hlt⟩
  | _ => exact ⟨_, rfl⟩

/-- There is a parameter for every placeholder. -/
structure NodeDescriptor.Fillable (d : NodeDescriptor) : Prop where
  ports : ∀ p ∈ d.ports, p.type.fillable d.genericParameters = true
  vars : ∀ v ∈ d.vars, v.type.fillable d.genericParameters = true

theorem NodeDescriptor.WellFormed.fillable {d : NodeDescriptor} (hd : d.WellFormed) : d.Fillable :=
  ⟨hd.ports, hd.vars⟩

/-- Such a type can be filled in. -/
theorem NodeDescriptor.Fillable.exists_instantiate {d : NodeDescriptor} (hd : d.Fillable)
    (arguments : List PortType) (hlength : arguments.length = d.genericParameters) :
    ∃ filled, d.instantiate arguments = some filled := by
  have hports : ∃ ports, d.ports.mapM (instantiatePort arguments) = some ports := by
    refine mapM_eq_some _ _ fun p hp => ?_
    obtain ⟨type, htype⟩ := exists_instantiate_type p.type arguments (hlength ▸ hd.ports p hp)
    exact ⟨{ p with type }, by simp [instantiatePort, htype]⟩
  have hvars : ∃ vars, d.vars.mapM (instantiateVariable arguments) = some vars := by
    refine mapM_eq_some _ _ fun v hv => ?_
    obtain ⟨type, htype⟩ := exists_instantiate_type v.type arguments (hlength ▸ hd.vars v hv)
    exact ⟨{ v with type }, by simp [instantiateVariable, htype]⟩
  obtain ⟨ports, hports⟩ := hports
  obtain ⟨vars, hvars⟩ := hvars
  exact ⟨{ d with ports, vars }, by simp [instantiate, hlength, hports, hvars]⟩

theorem argument?_of_parseArguments (n : NodeData) (arguments : List PortType)
    (h : Registry.parseArguments n = .ok arguments) :
    n.genericArguments.mapM argument? = some arguments := by
  unfold Registry.parseArguments at h
  generalize n.genericArguments = texts at h ⊢
  induction texts generalizing arguments with
  | nil =>
    cases h
    rfl
  | cons text rest ih =>
    rw [List.mapM_cons] at h ⊢
    obtain ⟨type, htype, h⟩ := bind_eq_ok _ _ _ h
    obtain ⟨others, hothers, h⟩ := bind_eq_ok _ _ _ h
    cases h
    rw [ih others hothers]
    cases hparse : PortType.parse text with
    | error e =>
      rw [hparse] at htype
      cases htype
    | ok parsed =>
      rw [hparse] at htype
      cases htype
      simp [argument?, hparse, Except.toOption]

namespace Registry

theorem tryResolve_of_live (registry : Registry) (n : NodeData)
    (hlive : (registry.resolve n).isPlaceholder = false) :
    registry.tryResolve n = .ok (registry.resolve n) := by
  unfold resolve at hlive ⊢
  cases h : registry.tryResolve n with
  | ok node => rfl
  | error e =>
    rw [h] at hlive
    cases hlive

/-- Arguments leave the names as they are declared. -/
theorem DistinctPorts.names_of_live {registry : Registry} (hregistry : registry.DistinctPorts)
    (n : NodeData) (hlive : (registry.resolve n).isPlaceholder = false) :
    ((registry.resolve n).descriptor.ports.map (·.name)).Nodup := by
  obtain ⟨id, t, _, ht, _, hd, _⟩ :=
    registry.tryResolve_eq_ok n _ (registry.tryResolve_of_live n hlive)
  have hsame := congrArg (List.map Prod.fst) (instantiate_outline n t _ _ hd).2
  simp only [List.map_map, Function.comp_def, PortDescriptor.outline] at hsame
  rw [hsame]
  exact hregistry t (registry.mem_types_of_find? id t ht)

/-- The report declares what the registry resolves. -/
theorem WellFormed.declare_of_live {registry : Registry} (hwell : registry.WellFormed)
    (n : NodeData) (hlive : (registry.resolve n).isPlaceholder = false) :
    declare registry n = .ok (registry.resolve n).descriptor ∧
      ((registry.resolve n).descriptor.ports.map (·.name)).Nodup := by
  refine ⟨?_, hwell.distinctPorts.names_of_live n hlive⟩
  obtain ⟨id, t, hid, ht, harguments, hd, _⟩ :=
    registry.tryResolve_eq_ok n _ (registry.tryResolve_of_live n hlive)
  have ht' := hwell t (registry.mem_types_of_find? id t ht)
  unfold declare
  simp only [hid, ht, Option.bind_some, argument?_of_parseArguments n _ harguments]
  unfold instantiate at hd
  split at hd
  · -- a type that is used as it is has nothing to fill in
    rename_i hplain
    simp only [Bool.and_eq_true, decide_eq_true_eq, List.isEmpty_iff] at hplain
    obtain ⟨filled, hfilled⟩ := ht'.fillable.exists_instantiate [] hplain.1.symm
    rw [hplain.2, hfilled, instantiate_nil _ _ hfilled, ← Except.ok.inj hd]
  · cases hfilled : t.descriptor.instantiate (registry.resolve n).genericArguments with
    | none =>
      rw [hfilled] at hd
      cases hd
    | some filled =>
      rw [hfilled] at hd
      rw [← Except.ok.inj hd]

end Registry

/-! ## Section 2: Links by positions -/

/-- A saved network all of whose nodes are live, and its live form. -/
structure Faithful (registry : Registry) (data : GraphData) (n : Network) : Prop where
  nodup : (data.nodes.map (·.guid)).Nodup
  named : ∀ d ∈ data.nodes, d.guid ≠ ""
  declares : ∀ d ∈ data.nodes, declare registry d = .ok (registry.resolve d).descriptor ∧
    ((registry.resolve d).descriptor.ports.map (·.name)).Nodup
  below : ∀ d ∈ data.nodes, ∀ r ∈ d.ports, r.index < maxArraySlots ∧
    ∀ c ∈ r.connections, c.portIndex < maxArraySlots
  carries : n.Carries registry data.nodes
  opened : n.Opened

/-- The positions at the two ends of a data link. -/
def NewLink.positions (n : Network) : NewLink → Option (Nat × Nat)
  | .control _ _ => none
  | .data target link =>
    match n.indexOf link.source.node, n.indexOf target.node with
    | some s, some t => some (s, t)
    | _, _ => none

/-- The positions at the two ends of a connection that was checked, if it is a data link. -/
def liveEnds (n : Network) : Except LinkProblem NewLink → Option (Nat × Nat)
  | .ok link => link.positions n
  | .error _ => none

/-- The same, of a connection that the report checked. -/
def savedEnds (nodes : List NodeData) : Except ValidationError (Option DataLink) →
    Option (Nat × Nat)
  | .ok link => link.bind (endsOf nodes)
  | .error _ => none

theorem filterMap_positions (n : Network) (checked : List (Except LinkProblem NewLink)) :
    (Network.validLinks checked).filterMap (NewLink.positions n)
      = checked.filterMap (liveEnds n) := by
  unfold Network.validLinks
  rw [List.filterMap_filterMap]
  refine List.filterMap_congr fun r _ => ?_
  cases r with
  | ok link => rfl
  | error _ => rfl

theorem filterMap_endsOf (nodes : List NodeData)
    (checked : List (Except ValidationError (Option DataLink))) :
    (dataLinks checked).filterMap (endsOf nodes) = checked.filterMap (savedEnds nodes) := by
  unfold dataLinks
  rw [List.filterMap_filterMap]
  refine List.filterMap_congr fun r _ => ?_
  cases r with
  | ok link => rfl
  | error _ => rfl

/-- Ports that can be linked are ports without a fault. -/
theorem fault?_of_checkLink (conversions : Conversions) (p q : PortDescriptor) (i j : Nat)
    (compatibility : Compatibility)
    (hlink : Port.checkLink (Port.ofDescriptor p i) (Port.ofDescriptor q j) conversions
      = .ok compatibility) : fault? conversions p q = none := by
  unfold Port.checkLink at hlink
  by_cases hdirection : p.direction = .output ∧ q.direction = .input
  · by_cases hkind : p.kind = q.kind
    · rw [if_neg (by simp [Port.ofDescriptor, hdirection]),
        if_neg (by simp [Port.ofDescriptor, hkind])] at hlink
      have hsame : (Port.ofDescriptor p i).isControl = p.isControl := rfl
      rw [hsame] at hlink
      unfold fault?
      rw [if_neg (by simp [hdirection]), if_neg (by simp [hkind])]
      cases hcontrol : p.isControl with
      | true => rfl
      | false =>
        cases hcompatible : conversions.compatibility p.type q.type with
        | some _ => rfl
        | none =>
          have htypes : conversions.compatibility (Port.ofDescriptor p i).type
            (Port.ofDescriptor q j).type = none := hcompatible
          rw [hcontrol, htypes] at hlink
          cases hlink
    · rw [if_neg (by simp [Port.ofDescriptor, hdirection]),
        if_pos (by simp [Port.ofDescriptor, hkind])] at hlink
      cases hlink
  · have hwrong : (decide ((Port.ofDescriptor p i).direction ≠ .output)
        || decide ((Port.ofDescriptor q j).direction ≠ .input)) = true := by
      rw [Bool.or_eq_true, decide_eq_true_eq, decide_eq_true_eq]
      exact not_and_or.mp hdirection
    rw [if_pos hwrong] at hlink
    cases hlink

/-- A control connection is no data link. -/
theorem savedEnds_control (g : GraphData) (ds : Declared) (conversions : Conversions)
    (guid : String) (output : PortDescriptor) (hcontrol : output.isControl = true)
    (c : PortConnection) :
    savedEnds g.nodes (checkConnection g ds conversions guid (some output) c) = none := by
  unfold checkConnection
  split
  · rfl
  · split
    · rfl
    · split
      · rfl
      · dsimp only
        split
        · rfl
        · rw [if_pos hcontrol]
          rfl

/-- Where no name is declared twice, a slot is found in the descriptor as in the node. -/
theorem GraphNode.port?_eq_slot? {x : GraphNode} (hx : x.LaidOut)
    (hnodup : (x.descriptor.ports.map (·.name)).Nodup) (name : String) (index : Nat)
    (hopen : ∀ p, x.descriptor.port? name = some p → p.array = true →
      Layout.HasSlot x.records p index) :
    x.port? name index = (slot? x.descriptor name index).map (Port.ofDescriptor · index) := by
  cases hslot : slot? x.descriptor name index with
  | some p =>
    obtain ⟨hport, _, hkind⟩ := slot?_eq_some _ _ _ p hslot
    apply port?_of_declared hx name index p hport
    by_cases harray : p.array = true
    · exact hopen p hport harray
    · unfold Layout.HasSlot
      rw [if_neg harray, hkind.resolve_left harray]
      exact Nat.one_pos
  | none =>
    cases hport : x.port? name index with
    | none => rfl
    | some q =>
      -- a slot that is there is one of the declared port of its name
      obtain ⟨d, hd, hname, hhas, _⟩ := exists_of_port? hx name index q hport
      have hfind : x.descriptor.port? name = some d := by
        cases hf : x.descriptor.ports.find? (·.name = name) with
        | none =>
          have hnot := List.find?_eq_none.mp hf d hd
          simp [hname] at hnot
        | some d' =>
          have hname' : d'.name = name := by simpa using List.find?_some hf
          have hsame := List.inj_on_of_nodup_map hnodup (List.mem_of_find?_eq_some hf) hd
            (hname'.trans hname.symm)
          rw [← hsame]
          exact hf
      have hindex : d.array = true ∨ index = 0 := by
        unfold Layout.HasSlot at hhas
        by_cases harray : d.array = true
        · exact .inl harray
        · rw [if_neg harray] at hhas
          exact .inr (by omega)
      unfold slot? at hslot
      rw [hfind] at hslot
      simp only [Option.filter_some] at hslot
      rcases hindex with harray | hzero
      · simp [harray] at hslot
      · simp [hzero] at hslot

namespace Faithful

variable {registry : Registry} {data : GraphData} {n : Network}

theorem unlinked (hn : Faithful registry data n) : Faithful registry data n.unlinked :=
  ⟨hn.nodup, hn.named, hn.declares, hn.below, hn.carries.unlinked, hn.opened.unlinked⟩

/-- The live node at a position has the guid and the descriptor that the report sees. -/
theorem stands (hn : Faithful registry data n) {i : Nat} {d : NodeData} {h : NodeHandle}
    {x : GraphNode} (hx : Stands registry data n i d h x) :
    x.guid = d.guid ∧ n.handleOf d.guid = some h ∧ n.indexOf h = some i ∧
      positionOf data.nodes d.guid = some i ∧
      (declared registry data.nodes).find? d.guid = some x.descriptor ∧
      (x.descriptor.ports.map (·.name)).Nodup := by
  have hmem := List.mem_of_getElem? hx.saved
  have hguid := hx.carries.guid (hn.named d hmem)
  obtain ⟨hdeclared, hnames⟩ := hn.declares d hmem
  refine ⟨hguid, ?_, ?_, positionOf_eq data.nodes hn.nodup i d hx.saved, ?_, ?_⟩
  · rw [← hguid]
    exact (hn.carries.distinct hn.nodup).handleOf h x hx.node
  · exact (n.indexOf_eq_some_iff hn.carries.sound h i).mpr hx.order
  · rw [hx.carries.descriptor]
    exact find?_declared data.nodes hn.nodup d hmem _ hdeclared
  · rw [hx.carries.descriptor]
    exact hnames

/-- A saved node of a guid, with its live form. -/
theorem exists_stands (hn : Faithful registry data n) (guid : String)
    (hany : data.nodes.any (·.guid = guid) = true) :
    ∃ i d h x, Stands registry data n i d h x ∧ d.guid = guid := by
  obtain ⟨d, hd, hguid⟩ := List.any_eq_true.mp hany
  obtain ⟨i, hi⟩ := List.mem_iff_getElem?.mp hd
  obtain ⟨h, x, _, horder, hx, hdx⟩ := hn.carries.live i d hi
  exact ⟨i, d, h, x, ⟨hi, horder, hx, hdx⟩, of_decide_eq_true hguid⟩

/-- The slot at the other end of a connection. -/
theorem target (hn : Faithful registry data n) {i j : Nat} {d e : NodeData} {h k : NodeHandle}
    {x y : GraphNode} (hx : Stands registry data n i d h x) (r : PortData) (hr : r ∈ d.ports)
    (c : PortConnection) (hc : c ∈ r.connections) (hy : Stands registry data n j e k y)
    (hguid : e.guid = c.nodeGuid) :
    y.port? c.portName c.portIndex
      = (slot? y.descriptor c.portName c.portIndex).map (Port.ofDescriptor · c.portIndex) := by
  obtain ⟨hsame, _, _, _, _, hnames⟩ := hn.stands hy
  have hindex := (hn.below d (List.mem_of_getElem? hx.saved) r hr).2 c hc
  refine GraphNode.port?_eq_slot? hy.carries.laidOut hnames _ _ fun p hp harray => ?_
  exact hn.opened h x hx.node r (hx.carries.mem_records r hr) c hc k y hy.node
    (hsame.trans hguid) hnames hindex p hp harray

/-- The slot that a record belongs to. -/
theorem source (hn : Faithful registry data n) {i : Nat} {d : NodeData} {h : NodeHandle}
    {x : GraphNode} (hx : Stands registry data n i d h x) (r : PortData) (hr : r ∈ d.ports) :
    x.port? r.name r.index
      = (slot? x.descriptor r.name r.index).map (Port.ofDescriptor · r.index) := by
  obtain ⟨_, _, _, _, _, hnames⟩ := hn.stands hx
  refine GraphNode.port?_eq_slot? hx.carries.laidOut hnames _ _ fun p hp harray => ?_
  have hname : p.name = r.name := by simpa using List.find?_some hp
  unfold Layout.HasSlot
  rw [if_pos harray, hname]
  exact Layout.lt_extent x.records r (hx.carries.mem_records r hr)
    (hn.below d (List.mem_of_getElem? hx.saved) r hr).1

/-- A connection that counts has the same ends as in the report. -/
theorem connection (hn : Faithful registry data n) (conversions : Conversions) {i : Nat}
    {d : NodeData} {h : NodeHandle} {x : GraphNode} (hx : Stands registry data n i d h x)
    (r : PortData) (hr : r ∈ d.ports) (c : PortConnection) (hc : c ∈ r.connections)
    (p : PortDescriptor) (hp : p.direction = .output) (j : Nat) :
    (n.checkConnection conversions x ⟨h, j⟩ (Port.ofDescriptor p r.index) c).bind (liveEnds n)
      = savedEnds data.nodes (checkConnection data (declared registry data.nodes) conversions
          d.guid (some p) c) := by
  obtain ⟨_, _, hindex, hposition, _, _⟩ := hn.stands hx
  unfold Network.checkConnection checkConnection
  by_cases hany : data.nodes.any (·.guid = c.nodeGuid) = true
  · obtain ⟨t, e, k, y, hy, hguid⟩ := hn.exists_stands c.nodeGuid hany
    have htarget := hn.target hx r hr c hc hy hguid
    obtain ⟨_, hhandle, hindex', hposition', hfind, _⟩ := hn.stands hy
    rw [hguid] at hhandle hposition' hfind
    simp only [hany, hhandle, hy.node, hfind, Bool.not_true, Bool.false_eq_true, if_false,
      Option.map_some, Option.bind_some]
    cases hslot : slot? y.descriptor c.portName c.portIndex with
    | none =>
      -- neither has the slot
      rw [hslot] at htarget
      cases hportIndex : y.portIndex c.portName c.portIndex with
      | none => rfl
      | some m =>
        unfold GraphNode.port? at htarget
        rw [hportIndex] at htarget
        have hnone : y.ports[m]? = none := htarget
        simp only [hnone]
        rfl
    | some q =>
      rw [hslot] at htarget
      obtain ⟨m, hportIndex, hport⟩ := (y.port?_eq_some_iff _ _ _).mp htarget
      simp only [hportIndex, hport]
      cases hfault : fault? conversions p q with
      | some fault =>
        cases hlink : Port.checkLink (Port.ofDescriptor p r.index)
            (Port.ofDescriptor q c.portIndex) conversions with
        | error e => rfl
        | ok compatibility =>
          have hnone := fault?_of_checkLink conversions p q _ _ compatibility hlink
          rw [hfault] at hnone
          cases hnone
      | none =>
        obtain ⟨compatibility, hlink⟩ :=
          exists_checkLink conversions p q r.index c.portIndex hp hfault
        simp only [hlink]
        have hcontrol : (Port.ofDescriptor p r.index).isControl = p.isControl := rfl
        rw [hcontrol]
        cases p.isControl with
        | true => rfl
        | false =>
          simp [liveEnds, NewLink.positions, savedEnds, endsOf, hindex, hindex', hposition,
            hposition']
  · -- no node has the guid
    have hhandle : n.handleOf c.nodeGuid = none := by
      cases hh : n.handleOf c.nodeGuid with
      | none => rfl
      | some k =>
        obtain ⟨y, hy, hguid⟩ := n.exists_of_handleOf c.nodeGuid k hh
        obtain ⟨t, e, he, horder, hey⟩ := hn.carries.saved k y hy
        have hsame := (hn.stands ⟨he, horder, hy, hey⟩).1
        exact absurd (List.any_eq_true.mpr ⟨e, List.mem_of_getElem? he,
          decide_eq_true (hsame.symm.trans hguid)⟩) hany
    simp only [hhandle, hany, Bool.not_false, if_true]
    rfl

/-- A record has the same data links as in the report. -/
theorem record (hn : Faithful registry data n) (conversions : Conversions) {i : Nat}
    {d : NodeData} {h : NodeHandle} {x : GraphNode} (hx : Stands registry data n i d h x)
    (r : PortData) (hr : r ∈ d.ports) :
    (n.checkRecord conversions h x r).filterMap (liveEnds n)
      = (checkRecord data (declared registry data.nodes) conversions d.guid r).filterMap
          (savedEnds data.nodes) := by
  obtain ⟨_, _, _, _, hfind, _⟩ := hn.stands hx
  have hsource := hn.source hx r hr
  unfold Network.checkRecord checkRecord
  by_cases hempty : r.connections.isEmpty = true
  · rw [if_pos hempty, if_pos hempty]
    rfl
  · rw [if_neg hempty, if_neg hempty, hfind]
    dsimp only
    cases hslot : slot? x.descriptor r.name r.index with
    | none =>
      rw [hslot] at hsource
      cases hportIndex : x.portIndex r.name r.index with
      | none => rfl
      | some m =>
        unfold GraphNode.port? at hsource
        rw [hportIndex] at hsource
        have hnone : x.ports[m]? = none := hsource
        simp only [hnone]
        rfl
    | some p =>
      rw [hslot] at hsource
      obtain ⟨m, hportIndex, hport⟩ := (x.port?_eq_some_iff _ _ _).mp hsource
      simp only [hportIndex, hport]
      have hdirection : (Port.ofDescriptor p r.index).direction = p.direction := rfl
      rw [hdirection]
      by_cases hp : p.direction = .output
      · rw [if_neg (not_not_intro hp), if_neg (not_not_intro hp), List.filterMap_filterMap,
          List.filterMap_map]
        have hall := fun c hc => hn.connection conversions hx r hr c hc p hp m
        have hcontrol : (Port.ofDescriptor p r.index).isControl = p.isControl := rfl
        unfold Network.countedConnections
        rw [hcontrol]
        cases hkind : p.isControl with
        | false => exact List.filterMap_congr hall
        | true =>
          -- only one control connection counts, but none is a data link
          have hnone := savedEnds_control data (declared registry data.nodes) conversions d.guid
            p hkind
          trans []
          · refine List.filterMap_eq_nil_iff.mpr fun c hc => ?_
            rw [hall c (List.mem_of_mem_take hc), hnone]
          · exact (List.filterMap_eq_nil_iff.mpr fun c _ => hnone c).symm
      · rw [if_pos hp, if_pos hp]
        rfl

/-- Each saved node stands at its position. -/
theorem forall₂_stands (hn : Faithful registry data n) :
    List.Forall₂ (fun d e => ∃ i, Stands registry data n i d e.1 e.2) data.nodes n.placed := by
  refine forall₂_of_getElem? hn.carries.nodes.length_eq fun i d e hd he => ?_
  obtain ⟨h, x, hplaced, horder, hx, hdx⟩ := hn.carries.live i d hd
  rw [he] at hplaced
  cases hplaced
  exact ⟨i, hd, horder, hx, hdx⟩

/-- **Same links.**  The compiler and the report see the same data links, in the same order. -/
theorem ends (hn : Faithful registry data n) (conversions : Conversions) :
    (n.checkAll conversions).filterMap (liveEnds n)
      = (checks registry conversions data).filterMap (savedEnds data.nodes) := by
  unfold Network.checkAll checks checkAll
  rw [List.filterMap_flatMap, List.filterMap_flatMap]
  refine (flatMap_eq_of_forall₂ (hn.forall₂_stands.imp fun d e hstands => ?_)).symm
  obtain ⟨i, hx⟩ := hstands
  rw [List.filterMap_flatMap, List.filterMap_flatMap]
  -- the records of opened slots have no connections
  obtain ⟨opened, hrecords, hnone⟩ := hx.carries.records
  rw [hrecords, List.flatMap_append]
  have hopened : opened.flatMap
      (fun r => (n.checkRecord conversions e.1 e.2 r).filterMap (liveEnds n)) = [] := by
    refine List.flatMap_eq_nil_iff.mpr fun r hr => ?_
    rw [n.checkRecord_empty conversions e.1 e.2 r (by simp [hnone r hr])]
    rfl
  rw [hopened, List.append_nil]
  exact List.flatMap_congr fun r hr => (hn.record conversions hx r hr).symm

end Faithful
end FlowGraph
