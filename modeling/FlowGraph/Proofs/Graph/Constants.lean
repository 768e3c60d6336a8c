import FlowGraph.Proofs.Value.Typed
import FlowGraph.Proofs.Graph.FirstValues
import FlowGraph.Proofs.Graph.Reloading

/-! # Constants that are saved

    The constant of an input is recorded as JSON, and the record is read as the type of the port
    when the slot is laid out: when the graph is hydrated, and when the constant makes a slot of
    an array port.  But where the slot is there already, the value itself is written to it.  So a
    slot that is there holds another value after the graph was saved and hydrated again, unless
    the value fits the type of its port (`Graph.constant_reloaded`).  A value fits a type if it is
    read back from its own JSON (`Value.ofJsonTyped_toJson_iff`). -/

namespace FlowGraph

/-! ## Section 1: Constants among the records -/

/-- The record of a slot is the first of its name and index. -/
theorem NodeData.exists_find?_modifyRecord (name : String) (index : Nat) (f : PortData → PortData)
    (hf : ∀ r, (f r).name = r.name ∧ (f r).index = r.index) (records : List PortData) :
    ∃ r, (modifyRecord name index f records).find? (·.isFor name index) = some (f r) := by
  have hfor : ∀ r, (f r).isFor name index = r.isFor name index := by
    intro r
    simp only [PortData.isFor, hf]
  induction records with
  | nil =>
    have hself : ({ name, index } : PortData).isFor name index = true := by simp [PortData.isFor]
    exact ⟨{ name, index }, List.find?_cons_of_pos (by rw [hfor, hself])⟩
  | cons r rest ih =>
    unfold modifyRecord
    by_cases hr : r.isFor name index = true
    · rw [if_pos hr]
      exact ⟨r, List.find?_cons_of_pos (by rw [hfor, hr])⟩
    · obtain ⟨r', hr'⟩ := ih
      refine ⟨r', ?_⟩
      rw [if_neg hr, List.find?_cons, Bool.eq_false_iff.mpr hr]
      exact hr'

/-- An input slot with a recorded constant has it, read as the port's type, at first. -/
theorem Layout.initialValue_constantRecord (slot : SlotRef) (v : Value)
    (records more : List PortData) (d : PortDescriptor) (hname : d.name = slot.port)
    (hinput : d.direction = .input) :
    initialValue (Graph.constantRecord slot v records ++ more) d slot.index
      = Value.ofJsonTyped v.toJson d.type := by
  obtain ⟨r, hr⟩ := NodeData.exists_find?_modifyRecord slot.port slot.index
    (fun r => { r with value := some v.toJson }) (fun _ => ⟨rfl, rfl⟩) records
  have hfound : (Graph.constantRecord slot v records ++ more).find?
      (·.isFor d.name slot.index) = some { r with value := some v.toJson } := by
    rw [hname, List.find?_append]
    unfold Graph.constantRecord
    rw [hr, Option.some_or]
  unfold initialValue
  rw [if_pos hinput, hfound]
  rfl

/-! ## Section 2: Slots by name -/

/-- The slot is there: its node, its place and its port. -/
structure Network.SlotAt (n : Network) (slot : SlotRef) (h : NodeHandle) (x : GraphNode) (i : Nat)
    (p : Port) : Prop where
  handle : n.handleOf slot.guid = some h
  node : n.node? h = some x
  index : x.portIndex slot.port slot.index = some i
  port : x.ports[i]? = some p

theorem Network.SlotAt.address? {n : Network} {slot : SlotRef} {h : NodeHandle} {x : GraphNode}
    {i : Nat} {p : Port} (hslot : n.SlotAt slot h x i p) :
    n.address? slot.guid slot.port slot.index = some ⟨h, i⟩ := by
  have hport : n.port? ⟨h, i⟩ = some p := by
    unfold Network.port?
    rw [hslot.node, Option.bind_some, hslot.port]
  unfold Network.address? Network.nodeOf Network.addressAt?
  simp only [hslot.handle, hslot.node, hslot.index, Option.bind_some, Option.map_some]
  rw [Option.filter_some, hport]
  rfl

namespace Graph

/-- What a slot holds, if it is there. -/
def valueAt? (g : Graph) (slot : SlotRef) (s : Store) : Option Value :=
  (g.address? slot.guid slot.port slot.index).map (s.cell g.id)

theorem valueAt?_of_slotAt {g : Graph} {slot : SlotRef} {h : NodeHandle} {x : GraphNode} {i : Nat}
    {p : Port} (hslot : g.SlotAt slot h x i p) (s : Store) :
    g.valueAt? slot s = some (s.cell g.id ⟨h, i⟩) := by
  unfold valueAt?
  rw [hslot.address?, Option.map_some]

end Graph

/-! ## Section 3: Nodes that are read again -/

/-- The node was made from one of the saved ones, up to its guid. -/
def GraphNode.Made (registry : Registry) (nodes : List NodeData) (x : GraphNode) : Prop :=
  ∃ d ∈ nodes, ∃ vs, ({ x with guid := d.guid } : GraphNode).Restores registry vs d

namespace Graph

variable (registry : Registry)

theorem ofData_made (data : GraphData) (s : Store) (h : NodeHandle) (y : GraphNode)
    (hy : (ofData registry data s).1.node? h = some y) : y.Made registry data.nodes := by
  have hplaced := placeNodes_all (GraphNode.Made registry data.nodes) registry data s
    fun d hd x vs guid hx _ => ⟨d, hd, vs, rfl, hx.position, hx.type, hx.genericArguments,
      hx.descriptor, hx.behavior, hx.invalid, hx.vars⟩
  have hdiffers := (placeNodes registry data s).1.differs_addIncomingSlots
    (placeNodes registry data s).2 (placeNodes_laidOut registry data s)
  rw [ofData_eq, placeAll_eq] at hy
  obtain ⟨x, hx, rfl⟩ := Option.map_eq_some_iff.mp ((hdiffers.node h).symm.trans hy)
  obtain ⟨d, hd, vs, hrestores⟩ := hplaced h x hx
  exact ⟨d, hd, vs, hrestores.laidOut _⟩

theorem ofData_arranged (hregistry : registry.DistinctPorts) (data : GraphData) (s : Store) :
    (ofData registry data s).1.toNetwork.Arranged := by
  intro h x hx
  obtain ⟨d, _, vs, hrestores⟩ := ofData_made registry data s h x hx
  refine ⟨ofData_laidOut registry data s h x hx, ?_⟩
  rw [show x.descriptor = (registry.resolve d).descriptor from hrestores.descriptor]
  exact nodup_names registry hregistry d

theorem ofData_carries (data : GraphData) (s : Store) (hnodup : (data.nodes.map (·.guid)).Nodup)
    (hfresh : ∀ d ∈ data.nodes, d.guid = "" → s.Unmade (data.nodes.map (·.guid))) :
    (ofData registry data s).1.toNetwork.Carries registry data.nodes := by
  have hplaced := (placeAll_carries registry data s hnodup hfresh).1
  rw [ofData_eq]
  exact ⟨hplaced.sound, hplaced.nodes⟩

/-- A node of a graph with guids of their own is there again when the graph was saved and hydrated,
    with its type and its records. -/
theorem exists_reloaded (k : Graph) (hsound : k.toNetwork.Sound) (hdistinct : k.toNetwork.Distinct)
    (hnamed : ∀ h x, k.node? h = some x → x.guid ≠ "") (vs : Variables) (h : NodeHandle)
    (x : GraphNode) (hx : k.node? h = some x)
    (hresolve : (registry.resolve (x.toData vs)).descriptor = x.descriptor) (w : Store) :
    ∃ h' y, (ofData registry (k.toData vs) w).1.handleOf x.guid = some h' ∧
      (ofData registry (k.toData vs) w).1.node? h' = some y ∧ y.descriptor = x.descriptor ∧
      y.LaidOut ∧ ∃ opened, y.records = x.records ++ opened := by
  have hdata : (k.toData vs).nodes = k.placed.map fun e => e.2.toData vs := by rw [toData_eq]
  have hsaved := Network.named_toData hsound hdistinct hnamed vs _ hdata
  have hcarries := ofData_carries registry (k.toData vs) w hsaved.nodup
    fun d hd hnone => absurd hnone (hsaved.nonempty d hd)
  obtain ⟨i, hi⟩ := List.mem_iff_getElem?.mp ((k.mem_placed_iff hsound h x).mpr hx)
  have hxi : (k.toData vs).nodes[i]? = some (x.toData vs) := by
    rw [hdata, List.getElem?_map, hi]
    rfl
  obtain ⟨h', y, _, _, hy, hxy⟩ := hcarries.live i _ hxi
  have hguid : y.guid = x.guid :=
    (hxy.guid (x.toData_guid vs ▸ hnamed h x hx)).trans (x.toData_guid vs)
  obtain ⟨opened, hrecords, _⟩ := hxy.records
  exact ⟨h', y, hguid ▸ (hcarries.distinct hsaved.nodup).handleOf h' y hy, hy,
    hxy.descriptor.trans hresolve, hxy.laidOut, opened, by rw [hrecords, x.toData_ports vs]⟩

/-! ## Section 4: Setting a constant -/

/-- A slot with a constant on record, which it is given when its node is laid out. -/
structure HasConstant (g : Graph) (slot : SlotRef) (v : Value) (h : NodeHandle) (x : GraphNode)
    (d : PortDescriptor) : Prop where
  handle : g.handleOf slot.guid = some h
  node : g.node? h = some x
  laidOut : x.LaidOut
  names : (x.descriptor.ports.map (·.name)).Nodup
  recorded : ∃ records more, x.records = constantRecord slot v records ++ more
  declared : x.descriptor.port? slot.port = some d
  hasSlot : Layout.HasSlot x.records d slot.index

theorem HasConstant.valueAt? {g : Graph} {slot : SlotRef} {v : Value} {h : NodeHandle}
    {x : GraphNode} {d : PortDescriptor} (hg : g.HasConstant slot v h x d)
    (hinput : d.direction = .input) (s : Store)
    (hrow : s.row g.id h.index = some x.initialValues.toArray) :
    g.valueAt? slot s = some (Value.ofJsonTyped v.toJson d.type) := by
  obtain ⟨i, hi, hp⟩ := (x.port?_eq_some_iff _ _ _).mp
    (GraphNode.port?_of_declared hg.laidOut slot.port slot.index d hg.declared hg.hasSlot)
  have hslot : g.SlotAt slot h x i (Port.ofDescriptor d slot.index) := ⟨hg.handle, hg.node, hi, hp⟩
  obtain ⟨e, he, _, _, hvalue⟩ :=
    hg.laidOut.exists_declared hg.names slot.port slot.index i _ hi hp
  obtain rfl : d = e := Option.some.inj (hg.declared.symm.trans he)
  have hname : d.name = slot.port := NodeDescriptor.name_of_port? hg.declared
  obtain ⟨records, more, hrecords⟩ := hg.recorded
  rw [hrecords, Layout.initialValue_constantRecord slot v records more d hname hinput] at hvalue
  rw [valueAt?_of_slotAt hslot, Store.cell_of_row hrow hvalue]

/-- A slot that is there once its constant was set had been there and the value was written to it,
    or its node was laid out with the constant on record. -/
theorem setConstant_slotAt {g k : Graph} {slot : SlotRef} {v : Value} {s u : Store}
    (hset : g.setConstant slot v s = ((k, .ok ()), u)) {h : NodeHandle} {x : GraphNode} {i : Nat}
    {p : Port} (hslot : k.SlotAt slot h x i p) :
    k.id = g.id ∧ ∃ y, g.handleOf slot.guid = some h ∧ g.node? h = some y ∧
      ((x = { y with records := constantRecord slot v y.records } ∧
          y.portIndex slot.port slot.index = some i ∧ u = s.writeCell g.id ⟨h, i⟩ v) ∨
        (x = ({ y with records := constantRecord slot v y.records } : GraphNode).laidOut ∧
          y.portIndex slot.port slot.index = none ∧
          (k, u) = (g.modifyRecords h (constantRecord slot v)).layOut h s)) := by
  have hkeeps := (g.setConstant_keeps slot v s).network
  rw [hset] at hkeeps
  obtain ⟨h', y, hh', hy, hcases⟩ := setConstant_ok hset
  obtain rfl : h' = h :=
    Option.some.inj (hh'.symm.trans ((hkeeps.handleOf _).symm.trans hslot.handle))
  have hx := hslot.node
  rcases hcases with ⟨j, hj, rfl, rfl⟩ | ⟨hnone, heq⟩
  · rw [g.node?_modifyRecords_self h' _ y hy] at hx
    obtain rfl := Option.some.inj hx
    obtain rfl : j = i := Option.some.inj (hj.symm.trans hslot.index)
    exact ⟨rfl, y, hh', hy, .inl ⟨rfl, hj, rfl⟩⟩
  · have hk : k = ((g.modifyRecords h' (constantRecord slot v)).layOut h' s).1 :=
      congrArg Prod.fst heq
    have hid : k.id = g.id := by
      rw [hk, layOut_graph]
      rfl
    rw [hk, g.node?_layOut_self h' _ s y hy] at hx
    exact ⟨hid, y, hh', hy, .inr ⟨(Option.some.inj hx).symm, hnone, heq⟩⟩

/-- A constant that was set is on record, wherever the slot is. -/
theorem setConstant_hasConstant {g k : Graph} {slot : SlotRef} {v : Value} {s u : Store}
    (hg : g.toNetwork.Arranged) (hset : g.setConstant slot v s = ((k, .ok ()), u)) {h : NodeHandle}
    {x : GraphNode} {i : Nat} {p : Port} (hslot : k.SlotAt slot h x i p) :
    ∃ d, k.HasConstant slot v h x d ∧ p = Port.ofDescriptor d slot.index := by
  have hrerecords := g.setConstant_rerecords slot v s hg
  rw [hset] at hrerecords
  obtain ⟨hlaid, hnames⟩ := hg.rerecorded hrerecords h x hslot.node
  obtain ⟨d, hd, hhas, hp, _⟩ :=
    hlaid.exists_declared hnames slot.port slot.index i p hslot.index hslot.port
  have hrecorded : ∃ records more, x.records = constantRecord slot v records ++ more := by
    obtain ⟨_, y, _, _, ⟨rfl, _⟩ | ⟨rfl, _⟩⟩ := setConstant_slotAt hset hslot
    · exact ⟨y.records, [], (List.append_nil _).symm⟩
    · exact ⟨y.records, [], (List.append_nil _).symm⟩
  exact ⟨d, ⟨hslot.handle, hslot.node, hlaid, hnames, hrecorded, hd, hhas⟩, hp⟩

/-- What a slot holds once its constant was set: the value itself if the slot was there, and what
    is read from the record if it was made. -/
theorem setConstant_valueAt? {g k : Graph} {slot : SlotRef} {v : Value} {s u : Store}
    (hg : g.toNetwork.Arranged) (hstocked : g.Stocked s)
    (hset : g.setConstant slot v s = ((k, .ok ()), u)) {h : NodeHandle} {x : GraphNode} {i : Nat}
    {p : Port} (hslot : k.SlotAt slot h x i p) (hinput : p.direction = .input) :
    (∃ w, g.valueAt? slot s = some w ∧ k.valueAt? slot u = some v) ∨
      (g.valueAt? slot s = none ∧
        k.valueAt? slot u = some (Value.ofJsonTyped v.toJson p.type)) := by
  obtain ⟨d, hconstant, rfl⟩ := setConstant_hasConstant hg hset hslot
  obtain ⟨hid, y, hh, hy, hcases⟩ := setConstant_slotAt hset hslot
  rcases hcases with ⟨rfl, hi, rfl⟩ | ⟨rfl, hnone, heq⟩
  · -- the slots are the same ones, and the value is written to this one
    have hbefore : g.SlotAt slot h y i _ := ⟨hh, hy, hi, hslot.port⟩
    obtain ⟨_, _, _, _, _, hvalue⟩ := (hg h y hy).1.exists_initialValue i _ hslot.port
    have hsize : s.rowSize g.id h.index = some y.initialValues.length := by
      have hrow := hstocked.valued h y hy
      unfold Store.row at hrow
      unfold Store.rowSize
      rw [hrow, Option.map_some, List.size_toArray]
    refine .inl ⟨_, valueAt?_of_slotAt hbefore s, ?_⟩
    rw [valueAt?_of_slotAt hslot, hid]
    exact congrArg some (s.cell_writeCell_self g.id ⟨h, i⟩ v _ hsize
      (List.getElem?_eq_some_iff.mp hvalue).1)
  · -- the node was laid out with the constant on record
    have hgone : g.valueAt? slot s = none := by
      unfold valueAt? Network.address? Network.nodeOf
      simp only [hh, hy, hnone, Option.bind_some, Option.bind_none, Option.map_none]
    refine .inr ⟨hgone, hconstant.valueAt? hinput u ?_⟩
    rw [hid, show u = _ from congrArg Prod.snd heq]
    exact layOut_row _ h _ (g.node?_modifyRecords_self h _ y hy) s hstocked.known

/-! ## Section 5: Saving and reading again -/

/-- **Main theorem: what is saved is read as the port's type.**  In a graph that was hydrated a
    constant was set, at an input slot that is there now.  In the graph that is hydrated from its
    saved form the slot is there too, and it holds the same, unless it had been there before the
    constant was set and the value does not fit its type. -/
theorem constant_reloaded (registry : Registry) (hregistry : registry.Accepting) (data : GraphData)
    (s : Store) (hnodup : (data.nodes.map (·.guid)).Nodup)
    (hfresh : ∀ d ∈ data.nodes, d.guid = "" → s.Unmade (data.nodes.map (·.guid)))
    (hknown : data.Unredirected registry ∨ ∀ t ∈ registry.types, registry.Knows t)
    (slot : SlotRef) (v : Value) (hv : v.Plain) (k : Graph) (u : Store)
    (hset : (ofData registry data s).1.setConstant slot v (ofData registry data s).2
      = ((k, .ok ()), u))
    (h : NodeHandle) (x : GraphNode) (i : Nat) (p : Port) (hslot : k.SlotAt slot h x i p)
    (hinput : p.direction = .input) (hreads : x.ReadsBack u.vars) (w : Store) :
    let hydrated := ofData registry data s
    let reloaded := ofData registry (k.toData u.vars) w
    ∃ stored reread, k.valueAt? slot u = some stored ∧
      reloaded.1.valueAt? slot reloaded.2 = some reread ∧
      (reread = stored ↔
        ((hydrated.1.valueAt? slot hydrated.2).isSome = true → v.Fits p.type)) := by
  intro hydrated reloaded
  have harranged := ofData_arranged registry hregistry.ports data s
  have hcarries := ofData_carries registry data s hnodup hfresh
  have hkeeps := (hydrated.1.setConstant_keeps slot v hydrated.2).network
  have hrerecords := hydrated.1.setConstant_rerecords slot v hydrated.2 harranged
  rw [hset] at hkeeps hrerecords
  obtain ⟨d, hconstant, rfl⟩ := setConstant_hasConstant harranged hset hslot
  -- the node is saved as one of its type
  obtain ⟨y, records, hy, _, hyx⟩ := hrerecords h x hslot.node
  obtain ⟨saved, hsaved, vs, hrestores⟩ := ofData_made registry data s h y hy
  have hrestores' : ({ x with guid := saved.guid } : GraphNode).Restores registry vs saved := by
    rw [hyx]
    exact hrestores.laidOut records
  have hresolve := GraphNode.resolve_toData hregistry hrestores' (hknown.imp (· saved hsaved) id)
    u.vars hreads
  have hnamed : ∀ h x, k.node? h = some x → x.guid ≠ "" := by
    intro h x hx
    obtain ⟨y, hy, hyx⟩ := hkeeps.before h x hx
    exact hyx.guid ▸ hcarries.named h y hy
  obtain ⟨h', z, hz, hz', hdescriptor, hlaid, opened, hrecords⟩ := exists_reloaded registry k
    (hkeeps.sound hcarries.sound) ((hcarries.distinct hnodup).rerecorded hrerecords) hnamed u.vars
    h x hslot.node hresolve w
  -- and it has the constant on record when it is read again
  have hagain : reloaded.1.HasConstant slot v h' z d := by
    obtain ⟨x', hx', hguid⟩ := k.exists_of_handleOf slot.guid h hslot.handle
    obtain rfl : x' = x := Option.some.inj (hx'.symm.trans hslot.node)
    obtain ⟨first, more, hfirst⟩ := hconstant.recorded
    refine ⟨hguid ▸ hz, hz', hlaid, hdescriptor ▸ hconstant.names, ⟨first, more ++ opened, ?_⟩,
      hdescriptor ▸ hconstant.declared, ?_⟩
    · rw [hrecords, hfirst, List.append_assoc]
    · rw [hrecords]
      exact hconstant.hasSlot.append opened
  have hreread := hagain.valueAt? hinput reloaded.2
    ((ofData_stocked registry (k.toData u.vars) w).valued h' z hz')
  rcases setConstant_valueAt? harranged (ofData_stocked registry data s) hset hslot hinput with
    ⟨old, hold, hstored⟩ | ⟨hnone, hstored⟩
  · refine ⟨_, _, hstored, hreread, ?_⟩
    rw [Value.ofJsonTyped_toJson_iff v hv d.type, hold]
    exact ⟨fun hfits _ => hfits, fun hfits => hfits rfl⟩
  · refine ⟨_, _, hstored, hreread, ?_⟩
    rw [hnone]
    exact ⟨fun _ hsome => absurd hsome (by decide), fun _ => rfl⟩

theorem eq_of_ok (result : (Graph × Except GraphError Unit) × Store) (h : result.1.2 = .ok ()) :
    result = ((result.1.1, .ok ()), result.2) := by
  obtain ⟨⟨k, e⟩, u⟩ := result
  cases h
  rfl

/-- A branch and a sum, without constants yet. -/
def unset : GraphData where
  name := "unset"
  nodes := [
    { guid := "test", type := "Ceres.Flow.Branch" },
    { guid := "sum", type := "Ceres.Math.Add" }]

/-- The condition of a branch is a truth value, and is read as one. -/
theorem constant_reloaded_condition :
    let hydrated := ofData .builtin unset default
    let slot : SlotRef := ⟨"test", "condition", 0⟩
    ∃ k u, hydrated.1.setConstant slot (.bool true) hydrated.2 = ((k, .ok ()), u) ∧
      ∃ stored, k.valueAt? slot u = some stored ∧
        (ofData .builtin (k.toData u.vars) default).1.valueAt? slot
          (ofData .builtin (k.toData u.vars) default).2 = some stored := by
  intro hydrated slot
  let result := hydrated.1.setConstant slot (.bool true) hydrated.2
  have hok : result.1.2 = .ok () := by decide +kernel
  have hset : result = ((result.1.1, .ok ()), result.2) := eq_of_ok result hok
  have hhandle : result.1.1.handleOf "test" = some ⟨0, 0⟩ := by decide +kernel
  have hnode : ((result.1.1.node? ⟨0, 0⟩).map fun x =>
      (x.portIndex "condition" 0, (x.ports[1]?).map fun p => (p.direction, p.type),
        decide (x.ReadsBack result.2.vars))) = some (some 1, some (.input, .bool), true) := by
    decide +kernel
  obtain ⟨x, hx, heq⟩ := Option.map_eq_some_iff.mp hnode
  simp only [Prod.mk.injEq, Option.map_eq_some_iff, decide_eq_true_eq] at heq
  obtain ⟨hindex, ⟨p, hp, hinput, htype⟩, hreads⟩ := heq
  obtain ⟨stored, reread, hstored, hreread, hiff⟩ := constant_reloaded .builtin
    Registry.builtin_restorable.accepting unset default (by decide)
    (fun d hd hnone => absurd hnone (by revert d; decide)) (.inr Registry.builtin_knows) slot
    (.bool true) trivial result.1.1 result.2 hset ⟨0, 0⟩ x 1 p ⟨hhandle, hx, hindex, hp⟩ hinput
    hreads default
  have hsame : reread = stored := hiff.mpr fun _ => by
    rw [htype]
    rfl
  exact ⟨_, _, hset, stored, hstored, hsame ▸ hreread⟩

/-- An integer may be the constant of a summand, which is then read as a float. -/
theorem constant_reloaded_summand :
    let hydrated := ofData .builtin unset default
    let slot : SlotRef := ⟨"sum", "a", 0⟩
    ∃ k u, hydrated.1.setConstant slot (.int 3) hydrated.2 = ((k, .ok ()), u) ∧
      k.valueAt? slot u = some (.int 3) ∧
        (ofData .builtin (k.toData u.vars) default).1.valueAt? slot
          (ofData .builtin (k.toData u.vars) default).2 ≠ some (.int 3) := by
  intro hydrated slot
  let result := hydrated.1.setConstant slot (.int 3) hydrated.2
  have hok : result.1.2 = .ok () := by decide +kernel
  refine ⟨result.1.1, result.2, eq_of_ok result hok, ?_, ?_⟩
  · decide +kernel
  · decide +kernel

end Graph
end FlowGraph
