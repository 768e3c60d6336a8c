import FlowGraph.Proofs.Graph.Hosting
import FlowGraph.Proofs.Graph.Records
import FlowGraph.Proofs.Store

/-! # Connecting again

    A connection that was recorded can be recorded again, and nothing comes of it
    (`Graph.connect_again`): the record of the output holds it already, and the slot at its
    other end is there.  Only where the other end is past the limit of an array port there is
    never such a slot, and every time one more record asks for it.  The slots and their values
    stay as they are even then.

    Laying a node out anew does nothing where the node holds the first values of the slots that
    its records ask for (`Graph.Initial`), as it does once it was laid out. -/

namespace FlowGraph

/-! ## Section 1: Records that are written again -/

namespace NodeData

/-- The record of a slot is found again, also where records were added, and a change that does
    nothing the second time leaves it. -/
theorem modifyRecord_again (name : String) (index : Nat) (f : PortData → PortData)
    (hnamed : ∀ r, (f r).name = r.name ∧ (f r).index = r.index) (hagain : ∀ r, f (f r) = f r)
    (records more : List PortData) :
    modifyRecord name index f (modifyRecord name index f records ++ more)
      = modifyRecord name index f records ++ more := by
  have hfor : ∀ r, (f r).isFor name index = r.isFor name index := by
    intro r
    simp only [PortData.isFor, hnamed]
  induction records with
  | nil =>
    have hself : ({ name, index } : PortData).isFor name index = true := by simp [PortData.isFor]
    simp [modifyRecord, hfor, hagain, hself]
  | cons r rest ih =>
    unfold modifyRecord
    -- the first record of the slot is the one that was changed, and it is still the first
    by_cases hr : r.isFor name index = true
    · simp [hr, hfor, hagain, modifyRecord]
    · simp only [hr, Bool.false_eq_true, if_false, List.cons_append, modifyRecord, ih]

end NodeData

theorem Graph.addConnection_again (c : PortConnection) (r : PortData) :
    addConnection c (addConnection c r) = addConnection c r := by
  unfold addConnection
  by_cases hr : r.connections.contains c = true
  · simp only [hr, if_true]
  · simp only [hr, Bool.false_eq_true, if_false, List.contains_append, List.contains_cons,
      BEq.rfl, Bool.true_or, Bool.or_true, if_true]

namespace Layout

variable (records : List PortData) (r : PortData) (hindex : maxArraySlots ≤ r.index)

include hindex

/-- A record past the limit asks for nothing. -/
theorem slots_append_past (ports : List PortDescriptor) :
    slots (records ++ [r]) ports = slots records ports := by
  have hextent : ∀ name, extent (records ++ [r]) name = extent records name := by
    intro name
    simp [extent, List.foldl_append, Nat.not_lt.mpr hindex]
  unfold slots slotsOf
  simp only [hextent]

theorem portsOf_append_past (ports : List PortDescriptor) :
    portsOf (records ++ [r]) ports = portsOf records ports := by
  unfold portsOf
  rw [slots_append_past records r hindex]

/-- Without a value it does not give one to a slot, either. -/
theorem initialValues_append_past (hvalue : r.value = none) (ports : List PortDescriptor) :
    initialValues (records ++ [r]) ports = initialValues records ports := by
  unfold initialValues
  rw [slots_append_past records r hindex]
  refine List.map_congr_left fun ⟨d, i⟩ _ => ?_
  have hsame : ((records ++ [r]).find? (·.isFor d.name i)).bind (·.value)
      = (records.find? (·.isFor d.name i)).bind (·.value) := by
    rw [List.find?_append]
    cases records.find? (·.isFor d.name i) with
    | some _ => rfl
    | none =>
      rw [Option.none_or, List.find?_singleton]
      split
      · exact hvalue
      · rfl
  simp only [initialValue, hsame]

end Layout

/-! ## Section 2: First values -/

namespace Store

/-- The values at the slots of a node, if there is such a graph. -/
def Holds (s : Store) (g : GraphId) (h : NodeHandle) (values : List Value) : Prop :=
  ∀ x, s.graphs[g]? = some x → x.cells[h.index]? = some values.toArray

theorem holds_fill (s : Store) (g : GraphId) (h : NodeHandle) (values : List Value) :
    (s.fill g h values).Holds g h values := by
  intro x hx
  simp only [fill, Array.getElem?_modify, if_true, Option.map_eq_some_iff] at hx
  obtain ⟨y, _, rfl⟩ := hx
  exact getElem?_setRow_self y.cells h.index values.toArray

/-- Other nodes keep their values. -/
theorem Holds.fill_of_ne {s : Store} {g : GraphId} {h : NodeHandle} {values : List Value}
    (hs : s.Holds g h values) (k : NodeHandle) (others : List Value) (hne : h.index ≠ k.index) :
    (s.fill g k others).Holds g h values := by
  intro x hx
  simp only [fill, Array.getElem?_modify, if_true, Option.map_eq_some_iff] at hx
  obtain ⟨y, hy, rfl⟩ := hx
  exact getElem?_setRow_of_ne y.cells k.index h.index others.toArray _ hne (hs y hy)

theorem Holds.fill_eq {s : Store} {g : GraphId} {h : NodeHandle} {values : List Value}
    (hs : s.Holds g h values) : s.fill g h values = s := by
  have hgraphs : (s.fill g h values).graphs = s.graphs := by
    refine Array.ext_getElem? fun i => ?_
    unfold fill
    rw [Array.getElem?_modify]
    split
    · rename_i hi
      subst hi
      cases hx : s.graphs[g]? with
      | none => rfl
      | some x =>
        -- the row that is written is the one that is there
        obtain ⟨hlt, hrow⟩ := Array.getElem?_eq_some_iff.mp (hs x hx)
        simp [setRow, hlt, ← hrow, Array.setIfInBounds]
    · rfl
  show { s with graphs := (s.fill g h values).graphs } = s
  rw [hgraphs]

end Store

namespace Graph

variable {g : Graph} {s : Store}

/-- The node of the handle, if there is one, has the slots that its records ask for, and they
    hold their first values. -/
def Initial (g : Graph) (h : NodeHandle) (s : Store) : Prop :=
  ∀ x, g.node? h = some x → x.LaidOut ∧ s.Holds g.id h x.initialValues

theorem layOut_initial (g : Graph) (h : NodeHandle) (s : Store) :
    (g.layOut h s).1.Initial h (g.layOut h s).2 := by
  intro y hy
  rw [layOut_graph] at hy
  obtain ⟨x, hx, rfl⟩ : ∃ x, g.node? h = some x ∧ x.laidOut = y := by
    unfold Network.node? at hy
    rw [Arena.get?_modify, if_pos rfl] at hy
    exact Option.map_eq_some_iff.mp hy
  refine ⟨rfl, ?_⟩
  unfold layOut
  simp only [hx]
  exact Store.holds_fill _ g.id h x.initialValues

/-- Where a node is initial, laying it out again only repeats the warnings. -/
theorem Initial.layOut_eq {h : NodeHandle} (hg : g.Initial h s) :
    ∃ log, g.layOut h s = (g, { s with log }) := by
  refine ⟨(g.layOut h s).2.log, Prod.ext ?_ ?_⟩
  · rw [layOut_graph, Arena.modify_eq_self g.nodes h GraphNode.laidOut
      fun x hx => (hg x hx).1.laidOut_eq]
    cases g
    rfl
  · unfold layOut
    cases hx : g.node? h with
    | none => rfl
    | some x =>
      have hfill : ∀ log, ({ s with log } : Store).fill g.id h x.initialValues
          = { s with log } := fun log => Store.Holds.fill_eq (s := { s with log }) (hg x hx).2
      exact (hfill _).trans rfl

theorem modifyRecords_eq_self (g : Graph) (h : NodeHandle) (f : List PortData → List PortData)
    (hf : ∀ x, g.node? h = some x → f x.records = x.records) : g.modifyRecords h f = g := by
  unfold modifyRecords
  rw [Arena.modify_eq_self g.nodes h _ fun x hx => by rw [hf x hx]]
  cases g
  rfl

/-! ## Section 3: Slots that are opened again -/

/-- The slot is one of an array port of a node, and past the limit. -/
def PastLimit (g : Graph) (slot : SlotRef) : Prop :=
  maxArraySlots ≤ slot.index ∧ ∃ h y, g.handleOf slot.guid = some h ∧ g.node? h = some y ∧
    y.descriptor.isArray slot.port = true

/-- There is no need to open the slot: it is there or past the limit, where the node is initial,
    or not one of an array port. -/
def Ready (g : Graph) (target : SlotRef) (s : Store) : Prop :=
  ∀ k y, g.handleOf target.guid = some k → g.node? k = some y →
    y.descriptor.isArray target.port = true →
      (y.port? target.port target.index).isSome = true ∨
        (maxArraySlots ≤ target.index ∧ g.Initial k s)

/-- A slot that was opened is there, unless it is past the limit. -/
theorem openSlot_ready (g : Graph) (target : SlotRef) (s : Store) :
    (g.openSlot target s).1.Ready target (g.openSlot target s).2 := by
  rcases g.openSlot_cases target s with ⟨heq, hthere⟩ | ⟨k, y, hk, hy, harray, _, heq⟩
  · rw [heq]
    exact fun k y hk hy harray => .inl (hthere k y hk hy harray)
  · intro k' z hk' hz _
    have hkeeps := g.openSlot_keeps target s
    rw [hkeeps.network.handleOf, hk] at hk'
    obtain rfl := Option.some.inj hk'
    rw [heq] at hz ⊢
    by_cases hindex : maxArraySlots ≤ target.index
    · exact .inr ⟨hindex, layOut_initial _ k s⟩
    · refine .inl ?_
      rw [g.node?_layOut_self k _ s y hy] at hz
      obtain rfl := Option.some.inj hz
      -- the record that was added asks for the slot
      obtain ⟨d, hd, hdarray⟩ := (y.descriptor.isArray_eq_true_iff target.port).mp harray
      have hslot := Layout.hasSlot_of_mem hdarray { name := target.port, index := target.index }
        (List.mem_append_right y.records (List.mem_singleton_self _))
        (NodeDescriptor.name_of_port? hd).symm (Nat.lt_of_not_le hindex)
      have hlaid : ({ y with records := y.records ++
          [{ name := target.port, index := target.index }] } : GraphNode).laidOut.LaidOut := rfl
      rw [GraphNode.port?_of_declared hlaid target.port target.index d hd hslot]
      rfl

/-- Opening a slot leaves initial nodes initial. -/
theorem openSlot_initial (target : SlotRef) (h : NodeHandle) (hg : g.Initial h s) :
    (g.openSlot target s).1.Initial h (g.openSlot target s).2 := by
  rcases g.openSlot_cases target s with ⟨heq, _⟩ | ⟨k, y, hk, hy, _, _, heq⟩
  · rw [heq]
    exact hg
  · rw [heq]
    by_cases hsame : h = k
    · rw [hsame]
      exact layOut_initial _ k s
    · intro x hx
      rw [(g.differs_layOut k _ s).node] at hx
      simp only [if_neg hsame, Option.map_id'] at hx
      refine ⟨(hg x hx).1, ?_⟩
      -- two nodes have rows of their own
      have hne : h.index ≠ k.index := fun hindex =>
        hsame (Arena.eq_of_index_eq g.nodes h k x y hx hy hindex)
      unfold layOut
      simp only [g.node?_modifyRecords_self k _ y hy]
      exact Store.Holds.fill_of_ne (hg x hx).2 k _ hne

/-- Opening a ready slot leaves the slots as they are.  At most a record is added. -/
theorem Ready.openSlot {target : SlotRef} (hg : g.Ready target s) :
    ∃ m log, g.openSlot target s = (m, { s with log }) ∧
      (∀ h, (m.node? h).map (·.ports) = (g.node? h).map (·.ports)) ∧
      (m = g ∨ g.PastLimit target ∧ ∃ h, g.handleOf target.guid = some h ∧
        m = g.modifyRecords h (· ++ [{ name := target.port, index := target.index }])) := by
  rcases g.openSlot_cases target s with ⟨heq, _⟩ | ⟨k, y, hk, hy, harray, hnone, heq⟩
  · exact ⟨g, s.log, heq, fun _ => rfl, .inl rfl⟩
  · rcases hg k y hk hy harray with hsome | ⟨hindex, hinitial⟩
    · rw [hnone] at hsome
      cases hsome
    · -- with the record, the node is initial as before
      have hrecorded : (g.modifyRecords k
          (· ++ [{ name := target.port, index := target.index }])).Initial k s := by
        intro z hz
        rw [g.node?_modifyRecords_self k _ y hy] at hz
        obtain rfl := Option.some.inj hz
        obtain ⟨hlaid, hholds⟩ := hinitial y hy
        refine ⟨hlaid.trans (Layout.portsOf_append_past y.records _ hindex _).symm, ?_⟩
        unfold GraphNode.initialValues
        rw [Layout.initialValues_append_past y.records _ hindex rfl]
        exact hholds
      obtain ⟨log, hlayOut⟩ := hrecorded.layOut_eq
      refine ⟨_, log, heq.trans hlayOut, fun h => ?_,
        .inr ⟨⟨hindex, k, y, hk, hy, harray⟩, k, hk, rfl⟩⟩
      rw [(g.differs_modifyRecords k _).node, Option.map_map]
      refine congrArg (fun f => (g.node? h).map f) (funext fun x => ?_)
      show (if h = k then _ else x).ports = x.ports
      split
      · rfl
      · rfl

/-! ## Section 4: Connections that are recorded again -/

/-- The connection is in the records of the node where it starts, and that node is initial if
    the output is an array. -/
structure HasConnection (g : Graph) (h : NodeHandle) (d : PortDescriptor)
    (source target : SlotRef) (s : Store) : Prop where
  recorded : ∀ x, g.node? h = some x → ∃ records more,
    x.records = connectionRecord source target records ++ more
  initial : d.array = true → g.Initial h s

theorem recordConnection_hasConnection (g : Graph) (h : NodeHandle) (d : PortDescriptor)
    (source target : SlotRef) (s : Store) :
    (g.recordConnection h d source target s).1.HasConnection h d source target
      (g.recordConnection h d source target s).2 := by
  unfold recordConnection
  cases harray : d.array with
  | true =>
    refine ⟨fun y hy => ?_, fun _ => layOut_initial _ h s⟩
    rw [if_pos rfl, (g.differs_layOut h _ s).node] at hy
    obtain ⟨x, _, rfl⟩ := Option.map_eq_some_iff.mp hy
    rw [if_pos rfl]
    exact ⟨x.records, [], (List.append_nil _).symm⟩
  | false =>
    refine ⟨fun y hy => ?_, fun h => absurd (harray.symm.trans h) (by decide)⟩
    rw [if_neg (by decide)] at hy
    have hnode := (g.differs_modifyRecords h (connectionRecord source target)).node h
    obtain ⟨x, _, rfl⟩ := Option.map_eq_some_iff.mp (hnode.symm.trans hy)
    rw [if_pos rfl]
    exact ⟨x.records, [], (List.append_nil _).symm⟩

theorem openSlot_hasConnection {h : NodeHandle} {d : PortDescriptor} {source target : SlotRef}
    (hg : g.HasConnection h d source target s) :
    (g.openSlot target s).1.HasConnection h d source target (g.openSlot target s).2 := by
  refine ⟨fun y hy => ?_, fun harray => openSlot_initial target h (hg.initial harray)⟩
  rcases g.openSlot_cases target s with ⟨heq, _⟩ | ⟨k, _, _, _, _, _, heq⟩
  · rw [heq] at hy
    exact hg.recorded y hy
  · rw [heq, (g.differs_layOut k _ s).node] at hy
    obtain ⟨x, hx, rfl⟩ := Option.map_eq_some_iff.mp hy
    obtain ⟨records, more, hrecords⟩ := hg.recorded x hx
    split
    · refine ⟨records, more ++ [{ name := target.port, index := target.index }], ?_⟩
      show x.records ++ _ = _
      rw [hrecords, List.append_assoc]
    · exact ⟨records, more, hrecords⟩

theorem HasConnection.recordConnection_eq {h : NodeHandle} {d : PortDescriptor}
    {source target : SlotRef} (hg : g.HasConnection h d source target s) :
    ∃ log, g.recordConnection h d source target s = (g, { s with log }) := by
  have hsame : g.modifyRecords h (connectionRecord source target) = g := by
    refine g.modifyRecords_eq_self h _ fun x hx => ?_
    obtain ⟨records, more, hrecords⟩ := hg.recorded x hx
    rw [hrecords]
    exact NodeData.modifyRecord_again _ _ _ (addConnection_named _) (addConnection_again _) _ _
  unfold recordConnection
  rw [hsame]
  cases harray : d.array with
  | true => exact (hg.initial harray).layOut_eq
  | false => exact ⟨s.log, rfl⟩

/-- **Main theorem: connecting again changes nothing.**  A connection that was recorded can be
    recorded again.  Then the graph and the store, but for the log, are as they were, unless the
    other end is past the limit of an array port.  There a record is added, and the slots of all
    nodes and their values are as they were. -/
theorem connect_again (g : Graph) (source target : SlotRef) (s : Store) (k : Graph) (t : Store)
    (hconnect : g.connect source target s = (.ok k, t)) :
    ∃ m log, k.connect source target t = (.ok m, { t with log }) ∧
      (∀ h, (m.node? h).map (·.ports) = (k.node? h).map (·.ports)) ∧
      (m = k ∨ g.PastLimit target ∧ ∃ h, k.handleOf target.guid = some h ∧
        m = k.modifyRecords h (· ++ [{ name := target.port, index := target.index }])) := by
  rcases g.connect_cases source target s with ⟨e, heq⟩ | ⟨h, x, d, hc⟩
  · rw [heq] at hconnect
    cases hconnect
  · let recorded := g.recordConnection h d source target s
    let opened := recorded.1.openSlot target recorded.2
    obtain ⟨rfl, rfl⟩ : opened.1.invalidate = k ∧ opened.2 = t := by
      have heq := (hc.connect_eq s).symm.trans hconnect
      exact ⟨Except.ok.inj (congrArg Prod.fst heq), congrArg Prod.snd heq⟩
    have hkeeps : g.Keeps opened.1 :=
      (g.recordConnection_keeps h d source target s).trans (openSlot_keeps _ target _)
    have hhandle : ∀ guid, opened.1.handleOf guid = g.handleOf guid := hkeeps.network.handleOf
    -- the same connection can be recorded
    obtain ⟨y, hy, hxy⟩ := hkeeps.network.after h x hc.node
    obtain ⟨k, hk⟩ := hc.target
    have hc' : opened.1.invalidate.Connects source target h y d :=
      ⟨⟨k, (hhandle _).trans hk⟩, (hhandle _).trans hc.handle, hy, hxy.descriptor ▸ hc.port,
        hc.output⟩
    have hhas : opened.1.invalidate.HasConnection h d source target opened.2 := by
      have h := openSlot_hasConnection (g.recordConnection_hasConnection h d source target s)
      exact ⟨h.recorded, h.initial⟩
    obtain ⟨log, hrecord⟩ := hhas.recordConnection_eq
    have hready : opened.1.invalidate.Ready target { opened.2 with log } :=
      recorded.1.openSlot_ready target recorded.2
    obtain ⟨m, log', hopen, hports, hm⟩ := hready.openSlot
    refine ⟨m.invalidate, log', ?_, hports, ?_⟩
    · rw [hc'.connect_eq, hrecord]
      dsimp only
      rw [hopen]
    · rcases hm with rfl | ⟨⟨hindex, k', z, hk', hz, harray⟩, k, hk, rfl⟩
      · exact .inl rfl
      · obtain ⟨z', hz', hzz'⟩ := hkeeps.network.before k' z hz
        exact .inr ⟨⟨hindex, k', z', (hhandle _).symm.trans hk', hz', hzz'.descriptor ▸ harray⟩, k,
          hk, rfl⟩

/-- A number, and a call that it can be an argument of. -/
def unsupplied : GraphData where
  name := "unsupplied"
  nodes := [
    { guid := "one", type := "Ceres.Values.Literal", genericArguments := ["int"] },
    { guid := "call", type := "Ceres.Functions.InvokeFunction" }]

/-- A connection that is recorded is the operation. -/
theorem connect_eq_apply (source target : SlotRef) (st : State)
    (hok : (st.1.connect source target st.2).1.toBool = true) :
    st.1.connect source target st.2 = (.ok ((Operation.connect source target).apply st).1,
      ((Operation.connect source target).apply st).2) := by
  unfold Operation.apply
  rcases hresult : st.1.connect source target st.2 with ⟨e | k, t⟩
  · rw [hresult] at hok
    cases hok
  · simp only [hresult]

/-- The third argument is connected again. -/
theorem connect_again_argument :
    let st := hydrated .builtin unsupplied default
    ∃ k t m log, st.1.connect ⟨"one", "value", 0⟩ ⟨"call", "args", 2⟩ st.2 = (.ok k, t) ∧
      k.connect ⟨"one", "value", 0⟩ ⟨"call", "args", 2⟩ t = (.ok m, { t with log }) ∧ m = k := by
  intro st
  have hconnect := connect_eq_apply ⟨"one", "value", 0⟩ ⟨"call", "args", 2⟩ st (by decide +kernel)
  obtain ⟨m, log, hagain, _, hm⟩ := connect_again st.1 _ _ st.2 _ _ hconnect
  refine ⟨_, _, m, log, hconnect, hagain, ?_⟩
  rcases hm with hm | ⟨⟨hindex, _⟩, _⟩
  · exact hm
  · exact absurd hindex (by decide)

/-- Past the limit the second connection adds a record to what is saved. -/
theorem connect_again_differs :
    let st := hydrated .builtin unsupplied default
    Hosted st.1 ∧ ∃ k t m u,
      st.1.connect ⟨"one", "value", 0⟩ ⟨"call", "args", 1024⟩ st.2 = (.ok k, t) ∧
        k.connect ⟨"one", "value", 0⟩ ⟨"call", "args", 1024⟩ t = (.ok m, u) ∧
          m.toData u.vars ≠ k.toData t.vars := by
  intro st
  let op : Operation := .connect ⟨"one", "value", 0⟩ ⟨"call", "args", 1024⟩
  have hfirst := connect_eq_apply ⟨"one", "value", 0⟩ ⟨"call", "args", 1024⟩ st (by decide +kernel)
  have hsecond := connect_eq_apply ⟨"one", "value", 0⟩ ⟨"call", "args", 1024⟩ (op.apply st)
    (by decide +kernel)
  refine ⟨.hydrated .builtin unsupplied default, _, _, _, _, hfirst, hsecond, fun hsame => ?_⟩
  have hmore : ((op.apply (op.apply st)).1.toData (op.apply (op.apply st)).2.vars).nodes.map
      (·.ports.length) ≠ ((op.apply st).1.toData (op.apply st).2.vars).nodes.map
        (·.ports.length) := by decide +kernel
  exact hmore (by rw [hsame])

end Graph
end FlowGraph
