import FlowGraph.Proofs.Graph.Slotted

/-! # Refused edits

    Recording a connection, setting a constant and removing a node can fail
    (`Operation.Refused`).  A failed edit leaves the graph and the store as they were, except
    for one (`Graph.refused_unchanged`): a constant at another slot than the first of a port
    that is no array (`Operation.Overshoots`) is recorded before it is seen that there is no such
    slot.  Nothing but that record changes.

    That no other constant is refused after it is recorded needs that a port that is no array
    has its slot, which is so in a hosted graph. -/

namespace FlowGraph

/-- A port that is no array has its slot. -/
theorem GraphNode.Slotted.exists_portIndex {x : GraphNode} (hx : x.Slotted) (name : String)
    (d : PortDescriptor) (hd : x.descriptor.port? name = some d) (hscalar : d.array = false) :
    ∃ i, x.portIndex name 0 = some i := by
  obtain ⟨records, hrecords⟩ := hx
  have hslot : Layout.HasSlot records d 0 := by simp [Layout.HasSlot, hscalar]
  have hfound := Layout.find?_portsOf records x.descriptor.ports name 0 d hd hslot
  rw [← hrecords] at hfound
  have hport : x.unlinked.port? name 0 = some (Port.ofDescriptor d 0) :=
    (x.unlinked.port?_eq_find? name 0).trans hfound
  obtain ⟨i, hi, _⟩ := (x.unlinked.port?_eq_some_iff name 0 _).mp hport
  exact ⟨i, (Network.portIndex_unlinked x name 0).symm.trans hi⟩

namespace Graph

/-! ## Section 1: Failures -/

/-- The operation can fail, and does. -/
def Operation.Refused (st : State) : Operation → Prop
  | .connect source target => ∃ e, (st.1.connect source target st.2).1 = .error e
  | .setConstant slot v => ∃ e, (st.1.setConstant slot v st.2).1.2 = .error e
  | .removeNode h => (st.1.removeNode st.2.vars h).1 = none
  | _ => False

/-- A constant is set at a port that is no array, but not at its slot. -/
def Operation.Overshoots (g : Graph) : Operation → Prop
  | .setConstant slot _ => slot.index ≠ 0 ∧ ∃ x d, g.nodeOf slot.guid = some x ∧
      x.descriptor.port? slot.port = some d ∧ d.array = false
  | _ => False

/-- All is as it was, except that a constant may be recorded. -/
structure SameButConstant (st st' : State) : Prop where
  store : st'.2 = st.2
  /-- The nodes, with their slots and links, and with all recorded connections. -/
  wiring : st'.1.wiring = st.1.wiring
  paths : st'.1.paths = st.1.paths
  compiled : st'.1.compiled = st.1.compiled
  groups : st'.1.groups = st.1.groups
  functions : st'.1.functions = st.1.functions

theorem SameButConstant.of_eq {st st' : State} (h : st' = st) : SameButConstant st st' := by
  rw [h]
  exact ⟨rfl, rfl, rfl, rfl, rfl, rfl⟩

/-! ## Section 2: What failures leave -/

theorem connect_refused (g : Graph) (source target : SlotRef) (s : Store) (e : GraphError)
    (h : (g.connect source target s).1 = .error e) : g.connect source target s = (.error e, s) := by
  rcases g.connect_cases source target s with ⟨e', heq⟩ | ⟨_, _, _, hc⟩
  · rw [heq] at h ⊢
    cases h
    rfl
  · rw [hc.connect_eq s] at h
    cases h

theorem removeNode_refused (g : Graph) (vs : Variables) (h : NodeHandle)
    (hrefused : (g.removeNode vs h).1 = none) : (g.removeNode vs h).2 = g := by
  unfold removeNode at hrefused ⊢
  cases hr : g.nodes.remove h with
  | none => rfl
  | some r =>
    rw [hr] at hrefused
    cases hrefused

/-- A constant is refused before anything is done, or once it is recorded at a port that is no
    array and lacks the slot. -/
theorem setConstant_refused (g : Graph) (slot : SlotRef) (v : Value) (s : Store) (e : GraphError)
    (h : (g.setConstant slot v s).1.2 = .error e) :
    g.setConstant slot v s = ((g, .error e), s) ∨
    ∃ k x d, g.handleOf slot.guid = some k ∧ g.node? k = some x ∧
      x.descriptor.port? slot.port = some d ∧ d.array = false ∧
      x.portIndex slot.port slot.index = none ∧
      g.setConstant slot v s = ((g.modifyRecords k (constantRecord slot v), .error e), s) := by
  rcases g.setConstant_eq slot v s with ⟨e', heq⟩ | ⟨k, x, d, hk, hx, hd, hresult⟩
  · rw [heq] at h ⊢
    cases h
    exact .inl rfl
  · rcases hresult with ⟨i, _, heq⟩ | ⟨_, _, heq⟩ | ⟨hi, hscalar, e', heq⟩
    · rw [heq] at h
      cases h
    · rw [heq] at h
      cases h
    · rw [heq] at h ⊢
      cases h
      exact .inr ⟨k, x, d, hk, hx, hd, hscalar, hi, rfl⟩

/-! ## Section 3: Refused operations -/

/-- **Main theorem: refused edits change nothing.**  A refused edit of a hosted graph leaves the
    graph and the store as they were, unless it sets a constant at a port that is no array and
    not at its slot.  Then the constant is recorded, and the slots, the values, the links, the
    paths and all recorded connections are as they were. -/
theorem refused_unchanged (g : Graph) (hg : Hosted g) (s : Store) (op : Operation)
    (hrefused : op.Refused (g, s)) :
    (op.apply (g, s) = (g, s) ∨ op.Overshoots g ∧ ∃ slot v h, op = .setConstant slot v ∧
      g.handleOf slot.guid = some h ∧
        op.apply (g, s) = (g.modifyRecords h (constantRecord slot v), s)) ∧
      SameButConstant (g, s) (op.apply (g, s)) := by
  cases op with
  | connect source target =>
    obtain ⟨e, he⟩ := hrefused
    have heq : Operation.apply (.connect source target) (g, s) = (g, s) := by
      unfold Operation.apply
      dsimp only
      rw [g.connect_refused source target s e he]
    exact ⟨.inl heq, .of_eq heq⟩
  | removeNode h =>
    have heq : Operation.apply (.removeNode h) (g, s) = (g, s) := by
      show ((g.removeNode s.vars h).2, s) = (g, s)
      rw [g.removeNode_refused s.vars h hrefused]
    exact ⟨.inl heq, .of_eq heq⟩
  | setConstant slot v =>
    obtain ⟨e, he⟩ := hrefused
    have happly : Operation.apply (.setConstant slot v) (g, s)
        = ((g.setConstant slot v s).1.1, (g.setConstant slot v s).2) := rfl
    rcases g.setConstant_refused slot v s e he with heq | ⟨k, x, d, hk, hx, hd, hscalar, hi, heq⟩
    · rw [heq] at happly
      exact ⟨.inl happly, .of_eq happly⟩
    · rw [heq] at happly
      -- the slot of a port that is no array would have been found
      have hindex : slot.index ≠ 0 := by
        intro hindex
        obtain ⟨i, hfound⟩ :=
          (hg.slotted.network k x hx).exists_portIndex slot.port d hd hscalar
        rw [hindex, hfound] at hi
        cases hi
      have hnode : g.nodeOf slot.guid = some x := by
        unfold Network.nodeOf
        rw [hk]
        exact hx
      refine ⟨.inr ⟨⟨hindex, x, d, hnode, hd, hscalar⟩, slot, v, k, rfl, hk, happly⟩, ?_⟩
      rw [happly]
      exact ⟨rfl, g.wiring_constantRecord k slot v, rfl, rfl, rfl, rfl⟩
  | addNode registry data => exact hrefused.elim
  | addLive guid descriptor behavior => exact hrefused.elim
  | addFunction name f => exact hrefused.elim
  | addGroup group => exact hrefused.elim
  | clearPaths => exact hrefused.elim
  | dispose => exact hrefused.elim
  | compile conversions => exact hrefused.elim
  | elsewhere work => exact hrefused.elim

/-- A sum of nothing yet. -/
def summing : GraphData where
  name := "summing"
  nodes := [{ guid := "sum", type := "Ceres.Math.Add" }]

/-- A connection from an input is refused, and changes nothing. -/
theorem refused_unchanged_connect :
    let st := hydrated .builtin summing default
    let op : Operation := .connect ⟨"sum", "a", 0⟩ ⟨"sum", "b", 0⟩
    Hosted st.1 ∧ op.Refused st ∧ ¬ op.Overshoots st.1 ∧ op.apply st = st := by
  intro st op
  have hhosted : Hosted st.1 := .hydrated .builtin summing default
  have hrefused : op.Refused st := by
    have hfails : (match (st.1.connect ⟨"sum", "a", 0⟩ ⟨"sum", "b", 0⟩ st.2).1 with
        | .ok _ => none
        | .error e => some e) = some (.invalidDirection "a" "b") := by decide +kernel
    unfold Operation.Refused
    cases hresult : (st.1.connect ⟨"sum", "a", 0⟩ ⟨"sum", "b", 0⟩ st.2).1 with
    | ok k =>
      rw [hresult] at hfails
      cases hfails
    | error e => exact ⟨e, hresult⟩
  have hnot : ¬ op.Overshoots st.1 := fun h => h
  rcases (refused_unchanged st.1 hhosted st.2 op hrefused).1 with heq | ⟨hovershoots, _⟩
  · exact ⟨hhosted, hrefused, hnot, heq⟩
  · exact (hnot hovershoots).elim

/-- A constant at another slot than the first of an input that is no array is refused, and
    saved all the same. -/
theorem refused_recorded :
    let st := hydrated .builtin summing default
    let op : Operation := .setConstant ⟨"sum", "a", 1⟩ (.int 5)
    Hosted st.1 ∧ op.Refused st ∧
      (op.apply st).1.toData (op.apply st).2.vars ≠ st.1.toData st.2.vars := by
  intro st op
  refine ⟨.hydrated .builtin summing default, ?_, fun hsame => ?_⟩
  · have hfails : (st.1.setConstant ⟨"sum", "a", 1⟩ (.int 5) st.2).1.2
        = .error (.unknownPort "sum" "a[1]") := by decide +kernel
    exact ⟨_, hfails⟩
  · have hrecords : ((op.apply st).1.toData (op.apply st).2.vars).nodes.map (·.ports.length)
        ≠ (st.1.toData st.2.vars).nodes.map (·.ports.length) := by decide +kernel
    exact hrecords (by rw [hsame])

end Graph
end FlowGraph
