import FlowGraph.Proofs.Graph.Linked

/-! # Data connections

    A recorded connection from a data output to a data input that takes its values is a data
    connection of the two nodes, whether or not its link stays at the input
    (`Network.DataConnection`).  All others are skipped or rejected when the network is linked:
    the data links that are made are the data connections (`Network.dataLink_iff`). -/

namespace FlowGraph

/-! ## Section 1: Slots that can be joined -/

/-- A data link can join the two slots. -/
structure Port.Joins (conversions : Conversions) (output input : Port) : Prop where
  source : output.direction = .output
  target : input.direction = .input
  data : output.kind = .data
  kind : input.kind = .data
  convertible : (conversions.compatibility output.type input.type).isSome = true

theorem Port.checkLink_ok_iff (conversions : Conversions) (output input : Port)
    (hdata : output.isControl = false) :
    (∃ compatibility, Port.checkLink output input conversions = .ok compatibility) ↔
      Port.Joins conversions output input := by
  have hkind : output.kind = .data := by
    unfold Port.isControl at hdata
    cases hk : output.kind with
    | data => rfl
    | control => simp [hk] at hdata
  unfold Port.checkLink
  constructor
  · rintro ⟨compatibility, h⟩
    split at h
    · cases h
    · rename_i hdirection
      split at h
      · cases h
      · rename_i hkinds
        simp only [Bool.or_eq_true, decide_eq_true_eq, not_or, not_not] at hdirection hkinds
        rw [if_neg (by simp [hdata])] at h
        refine ⟨hdirection.1, hdirection.2, hkind, hkinds ▸ hkind, ?_⟩
        cases hc : conversions.compatibility output.type input.type with
        | none =>
          rw [hc] at h
          cases h
        | some _ => rfl
  · intro h
    obtain ⟨compatibility, hc⟩ := Option.isSome_iff_exists.mp h.convertible
    refine ⟨compatibility, ?_⟩
    simp [h.source, h.target, h.data, h.kind, hdata, hc]

namespace Network

/-! ## Section 2: Data connections -/

/-- A data connection is recorded at one node and leads to another.  Of several ones into one
    slot each counts. -/
def DataConnection (n : Network) (conversions : Conversions) (k h : NodeHandle) : Prop :=
  ∃ c source target output input, n.RecordsAt source c ∧ n.LeadsTo c target ∧
    n.port? source = some output ∧ n.port? target = some input ∧
    Port.Joins conversions output input ∧ source.node = k ∧ target.node = h

/-! ### Slots without links -/

theorem recordsAt_unlinked_iff (n : Network) (a : PortAddress) (c : PortConnection) :
    n.unlinked.RecordsAt a c ↔ n.RecordsAt a c := by
  refine ⟨n.recordsAt_of_unlinked a c, ?_⟩
  rintro ⟨x, hx, ⟨q, hq, hdirection⟩, r, hr, hc, hi⟩
  refine ⟨x.unlinked, by rw [node?_unlinked, hx]; rfl, ⟨q.unlinked, ?_, hdirection⟩, r, hr, hc, ?_⟩
  · show (x.ports.map Port.unlinked)[a.port]? = some q.unlinked
    rw [List.getElem?_map, hq]
    rfl
  · rw [portIndex_unlinked]
    exact hi

theorem leadsTo_unlinked_iff (n : Network) (c : PortConnection) (a : PortAddress) :
    n.unlinked.LeadsTo c a ↔ n.LeadsTo c a := by
  refine ⟨n.leadsTo_of_unlinked c a, ?_⟩
  rintro ⟨hh, x, hx, hi⟩
  refine ⟨by rw [handleOf_unlinked]; exact hh, x.unlinked, by rw [node?_unlinked, hx]; rfl, ?_⟩
  rw [portIndex_unlinked]
  exact hi

theorem port?_unlinked (n : Network) (a : PortAddress) :
    n.unlinked.port? a = (n.port? a).map Port.unlinked := by
  unfold port?
  rw [node?_unlinked]
  cases n.node? a.node with
  | none => rfl
  | some x => exact List.getElem?_map

theorem dataConnection_unlinked_iff (n : Network) (conversions : Conversions) (k h : NodeHandle) :
    n.unlinked.DataConnection conversions k h ↔ n.DataConnection conversions k h := by
  unfold DataConnection
  simp only [recordsAt_unlinked_iff, leadsTo_unlinked_iff, port?_unlinked, Option.map_eq_some_iff]
  constructor
  · rintro ⟨c, a, b, _, _, hrecords, hleads, ⟨p, hp, rfl⟩, ⟨q, hq, rfl⟩, hjoins, hk, hh⟩
    exact ⟨c, a, b, p, q, hrecords, hleads, hp, hq,
      ⟨hjoins.source, hjoins.target, hjoins.data, hjoins.kind, hjoins.convertible⟩, hk, hh⟩
  · rintro ⟨c, a, b, p, q, hrecords, hleads, hp, hq, hjoins, hk, hh⟩
    exact ⟨c, a, b, p.unlinked, q.unlinked, hrecords, hleads, ⟨p, hp, rfl⟩, ⟨q, hq, rfl⟩,
      ⟨hjoins.source, hjoins.target, hjoins.data, hjoins.kind, hjoins.convertible⟩, hk, hh⟩

/-! ### Checked connections -/

/-- A connection is checked to be a data link if it leads to a slot that its own can be joined
    with. -/
theorem checkConnection_data_iff (n : Network) (conversions : Conversions) (x : GraphNode)
    (a : PortAddress) (output : Port) (c : PortConnection) (b : PortAddress) :
    (∃ link, n.checkConnection conversions x a output c = some (.ok (.data b link))) ↔
      n.LeadsTo c b ∧ ∃ input, n.port? b = some input ∧ Port.Joins conversions output input := by
  constructor
  · rintro ⟨link, hcheck⟩
    unfold checkConnection at hcheck
    cases hh : n.handleOf c.nodeGuid with
    | none =>
      rw [hh] at hcheck
      cases hcheck
    | some h =>
      rw [hh] at hcheck
      obtain ⟨y, hy, hchecked⟩ := Option.map_eq_some_iff.mp hcheck
      split at hchecked
      · cases hchecked
      · rename_i i hi
        split at hchecked
        · cases hchecked
        · rename_i input hinput
          split at hchecked
          · cases hchecked
          · rename_i compatibility hlink
            split at hchecked
            · cases hchecked
            · rename_i hcontrol
              cases hchecked
              refine ⟨⟨hh, y, hy, hi⟩, input, (n.port?_eq_some_iff _ _).mpr ⟨y, hy, hinput⟩, ?_⟩
              exact (Port.checkLink_ok_iff conversions output input (by simpa using hcontrol)).mp
                ⟨compatibility, hlink⟩
  · rintro ⟨⟨hh, y, hy, hi⟩, input, hport, hjoins⟩
    obtain ⟨y', hy', hinput⟩ := (n.port?_eq_some_iff b input).mp hport
    rw [hy] at hy'
    cases hy'
    have hcontrol : output.isControl = false := by simp [Port.isControl, hjoins.data]
    obtain ⟨compatibility, hlink⟩ :=
      (Port.checkLink_ok_iff conversions output input hcontrol).mpr hjoins
    refine ⟨⟨a, compatibility⟩, ?_⟩
    unfold checkConnection
    simp only [hh, hy, Option.map_some, hi, hinput, hlink, hcontrol]
    rfl

theorem checkRecord_data_iff (n : Network) (conversions : Conversions) (h : NodeHandle)
    (x : GraphNode) (r : PortData) (b : PortAddress) :
    (∃ link, .ok (.data b link) ∈ n.checkRecord conversions h x r) ↔
      ∃ (i : Nat) (output : Port) (c : PortConnection) (input : Port),
        x.portIndex r.name r.index = some i ∧ x.ports[i]? = some output ∧ c ∈ r.connections ∧
        n.LeadsTo c b ∧ n.port? b = some input ∧ Port.Joins conversions output input := by
  constructor
  · rintro ⟨link, hmem⟩
    obtain ⟨i, output, c, hi, houtput, _, hc, hcheck⟩ :=
      n.exists_of_mem_checkRecord conversions h x r _ hmem
    obtain ⟨hleads, input, hinput, hjoins⟩ :=
      (n.checkConnection_data_iff conversions x _ output c b).mp ⟨link, hcheck⟩
    exact ⟨i, output, c, input, hi, houtput, hc, hleads, hinput, hjoins⟩
  · rintro ⟨i, output, c, input, hi, houtput, hc, hleads, hinput, hjoins⟩
    obtain ⟨link, hcheck⟩ := (n.checkConnection_data_iff conversions x ⟨h, i⟩ output c
      b).mpr ⟨hleads, input, hinput, hjoins⟩
    refine ⟨link, ?_⟩
    have hconnected : r.connections.isEmpty = false := by
      rw [List.isEmpty_eq_false_iff_exists_mem]
      exact ⟨c, hc⟩
    have hcounted : countedConnections output r = r.connections := by
      unfold countedConnections
      rw [if_neg (by simp [Port.isControl, hjoins.data])]
    unfold checkRecord
    simp only [hconnected, hi, houtput, hjoins.source, hcounted]
    exact List.mem_filterMap.mpr ⟨c, hc, hcheck⟩

/-- The data links that are made are the data connections. -/
theorem dataLink_iff (n : Network) (hn : n.Sound) (conversions : Conversions) (k h : NodeHandle) :
    (∃ target link, NewLink.data target link ∈ validLinks (n.checkAll conversions) ∧
      link.source.node = k ∧ target.node = h) ↔ n.DataConnection conversions k h := by
  constructor
  · rintro ⟨target, link, hmem, rfl, rfl⟩
    obtain ⟨⟨k, x⟩, hplaced, hrecords⟩ := List.mem_flatMap.mp ((mem_validLinks _ _).mp hmem)
    obtain ⟨r, hr, hchecked⟩ := List.mem_flatMap.mp hrecords
    obtain ⟨hk, _⟩ := checkRecord_source n conversions k x r target link hchecked
    obtain ⟨i, output, c, input, hi, houtput, hc, hleads, hinput, hjoins⟩ :=
      (n.checkRecord_data_iff conversions k x r target).mp ⟨link, hchecked⟩
    have hx := n.node?_of_mem_placed k x hplaced
    exact ⟨c, ⟨k, i⟩, target, output, input,
      ⟨x, hx, ⟨output, houtput, hjoins.source⟩, r, hr, hc, hi⟩, hleads,
      (n.port?_eq_some_iff _ _).mpr ⟨x, hx, houtput⟩, hinput, hjoins, hk.symm, rfl⟩
  · rintro ⟨c, source, target, output, input, ⟨x, hx, _, r, hr, hc, hi⟩, hleads, houtput, hinput,
      hjoins, rfl, rfl⟩
    obtain ⟨x', hx', hget⟩ := (n.port?_eq_some_iff source output).mp houtput
    rw [hx] at hx'
    cases hx'
    obtain ⟨link, hmem⟩ := (n.checkRecord_data_iff conversions source.node x r target).mpr
      ⟨source.port, output, c, input, hi, hget, hc, hleads, hinput, hjoins⟩
    obtain ⟨hk, _⟩ := checkRecord_source n conversions source.node x r target link hmem
    refine ⟨target, link, (mem_validLinks _ _).mpr ?_, hk, rfl⟩
    exact List.mem_flatMap.mpr ⟨(source.node, x), (n.mem_placed_iff hn source.node x).mpr hx,
      List.mem_flatMap.mpr ⟨r, hr, hmem⟩⟩

end Network
end FlowGraph
