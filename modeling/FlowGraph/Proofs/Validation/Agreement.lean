import FlowGraph.Proofs.Graph.Building
import FlowGraph.Proofs.Graph.Linked
import FlowGraph.Proofs.Validation.Clean

/-! # Saved and live connections

    The report looks up ports in descriptors, compiling looks up slots in live nodes.  For
    a clean network both find the same ports (`Hydrates.output`, `Hydrates.input`), so
    every data link that is made is one that the report saw (`Hydrates.needs`), and a cycle
    among live nodes would have been one among the saved ones (`Hydrates.exists_paths`). -/

namespace FlowGraph

open Validation

/-! ## Section 1: Links and dependencies -/

namespace Network

/-- A connection that counts, at the output slot of its record. -/
structure Counts (n : Network) (h : NodeHandle) (x : GraphNode) (r : PortData) (i : Nat)
    (output : Port) (c : PortConnection) : Prop where
  placed : (h, x) ∈ n.placed
  record : r ∈ x.records
  index : x.portIndex r.name r.index = some i
  port : x.ports[i]? = some output
  direction : output.direction = .output
  counted : c ∈ countedConnections output r

/-- The valid connections are those that count and pass the check. -/
theorem ok_mem_checkAll_iff (n : Network) (conversions : Conversions) (new : NewLink) :
    .ok new ∈ n.checkAll conversions ↔ ∃ h x r i output c, n.Counts h x r i output c ∧
      n.checkConnection conversions x ⟨h, i⟩ output c = some (.ok new) := by
  constructor
  · intro hmem
    obtain ⟨⟨h, x⟩, hplaced, hrecords⟩ := List.mem_flatMap.mp hmem
    obtain ⟨r, hr, hchecked⟩ := List.mem_flatMap.mp hrecords
    unfold checkRecord at hchecked
    split at hchecked
    · cases hchecked
    · split at hchecked
      · cases List.mem_singleton.mp hchecked
      · split at hchecked
        · cases List.mem_singleton.mp hchecked
        · split at hchecked
          · cases List.mem_singleton.mp hchecked
          · rename_i _ i hi _ output hport hdirection
            obtain ⟨c, hc, hcheck⟩ := List.mem_filterMap.mp hchecked
            exact ⟨h, x, r, i, output, c,
              ⟨hplaced, hr, hi, hport, not_not.mp hdirection, hc⟩, hcheck⟩
  · rintro ⟨h, x, r, i, output, c, hcounts, hcheck⟩
    refine List.mem_flatMap.mpr ⟨(h, x), hcounts.placed,
      List.mem_flatMap.mpr ⟨r, hcounts.record, ?_⟩⟩
    have hsome : r.connections.isEmpty = false := List.isEmpty_eq_false_iff.mpr
      (List.ne_nil_of_mem (mem_countedConnections output r c hcounts.counted))
    unfold checkRecord
    simp only [hsome, Bool.false_eq_true, if_false, hcounts.index, hcounts.port]
    rw [if_neg (not_not_intro hcounts.direction)]
    exact List.mem_filterMap.mpr ⟨c, hcounts.counted, hcheck⟩

/-- Data links start at data outputs. -/
theorem checkConnection_data (n : Network) (conversions : Conversions) (x : GraphNode)
    (address : PortAddress) (output : Port) (c : PortConnection) (target : PortAddress)
    (l : PortLink) (hcheck : n.checkConnection conversions x address output c
      = some (.ok (.data target l))) : output.isControl = false := by
  cases hcontrol : output.isControl with
  | false => rfl
  | true =>
    unfold checkConnection at hcheck
    split at hcheck
    · cases hcheck
    · obtain ⟨y, _, hy⟩ := Option.map_eq_some_iff.mp hcheck
      split at hy
      · cases hy
      · split at hy
        · cases hy
        · split at hy
          · cases hy
          · rw [hcontrol] at hy
            cases hy

/-- A dependency was there before a link was made, or comes from the other end of it. -/
theorem makeLink_dependencies (n : Network) (link : NewLink) (h : NodeHandle) (y : GraphNode)
    (hy : (n.makeLink link).node? h = some y) (k : NodeHandle) (hk : k ∈ y.dependencies) :
    (∃ x, n.node? h = some x ∧ k ∈ x.dependencies) ∨
      ∃ target l, link = .data target l ∧ target.node = h ∧ l.source.node = k ∧ k ≠ h := by
  cases link with
  | control source target =>
    have hget : (n.makeLink (.control source target)).node? h = _ := Arena.get?_modify ..
    rw [hget] at hy
    split at hy
    · rename_i hh
      rw [← hh] at hy
      obtain ⟨x, hx, rfl⟩ := Option.map_eq_some_iff.mp hy
      exact .inl ⟨x, hx, hk⟩
    · exact .inl ⟨y, hy, hk⟩
  | data target link =>
    have hget : (n.makeLink (.data target link)).node? h = _ := Arena.get?_modify ..
    rw [hget] at hy
    split at hy
    · rename_i hh
      rw [← hh] at hy
      obtain ⟨x, hx, rfl⟩ := Option.map_eq_some_iff.mp hy
      unfold linkInput at hk
      dsimp only at hk
      split at hk
      · exact .inl ⟨x, hx, hk⟩
      · rename_i hnew
        simp only [Bool.or_eq_true, decide_eq_true_eq, not_or] at hnew
        rcases List.mem_append.mp hk with hold | hadded
        · exact .inl ⟨x, hx, hold⟩
        · have hsource := List.mem_singleton.mp hadded
          refine .inr ⟨target, link, rfl, hh.symm, hsource.symm, ?_⟩
          rw [hsource, hh]
          exact hnew.1
    · exact .inl ⟨y, hy, hk⟩

theorem makeLinks_dependencies (n : Network) (links : List NewLink) (h : NodeHandle)
    (y : GraphNode) (hy : (n.makeLinks links).1.node? h = some y) (k : NodeHandle)
    (hk : k ∈ y.dependencies) :
    (∃ x, n.node? h = some x ∧ k ∈ x.dependencies) ∨
      ∃ target l, .data target l ∈ links ∧ target.node = h ∧ l.source.node = k ∧ k ≠ h := by
  induction links generalizing n with
  | nil => exact .inl ⟨y, hy, hk⟩
  | cons link rest ih =>
    rcases ih (n.makeLink link) hy with ⟨x, hx, hkx⟩ | ⟨target, l, hl, hends⟩
    · rcases n.makeLink_dependencies link h x hx k hkx with hold | ⟨target, l, rfl, hends⟩
      · exact .inl hold
      · exact .inr ⟨target, l, List.mem_cons_self, hends⟩
    · exact .inr ⟨target, l, List.mem_cons_of_mem link hl, hends⟩

/-- After linking, every dependency comes from a valid data connection between two nodes. -/
theorem link_dependencies (n : Network) (conversions : Conversions) (h : NodeHandle)
    (y : GraphNode) (hy : (n.link conversions).1.node? h = some y) (k : NodeHandle)
    (hk : k ∈ y.dependencies) :
    ∃ target l, .ok (.data target l) ∈ n.unlinked.checkAll conversions ∧ target.node = h ∧
      l.source.node = k ∧ k ≠ h := by
  rcases makeLinks_dependencies n.unlinked _ h y hy k hk with ⟨x, hx, hkx⟩ | ⟨target, l, hl, hends⟩
  · rw [node?_unlinked] at hx
    obtain ⟨z, _, rfl⟩ := Option.map_eq_some_iff.mp hx
    cases hkx
  · exact ⟨target, l, (mem_validLinks _ _).mp hl, hends⟩

end Network

/-! ## Section 2: Slots of declared ports -/

/-- A network that was hydrated from a saved one without a problem. -/
structure Hydrates (registry : Registry) (conversions : Conversions) (data : GraphData)
    (n : Network) : Prop where
  clean : Clean registry conversions data
  carries : n.Carries registry data.nodes
  opened : n.Opened

/-- The live node at a position, with the saved one. -/
structure Stands (registry : Registry) (data : GraphData) (n : Network) (i : Nat) (d : NodeData)
    (h : NodeHandle) (x : GraphNode) : Prop where
  saved : data.nodes[i]? = some d
  order : n.order[i]? = some h
  node : n.node? h = some x
  carries : x.Carries registry (data.nodes.map (·.guid)) d

namespace Hydrates

variable {registry : Registry} {conversions : Conversions} {data : GraphData} {n : Network}

theorem unlinked (hn : Hydrates registry conversions data n) :
    Hydrates registry conversions data n.unlinked :=
  ⟨hn.clean, hn.carries.unlinked, hn.opened.unlinked⟩

/-- Known paths do not matter. -/
theorem withPaths (hn : Hydrates registry conversions data n) (paths : Option (List (List Nat))) :
    Hydrates registry conversions data { n with paths := paths } := by
  have hsound : Network.Sound { n with paths := paths } :=
    ⟨hn.carries.sound.arena, hn.carries.sound.nodup_order, hn.carries.sound.mem_order_iff⟩
  exact ⟨hn.clean, ⟨hsound, hn.carries.nodes⟩, hn.opened⟩

theorem stands (hn : Hydrates registry conversions data n) (h : NodeHandle) (x : GraphNode)
    (hx : n.node? h = some x) : ∃ i d, Stands registry data n i d h x := by
  obtain ⟨i, d, hd, hi, hdx⟩ := hn.carries.saved h x hx
  exact ⟨i, d, hd, hi, hx, hdx⟩

/-- A live node has the declared descriptor, unless its fields are rejected; then it has no
    ports. -/
theorem descriptor (hn : Hydrates registry conversions data n) {i : Nat} {d : NodeData}
    {h : NodeHandle} {x : GraphNode} (hx : Stands registry data n i d h x) :
    ∃ declared, declare registry d = .ok declared ∧
      ((registry.Rejects d ∧ x.isPlaceholder = true ∧ x.descriptor = Builtin.placeholder) ∨
        (¬ registry.Rejects d ∧ x.isPlaceholder = false ∧ x.descriptor = declared)) := by
  obtain ⟨declared, hdeclared⟩ := hn.clean.known d (List.mem_of_getElem? hx.saved)
  refine ⟨declared, hdeclared, ?_⟩
  unfold GraphNode.isPlaceholder
  rw [hx.carries.invalid, hx.carries.descriptor]
  rcases registry.resolve_of_declare d declared hdeclared with ⟨hrejects, heq⟩ | ⟨hnot, hd, hi⟩
  · rw [heq]
    exact .inl ⟨hrejects, rfl, rfl⟩
  · rw [hi]
    exact .inr ⟨hnot, rfl, hd⟩

/-- A slot belongs to a node that is no placeholder, and is below the limit. -/
theorem not_rejects_of_port? (hn : Hydrates registry conversions data n) {i : Nat} {d : NodeData}
    {h : NodeHandle} {x : GraphNode} (hx : Stands registry data n i d h x) (name : String)
    (index : Nat) (p : Port) (hp : x.port? name index = some p) :
    ¬ registry.Rejects d ∧ index < maxArraySlots := by
  obtain ⟨port, hmem, _, hslot, _⟩ := GraphNode.exists_of_port? hx.carries.laidOut name index p hp
  refine ⟨?_, hslot.lt⟩
  obtain ⟨_, _, ⟨_, _, hplaceholder⟩ | ⟨hnot, _, _⟩⟩ := hn.descriptor hx
  · rw [hplaceholder] at hmem
    cases hmem
  · exact hnot

/-- The output slot of a record, as the report finds it, is the one that compiling finds. -/
theorem output (hn : Hydrates registry conversions data n) {i : Nat} {d : NodeData}
    {h : NodeHandle} {x : GraphNode} (hx : Stands registry data n i d h x)
    (hnot : ¬ registry.Rejects d) (r : PortData) (hr : r ∈ x.records)
    (hindex : r.index < maxArraySlots) (p : PortDescriptor) (hp : HasOutput registry d r p) :
    x.port? r.name r.index = some (Port.ofDescriptor p r.index) := by
  obtain ⟨declared, hdeclared, ⟨hrejects, _⟩ | ⟨_, _, hdescriptor⟩⟩ := hn.descriptor hx
  · exact absurd hrejects hnot
  · obtain ⟨declared', hdeclared', hslot, _⟩ := hp
    rw [hdeclared] at hdeclared'
    cases hdeclared'
    obtain ⟨hport, hname, hkind⟩ := slot?_eq_some _ _ _ p hslot
    rw [← hdescriptor] at hport
    refine GraphNode.port?_of_declared hx.carries.laidOut r.name r.index p hport ?_
    unfold Layout.HasSlot
    split
    · -- the record itself asks for the slot
      rw [hname]
      exact Layout.lt_extent x.records r hr hindex
    · rename_i harray
      rw [hkind.resolve_left harray]
      exact Nat.one_pos

/-- The slot that a connection names, as the report finds it, is the one that compiling
    finds, if the node declares no name twice. -/
theorem input (hn : Hydrates registry conversions data n) {i : Nat} {d : NodeData}
    {h : NodeHandle} {x : GraphNode} (hx : Stands registry data n i d h x)
    (r : PortData) (hr : r ∈ x.records) (c : PortConnection) (hc : c ∈ r.connections)
    (hindex : c.portIndex < maxArraySlots) {j : Nat} {target : NodeData} {k : NodeHandle}
    {y : GraphNode} (hy : Stands registry data n j target k y) (hguid : y.guid = c.nodeGuid)
    (hnot : ¬ registry.Rejects target) (p : PortDescriptor)
    (hp : ∃ declared, declare registry target = .ok declared ∧
      (declared.ports.map (·.name)).Nodup ∧ slot? declared c.portName c.portIndex = some p) :
    y.port? c.portName c.portIndex = some (Port.ofDescriptor p c.portIndex) := by
  obtain ⟨declared, hdeclared, ⟨hrejects, _⟩ | ⟨_, _, hdescriptor⟩⟩ := hn.descriptor hy
  · exact absurd hrejects hnot
  · obtain ⟨declared', hdeclared', hnames, hslot⟩ := hp
    rw [hdeclared] at hdeclared'
    cases hdeclared'
    obtain ⟨hport, _, hkind⟩ := slot?_eq_some _ _ _ p hslot
    rw [← hdescriptor] at hport hnames
    refine GraphNode.port?_of_declared hy.carries.laidOut _ _ p hport ?_
    by_cases harray : p.array = true
    · exact hn.opened h x hx.node r hr c hc k y hy.node hguid hnames hindex p hport harray
    · unfold Layout.HasSlot
      rw [if_neg harray, hkind.resolve_left harray]
      exact Nat.one_pos

/-! ## Section 3: Cycles -/

/-- The saved form of a valid data connection is a data link of the report. -/
theorem dataLink (hn : Hydrates registry conversions data n) (target : PortAddress)
    (l : PortLink) (hmem : .ok (.data target l) ∈ n.checkAll conversions) :
    ∃ s e x t d y, Stands registry data n s e l.source.node x ∧
      Stands registry data n t d target.node y ∧
      ⟨e.guid, d.guid⟩ ∈ dataLinks (checks registry conversions data) := by
  obtain ⟨h, x, r, i, output, c, hcounts, hcheck⟩ :=
    (n.ok_mem_checkAll_iff conversions _).mp hmem
  have hsource := n.checkConnection_source conversions x _ output c target l hcheck
  have hdata := n.checkConnection_data conversions x _ output c target l hcheck
  obtain ⟨handle, y, hy, _⟩ : n.LeadsTo c target := by
    obtain ⟨input, hleads, hnew⟩ := n.checkConnection_ok conversions x _ output c _ hcheck
    rcases hnew with hnew | ⟨compatibility, hnew⟩
    · cases hnew
    · cases hnew
      exact hleads
  obtain ⟨s, e, hx⟩ := hn.stands h x (n.node?_of_mem_placed h x hcounts.placed)
  obtain ⟨t, d, hy⟩ := hn.stands target.node y hy
  have hslot : x.port? r.name r.index = some output :=
    (x.port?_eq_some_iff r.name r.index output).mpr ⟨i, hcounts.index, hcounts.port⟩
  obtain ⟨hnot, hindex⟩ := hn.not_rejects_of_port? hx r.name r.index output hslot
  have hc := Network.mem_countedConnections output r c hcounts.counted
  have hr := hx.carries.mem_ports r hcounts.record (List.ne_nil_of_mem hc)
  obtain ⟨p, target', _, hp, ⟨htarget, hguid, _⟩, _, hlink⟩ :=
    hn.clean.joins e (List.mem_of_getElem? hx.saved) r hr c hc
  have hsame := hn.output hx hnot r hcounts.record hindex p hp
  rw [hslot] at hsame
  have hcontrol : p.isControl = false := by
    rw [Option.some.inj hsame] at hdata
    exact hdata
  have hlive : y.guid = c.nodeGuid := by
    obtain ⟨y', hy', hguid'⟩ := n.exists_of_handleOf c.nodeGuid target.node handle
    rw [hy.node] at hy'
    cases hy'
    exact hguid'
  have hsaved : d.guid = c.nodeGuid := by
    refine (hy.carries.guid_eq ?_).trans hlive
    rw [hlive, ← hguid]
    exact List.mem_map_of_mem htarget
  refine ⟨s, e, x, t, d, y, by rw [hsource]; exact hx, hy, ?_⟩
  rw [hsaved]
  exact hlink hcontrol

/-- What a live node needs its saved form needs. -/
theorem needs (hn : Hydrates registry conversions data n) (v w : Nat)
    (hw : w ∈ (n.link conversions).1.dependencies.needs v) :
    w ∈ (needed registry conversions data).needs v := by
  have hsound := n.link_sound conversions hn.carries.sound
  have horder := n.link_order conversions
  -- a node that needs something has a handle
  obtain ⟨h, hh⟩ : ∃ h, (n.link conversions).1.order[v]? = some h := by
    cases hv : (n.link conversions).1.order[v]? with
    | some h => exact ⟨h, rfl⟩
    | none =>
      have hsize := (n.link conversions).1.dependencies_size hsound
      have hlength := List.getElem?_eq_none_iff.mp hv
      rw [Dependencies.needs_eq_nil _ v (by omega)] at hw
      cases hw
  obtain ⟨y, hy⟩ := (hsound.mem_order_iff h).mp (List.mem_of_getElem? hh)
  rw [(n.link conversions).1.dependencies_needs hsound v h y hh hy] at hw
  obtain ⟨k, hk, hindex⟩ := List.mem_filterMap.mp hw
  have hw' := ((n.link conversions).1.indexOf_eq_some_iff hsound k w).mp hindex
  obtain ⟨target, l, hchecked, rfl, rfl, hne⟩ := n.link_dependencies conversions h y hy k hk
  obtain ⟨s, e, x, t, d, y', hx, hy', hlink⟩ := hn.unlinked.dataLink target l hchecked
  -- the positions are those of the handles
  rw [horder] at hh hw'
  have hlt : ∀ i k, n.order[i]? = some k → i < n.order.length :=
    fun i k hi => (List.getElem?_eq_some_iff.mp hi).1
  have hv : v = t := (List.getElem?_inj (hlt v _ hh) hn.carries.sound.nodup_order).mp
    (hh.trans hy'.order.symm)
  have hs : w = s := (List.getElem?_inj (hlt w _ hw') hn.carries.sound.nodup_order).mp
    (hw'.trans hx.order.symm)
  rw [hv, hs]
  refine needed_of_link registry conversions data hn.clean.nodup s t e d hx.saved hy'.saved ?_ hlink
  rintro rfl
  exact hne (Option.some.inj (hx.order.symm.trans hy'.order))

/-- A live node that runs on demand was saved as one. -/
theorem isForward (hn : Hydrates registry conversions data n) (v : Nat)
    (hv : (n.link conversions).1.dependencies.isForward v = false) :
    (needed registry conversions data).isForward v = false := by
  cases hd : data.nodes[v]? with
  | none =>
    simp [needed, Validation.dependencies, Dependencies.isForward, hd]
  | some d =>
    obtain ⟨h, x, _, horder, hx, hdx⟩ := hn.carries.live v d hd
    have hstands : Stands registry data n v d h x := ⟨hd, horder, hx, hdx⟩
    obtain ⟨y, hy, hyx⟩ := Network.node?_of_unlinked_eq (m := (n.link conversions).1)
      (n.link_unlinked conversions) h x hx
    have hdescriptor : y.descriptor = x.descriptor := by
      show y.unlinked.descriptor = x.unlinked.descriptor
      rw [hyx]
    rw [← n.link_order conversions] at horder
    have hsound := n.link_sound conversions hn.carries.sound
    rw [Network.dependencies_isForward _ hsound v h y horder hy, hdescriptor] at hv
    obtain ⟨declared, hdeclared, ⟨_, _, hplaceholder⟩ | ⟨_, _, hlive⟩⟩ := hn.descriptor hstands
    · rw [hplaceholder] at hv
      cases hv
    · rw [needed_isForward registry conversions data hn.clean.nodup v d declared hd hdeclared,
        ← hlive]
      exact hv

/-- A network without a reported problem has dependency paths. -/
theorem exists_paths (hn : Hydrates registry conversions data n) :
    ∃ ps, (n.link conversions).1.dependencies.paths = .ok ps := by
  have hrange := Network.dependencies_inRange _ (n.link_sound conversions hn.carries.sound)
  cases hpaths : (n.link conversions).1.dependencies.paths with
  | ok ps => exact ⟨ps, rfl⟩
  | error e =>
    -- the loop that is in the way is one of the saved nodes
    obtain ⟨nodes, ⟨v, rest, hnodes, hchain⟩, _, hforward, _⟩ :=
      Dependencies.paths_error_loop _ hrange e hpaths
    have hloop : (needed registry conversions data).Loop nodes :=
      ⟨v, rest, hnodes, hchain.imp fun v w hw => hn.needs v w hw⟩
    have hiff := Dependencies.paths_error_iff_loop _ (needed_inRange registry conversions data)
    obtain ⟨e', he'⟩ := hiff.1.mpr ⟨nodes, hloop, fun w hw => hn.isForward w (hforward w hw)⟩
    obtain ⟨chain, _, _, _, hchain'⟩ := hiff.2.2 e' he'
    rw [hchain'] at he'
    exact absurd he' (hn.clean.acyclic _)

end Hydrates
end FlowGraph
