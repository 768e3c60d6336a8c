import FlowGraph.Proofs.Dispatch.OnDemand
import FlowGraph.Proofs.Graph.Hydration

/-! # Slots of an executing node

    A node names its ports, the store knows cells.  For a node that runs on demand a name
    of its signature denotes exactly one slot (`portIndex_of_slot`), so that writing
    results changes cells of its outputs and no others (`changed_written`), and each of
    them holds its result afterwards (`cell_written`). -/

namespace FlowGraph

/-! ## Section 1: Names and slots -/

namespace GraphNode

/-- A position that is found by name is one of a slot of that name. -/
theorem slot_of_portIndex (x : GraphNode) (name : String) (index i : Nat)
    (h : x.portIndex name index = some i) :
    ∃ q : Port, x.ports[i]? = some q ∧ q.name = name ∧ q.index = index := by
  obtain ⟨hi, hslot, _⟩ := List.findIdx?_eq_some_iff_getElem.mp h
  refine ⟨x.ports[i], List.getElem?_eq_getElem hi, ?_⟩
  simpa [Port.isSlot] using hslot

/-- The slots of a node are those that the signature of its behavior lists. -/
structure HasSignature (x : GraphNode) (signature : List (String × PortDirection)) : Prop where
  behavior : x.behavior.signature = some signature
  ports : x.ports.map Port.outline = signature.map fun slot => (slot.1, 0, slot.2)

theorem Fits.hasSignature {x : GraphNode} (h : x.Fits) (hpath : x.descriptor.path = .dependency) :
    ∃ signature, x.HasSignature signature := by
  obtain ⟨⟨signature, hsignature, _⟩, hports⟩ := h hpath
  exact ⟨signature, hsignature, hports signature hsignature⟩

namespace HasSignature

variable {x : GraphNode} {signature : List (String × PortDirection)}

theorem nodup (h : x.HasSignature signature) : (signature.map Prod.fst).Nodup :=
  x.behavior.signature_nodup signature h.behavior

/-- Every slot is listed. -/
theorem listed (h : x.HasSignature signature) (i : Nat) (q : Port) (hq : x.ports[i]? = some q) :
    signature[i]? = some (q.name, q.direction) ∧ q.index = 0 := by
  have houtline : (signature[i]?).map (fun slot : String × PortDirection => (slot.1, 0, slot.2))
      = some q.outline := by
    rw [← List.getElem?_map, ← h.ports, List.getElem?_map, hq, Option.map_some]
  obtain ⟨⟨name, direction⟩, hget, heq⟩ := Option.map_eq_some_iff.mp houtline
  obtain ⟨rfl, hindex, rfl⟩ : name = q.name ∧ 0 = q.index ∧ direction = q.direction := by
    simpa [Port.outline] using heq
  exact ⟨hget, hindex.symm⟩

/-- Everything that is listed is a slot. -/
theorem exists_slot (h : x.HasSignature signature) (name : String) (direction : PortDirection)
    (hmem : (name, direction) ∈ signature) :
    ∃ (i : Nat) (q : Port), x.ports[i]? = some q ∧ q.name = name ∧ q.direction = direction := by
  obtain ⟨i, hi⟩ := List.mem_iff_getElem?.mp hmem
  have houtline : (x.ports[i]?).map Port.outline = some (name, 0, direction) := by
    rw [← List.getElem?_map, h.ports, List.getElem?_map, hi, Option.map_some]
  obtain ⟨q, hq, heq⟩ := Option.map_eq_some_iff.mp houtline
  obtain ⟨hname, _, hdirection⟩ : q.name = name ∧ q.index = 0 ∧ q.direction = direction := by
    simpa [Port.outline] using heq
  exact ⟨i, q, hq, hname, hdirection⟩

/-- A name is listed with the direction of its slot. -/
theorem mem_iff (h : x.HasSignature signature) (i : Nat) (q : Port) (hq : x.ports[i]? = some q)
    (direction : PortDirection) : (q.name, direction) ∈ signature ↔ q.direction = direction := by
  have hslot := List.mem_of_getElem? (h.listed i q hq).1
  constructor
  · intro hmem
    exact congrArg Prod.snd (List.inj_on_of_nodup_map h.nodup hslot hmem rfl)
  · rintro rfl
    exact hslot

/-- Slots of one name are one slot. -/
theorem slot_unique (h : x.HasSignature signature) (i j : Nat) (p q : Port)
    (hp : x.ports[i]? = some p) (hq : x.ports[j]? = some q) (hname : p.name = q.name) : i = j := by
  have hi : (signature.map Prod.fst)[i]? = some p.name := by
    rw [List.getElem?_map, (h.listed i p hp).1, Option.map_some]
  have hj : (signature.map Prod.fst)[j]? = some q.name := by
    rw [List.getElem?_map, (h.listed j q hq).1, Option.map_some]
  have hlt : i < (signature.map Prod.fst).length := (List.getElem?_eq_some_iff.mp hi).1
  refine (List.getElem?_inj hlt h.nodup).mp ?_
  rw [hi, hj, hname]

/-- A slot is found by its name. -/
theorem portIndex_of_slot (h : x.HasSignature signature) (i : Nat) (q : Port)
    (hq : x.ports[i]? = some q) : x.portIndex q.name 0 = some i := by
  have hindex := (h.listed i q hq).2
  cases hfound : x.portIndex q.name 0 with
  | none =>
    have hnone := List.findIdx?_eq_none_iff.mp hfound q (List.mem_of_getElem? hq)
    simp [Port.isSlot, hindex] at hnone
  | some j =>
    obtain ⟨p, hp, hname, _⟩ := x.slot_of_portIndex q.name 0 j hfound
    rw [h.slot_unique j i p q hp hq hname]

end HasSignature

end GraphNode

/-! ## Section 2: Reading -/

namespace Network

theorem readPort_unlinked (n : Network) (s : Store) (a : PortAddress) (p : Port)
    (hp : n.port? a = some p) (hlink : p.link = none) : n.readPort s a = s.cell n.id a := by
  simp only [readPort, hp, hlink]

theorem readPort_linked (n : Network) (s : Store) (a : PortAddress) (p q : Port) (link : PortLink)
    (hp : n.port? a = some p) (hlink : p.link = some link) (hq : n.port? link.source = some q) :
    n.readPort s a = link.compatibility.convert s.objects (s.cell n.id link.source) := by
  simp only [readPort, hp, hlink, hq]

end Network

/-! ## Section 3: Writing results -/

namespace Site

theorem address?_of_portIndex (site : Site) (x : GraphNode) (hx : site.node? = some x)
    (name : String) (i : Nat) (hi : x.portIndex name 0 = some i) :
    site.address? name 0 = some ⟨site.node, i⟩ := by
  unfold address?
  rw [hx, Option.bind_some, hi, Option.map_some]

/-- Writing an output writes the cell of its slot, if there is one. -/
theorem output_cases (site : Site) (name : String) (v : Value) (s : Store) :
    site.output name 0 v s = s ∨
      ∃ x i, site.node? = some x ∧ x.portIndex name 0 = some i ∧
        site.output name 0 v s = s.writeCell site.frame.graph.id ⟨site.node, i⟩ v := by
  unfold output
  cases haddress : site.address? name 0 with
  | none => exact .inl rfl
  | some a =>
    obtain ⟨i, hi, rfl⟩ := Option.map_eq_some_iff.mp haddress
    obtain ⟨x, hx, hindex⟩ := Option.bind_eq_some_iff.mp hi
    have hwrite : site.frame.graph.writePort s ⟨site.node, i⟩ v = s ∨
        site.frame.graph.writePort s ⟨site.node, i⟩ v
          = s.writeCell site.frame.graph.id ⟨site.node, i⟩ v := by
      unfold Network.writePort
      split
      · exact .inr rfl
      · exact .inl rfl
    exact hwrite.imp_right fun heq => ⟨x, i, hx, hindex, heq⟩

theorem output_eq (site : Site) (x : GraphNode) (hx : site.node? = some x) (name : String)
    (i : Nat) (hi : x.portIndex name 0 = some i) (v : Value) (s : Store) :
    site.output name 0 v s = s.writeCell site.frame.graph.id ⟨site.node, i⟩ v := by
  obtain ⟨q, hq, _⟩ := x.slot_of_portIndex name 0 i hi
  have hport : site.frame.graph.port? ⟨site.node, i⟩ = some q :=
    (Network.port?_eq_some_iff _ _ q).mpr ⟨x, hx, hq⟩
  unfold output
  rw [site.address?_of_portIndex x hx name i hi]
  show site.frame.graph.writePort s ⟨site.node, i⟩ v = _
  unfold Network.writePort
  rw [hport]

theorem outputs_frame (site : Site) (values : List (String × Value)) (s : Store) :
    (site.outputs values s).objects = s.objects ∧ (site.outputs values s).vars = s.vars ∧
      Store.RowsKept (fun _ => True) s (site.outputs values s) := by
  induction values generalizing s with
  | nil => exact ⟨rfl, rfl, .of_graphs _ rfl⟩
  | cons r rest ih =>
    obtain ⟨hobjects, hvars, hrows⟩ := ih (site.output r.1 0 r.2 s)
    rcases site.output_cases r.1 r.2 s with heq | ⟨x, i, _, _, heq⟩
    · have hkept : Store.RowsKept (fun _ => True) s (site.output r.1 0 r.2 s) := by
        rw [heq]
        exact .of_graphs _ rfl
      refine ⟨hobjects.trans ?_, hvars.trans ?_, hkept.trans hrows⟩
      · rw [heq]
      · rw [heq]
    · have hwrite := Store.rowsKept_writeCell (fun _ => True) s site.frame.graph.id
        ⟨site.node, i⟩ r.2
      rw [← heq] at hwrite
      refine ⟨hobjects.trans ?_, hvars.trans ?_, hwrite.trans hrows⟩
      · rw [heq]
        rfl
      · rw [heq]
        rfl

/-- Only cells of the named slots change. -/
theorem changed_outputs (site : Site) (values : List (String × Value)) (s : Store) (k : GraphId)
    (a : PortAddress) (hchanged : (site.outputs values s).cell k a ≠ s.cell k a) :
    k = site.frame.graph.id ∧ a.node.index = site.node.index ∧
      ∃ x r, site.node? = some x ∧ r ∈ values ∧ x.portIndex r.1 0 = some a.port := by
  induction values generalizing s with
  | nil => exact absurd rfl hchanged
  | cons r rest ih =>
    by_cases hrest : (site.outputs rest (site.output r.1 0 r.2 s)).cell k a
        = (site.output r.1 0 r.2 s).cell k a
    · -- the first write made the change
      have hfirst : (site.output r.1 0 r.2 s).cell k a ≠ s.cell k a := by
        rw [← hrest]
        exact hchanged
      rcases site.output_cases r.1 r.2 s with heq | ⟨x, i, hx, hi, heq⟩
      · rw [heq] at hfirst
        exact absurd rfl hfirst
      · rw [heq] at hfirst
        -- a write changes no cell but its own
        by_cases hk : site.frame.graph.id = k
        · by_cases ha : site.node.index = a.node.index ∧ i = a.port
          · obtain ⟨hindex, rfl⟩ := ha
            exact ⟨hk.symm, hindex.symm, x, r, hx, List.mem_cons_self, hi⟩
          · rw [hk] at hfirst
            exact absurd (s.cell_writeCell_of_ne k _ a r.2 (not_and_or.mp ha)) hfirst
        · exact absurd (s.cell_writeCell_other _ k _ a r.2 hk) hfirst
    · obtain ⟨hk, hindex, x, r', hx, hr', hi⟩ := ih _ hrest
      exact ⟨hk, hindex, x, r', hx, List.mem_cons_of_mem r hr', hi⟩

/-- Every named slot holds its value afterwards. -/
theorem cell_outputs (site : Site) (values : List (String × Value)) (s : Store) (x : GraphNode)
    (hx : site.node? = some x) (hnodup : (values.map Prod.fst).Nodup)
    (hrow : s.rowSize site.frame.graph.id site.node.index = some x.ports.length)
    (name : String) (v : Value) (hmem : (name, v) ∈ values) (i : Nat)
    (hi : x.portIndex name 0 = some i) :
    (site.outputs values s).cell site.frame.graph.id ⟨site.node, i⟩ = v := by
  induction values generalizing s with
  | nil => cases hmem
  | cons r rest ih =>
    obtain ⟨hfresh, hnodup⟩ := List.nodup_cons.mp hnodup
    rcases List.mem_cons.mp hmem with rfl | hmem
    · -- the value is written first, and the writes after it go to other slots
      have hkept : (site.outputs rest (site.output name 0 v s)).cell site.frame.graph.id
          ⟨site.node, i⟩ = (site.output name 0 v s).cell site.frame.graph.id ⟨site.node, i⟩ := by
        by_contra hchanged
        obtain ⟨_, _, y, r', hy, hr', hi'⟩ := site.changed_outputs _ _ _ _ hchanged
        rw [hx] at hy
        cases hy
        -- the slot has one name only
        obtain ⟨q, hq, hname, _⟩ := x.slot_of_portIndex name 0 i hi
        obtain ⟨q', hq', hname', _⟩ := x.slot_of_portIndex r'.1 0 i hi'
        rw [hq] at hq'
        cases hq'
        rw [hname] at hname'
        exact hfresh (List.mem_map.mpr ⟨r', hr', hname'.symm⟩)
      refine hkept.trans ?_
      obtain ⟨q, hq, _⟩ := x.slot_of_portIndex name 0 i hi
      have hlt : i < x.ports.length := (List.getElem?_eq_some_iff.mp hq).1
      rw [site.output_eq x hx name i hi v s]
      exact s.cell_writeCell_self _ ⟨site.node, i⟩ v _ hrow hlt
    · have hwritten := (site.outputs_frame [r] s).2.2.row site.frame.graph.id trivial
      exact ih (site.output r.1 0 r.2 s) hnodup ((hwritten site.node.index).trans hrow) hmem

/-! ### Nodes that run on demand -/

/-- Only outputs of the node change. -/
theorem changed_written (site : Site) (s : Store) (x : GraphNode) (hx : site.node? = some x)
    (signature : List (String × PortDirection)) (hsignature : x.HasSignature signature)
    (k : GraphId) (a : PortAddress) (hchanged : (site.written x.behavior s).cell k a ≠ s.cell k a) :
    k = site.frame.graph.id ∧ a.node.index = site.node.index ∧
      site.frame.graph.IsOutput ⟨site.node, a.port⟩ := by
  obtain ⟨hk, hindex, y, ⟨name, v⟩, hy, hr, hi⟩ := site.changed_outputs _ s k a hchanged
  rw [hx] at hy
  cases hy
  obtain ⟨q, hq, rfl, _⟩ := x.slot_of_portIndex name 0 a.port hi
  have hlisted := (site.results_outputs s (site.current s) x.behavior signature
    hsignature.behavior).2 q.name
  have hdirection := (hsignature.mem_iff a.port q hq .output).mp (hlisted.mpr ⟨v, hr⟩)
  have hport : site.frame.graph.port? ⟨site.node, a.port⟩ = some q :=
    (Network.port?_eq_some_iff _ _ q).mpr ⟨x, hx, hq⟩
  exact ⟨hk, hindex, q, hport, hdirection⟩

/-- Every output of the node holds its result. -/
theorem cell_written (site : Site) (s : Store) (x : GraphNode) (hx : site.node? = some x)
    (signature : List (String × PortDirection)) (hsignature : x.HasSignature signature)
    (hrow : s.rowSize site.frame.graph.id site.node.index = some x.ports.length)
    (i : Nat) (q : Port) (hq : x.ports[i]? = some q) (hdirection : q.direction = .output) :
    (q.name, (site.written x.behavior s).cell site.frame.graph.id ⟨site.node, i⟩)
      ∈ site.results s (site.current s) x.behavior := by
  obtain ⟨hnodup, hlisted⟩ := site.results_outputs s (site.current s) x.behavior signature
    hsignature.behavior
  obtain ⟨v, hv⟩ := (hlisted q.name).mp ((hsignature.mem_iff i q hq .output).mpr hdirection)
  have hcell := site.cell_outputs _ s x hx hnodup hrow q.name v hv i
    (hsignature.portIndex_of_slot i q hq)
  unfold written
  rw [hcell]
  exact hv

end Site
end FlowGraph
