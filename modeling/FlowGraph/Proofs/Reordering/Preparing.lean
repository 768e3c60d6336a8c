import FlowGraph.Proofs.Graph.Connecting
import FlowGraph.Proofs.Reordering.Namesakes

/-! # Preparing the same nodes in another order

    Where no data input has connections from two slots, no slot has two links into it
    (`Graph.Placed.single`), so that links do not depend on the order in which they are made.
    Where no two entries have one name, neither does the entry of a name
    (`Network.Reordered.entry`).  And the variables of nodes are bound to variables elsewhere,
    in whatever order (`Graph.Shuffled.boundVariables_alike`). -/

namespace FlowGraph

/-! ## Section 1: Saved graphs -/

/-- Nodes that run on demand only compute: they have the slots of their behaviors, and these
    read inputs and write outputs. -/
def Registry.OnDemand (registry : Registry) : Prop :=
  ∀ d, (registry.resolve d).descriptor.path = .dependency →
    (registry.resolve d).descriptor.Declares (registry.resolve d).behavior

namespace GraphData

/-- A node declares a data input of a name. -/
def HasDataInput (registry : Registry) (data : GraphData) (guid port : String) : Prop :=
  ∃ d ∈ data.nodes, d.guid = guid ∧ ∃ p ∈ (registry.resolve d).descriptor.ports,
    p.name = port ∧ p.direction = .input ∧ p.kind = .data

instance (registry : Registry) (data : GraphData) (guid port : String) :
    Decidable (data.HasDataInput registry guid port) := by
  unfold HasDataInput
  infer_instance

/-- No slot of a data input has two connections into it. -/
def SinglyConnected (registry : Registry) (data : GraphData) : Prop :=
  ∀ c ∈ data.connections, ∀ c' ∈ data.connections,
    (c'.target, c'.targetPort, c'.targetIndex) = (c.target, c.targetPort, c.targetIndex) →
    data.HasDataInput registry c.target c.targetPort → c' = c

instance (registry : Registry) (data : GraphData) : Decidable (data.SinglyConnected registry) := by
  unfold SinglyConnected
  infer_instance

/-- No two nodes are entries of one name. -/
def DistinctEntries (registry : Registry) (data : GraphData) : Prop :=
  ∀ d ∈ data.nodes, ∀ e ∈ data.nodes, (registry.resolve d).behavior.entryName.isSome = true →
    (registry.resolve e).behavior.entryName = (registry.resolve d).behavior.entryName →
    e.guid = d.guid

instance (registry : Registry) (data : GraphData) : Decidable (data.DistinctEntries registry) := by
  unfold DistinctEntries
  infer_instance

/-- Nothing depends on the order of the nodes. -/
structure OrderFree (registry : Registry) (data : GraphData) : Prop where
  onDemand : registry.OnDemand
  single : data.SinglyConnected registry
  entries : data.DistinctEntries registry

end GraphData

/-! ## Section 2: One link for a slot -/

namespace Graph.Placed

variable {registry : Registry} {data : GraphData} {s₀ s : Store} {g : Graph}

/-- The node that a guid leads to is the live form of the saved node. -/
theorem saved_unlinked (hg : Placed registry data s₀ g s) (h : NodeHandle) (x : GraphNode)
    (hx : g.toNetwork.unlinked.node? h = some x) : ∃ d ∈ data.nodes, x.guid = d.guid ∧
      x.descriptor = (registry.resolve d).descriptor ∧
      (∀ q ∈ x.ports, ∃ p ∈ x.descriptor.ports,
        p.name = q.name ∧ p.direction = q.direction ∧ p.kind = q.kind) ∧
      ∀ r ∈ x.records, r.connections ≠ [] → r ∈ d.ports := by
  rw [Network.node?_unlinked] at hx
  obtain ⟨y, hy, rfl⟩ := Option.map_eq_some_iff.mp hx
  obtain ⟨d, hd, hrestores, hopens⟩ := hg.saved h y hy
  refine ⟨d, hd, hrestores.guid, hrestores.descriptor, fun q hq => ?_, fun r hr hconnected => ?_⟩
  · obtain ⟨p, hp, rfl⟩ := List.mem_map.mp hq
    rw [hopens.laidOut] at hp
    obtain ⟨⟨declared, index⟩, hslot, rfl⟩ := List.mem_map.mp hp
    obtain ⟨_, hmem, hslot⟩ := List.mem_flatMap.mp hslot
    obtain ⟨_, _, heq⟩ := List.mem_map.mp hslot
    cases heq
    exact ⟨declared, hmem, rfl, rfl, rfl⟩
  · obtain ⟨opened, hopened, hall⟩ := hopens.records
    have hmem : r ∈ d.ports ++ opened := hopened ▸ hr
    exact (List.mem_append.mp hmem).resolve_right fun hin => hconnected (hall r hin).1

/-- A data link is of a connection that is saved. -/
theorem recorded (hg : Placed registry data s₀ g s) (hnamed : data.Named)
    (conversions : Conversions) (a : PortAddress) (l : PortLink)
    (hl : .ok (.data a l) ∈ g.toNetwork.unlinked.checkAll conversions) :
    ∃ c ∈ data.connections, data.HasDataInput registry c.target c.targetPort ∧
      g.toNetwork.unlinked.LeadsTo ⟨c.target, c.targetPort, c.targetIndex⟩ a ∧
      ∃ h x i output, g.toNetwork.unlinked.handleOf c.source = some h ∧
        g.toNetwork.unlinked.node? h = some x ∧ x.portIndex c.sourcePort c.sourceIndex = some i ∧
        x.ports[i]? = some output ∧ g.toNetwork.unlinked.checkConnection conversions x ⟨h, i⟩ output
          ⟨c.target, c.targetPort, c.targetIndex⟩ = some (.ok (.data a l)) := by
  obtain ⟨⟨h, x⟩, hplaced, hrecords⟩ := List.mem_flatMap.mp hl
  obtain ⟨r, hr, hchecked⟩ := List.mem_flatMap.mp hrecords
  obtain ⟨i, output, c, hi, houtput, _, hc, hcheck⟩ :=
    Network.exists_of_mem_checkRecord _ conversions h x r _ hchecked
  have hx := Network.node?_of_mem_placed _ h x hplaced
  obtain ⟨⟨htarget, y, hy, hslot⟩, input, hport, hjoins⟩ :=
    (Network.checkConnection_data_iff _ conversions x _ output c a).mp ⟨l, hcheck⟩
  obtain ⟨y', hy', hinput⟩ := (Network.port?_eq_some_iff _ a input).mp hport
  rw [hy] at hy'
  cases hy'
  obtain ⟨d, hd, hguid, _, _, hports⟩ := hg.saved_unlinked h x hx
  obtain ⟨e, he, hguid', hdescriptor, hslots, _⟩ := hg.saved_unlinked a.node y hy
  obtain ⟨z, hz, hzguid⟩ := Network.exists_of_handleOf _ c.nodeGuid a.node htarget
  rw [hy] at hz
  cases hz
  refine ⟨⟨d.guid, r.name, r.index, c.nodeGuid, c.portName, c.portIndex⟩, ?_, ?_,
    ⟨htarget, y, hy, hslot⟩, h, x, i, output, ?_, hx, hi, houtput, hcheck⟩
  · have hrd := hports r hr (List.ne_nil_of_mem hc)
    exact List.mem_flatMap.mpr ⟨d, hd, List.mem_flatMap.mpr ⟨r, hrd, List.mem_map_of_mem hc⟩⟩
  · obtain ⟨p, hp, hname, hdirection', hkind'⟩ := hslots input (List.mem_of_getElem? hinput)
    obtain ⟨q, hq, hqname, _⟩ := y.slot_of_portIndex c.portName c.portIndex a.port hslot
    rw [hinput] at hq
    cases hq
    exact ⟨e, he, hguid'.symm.trans hzguid, p, hdescriptor ▸ hp, hname.trans hqname,
      hdirection'.trans hjoins.target, hkind'.trans hjoins.kind⟩
  · rw [Network.node?_unlinked] at hx
    obtain ⟨x', hx', rfl⟩ := Option.map_eq_some_iff.mp hx
    rw [Network.handleOf_unlinked, ← hguid]
    exact (hg.distinct hnamed).handleOf h x' hx'

/-- Where no data input has connections from two slots, no slot has two links into it. -/
theorem single (hg : Placed registry data s₀ g s) (hnamed : data.Named)
    (hsingle : data.SinglyConnected registry) (conversions : Conversions) :
    g.toNetwork.unlinked.Single conversions := by
  intro a l l' hl hl'
  obtain ⟨c, hc, hinput, ⟨htarget, y, hy, hslot⟩, h, x, i, output, hh, hx, hi, houtput, hcheck⟩ :=
    hg.recorded hnamed conversions a l hl
  obtain ⟨c', hc', _, ⟨htarget', y', hy', hslot'⟩, h', x', i', output', hh', hx', hi', houtput',
    hcheck'⟩ := hg.recorded hnamed conversions a l' hl'
  -- both connections lead to one slot, so they are the same
  have hsame : c' = c := by
    refine hsingle c hc c' hc' ?_ hinput
    rw [hy] at hy'
    cases hy'
    obtain ⟨q, hq, hname, hindex⟩ := y.slot_of_portIndex _ _ _ hslot
    obtain ⟨q', hq', hname', hindex'⟩ := y.slot_of_portIndex _ _ _ hslot'
    rw [hq] at hq'
    cases hq'
    have hguid : c'.target = c.target := Network.guid_unique htarget' htarget
    have hport : c'.targetPort = c.targetPort := hname'.symm.trans hname
    have hat : c'.targetIndex = c.targetIndex := hindex'.symm.trans hindex
    rw [hguid, hport, hat]
  subst hsame
  rw [hh] at hh'
  cases hh'
  rw [hx] at hx'
  cases hx'
  rw [hi] at hi'
  cases hi'
  rw [houtput] at houtput'
  cases houtput'
  rw [hcheck] at hcheck'
  cases hcheck'
  rfl

end Graph.Placed
/-! ## Section 3: Entries -/

namespace Network

variable {ren : Renaming} {n m : Network}

/-- No two nodes answer to one name. -/
def DistinctEntries (n : Network) : Prop :=
  ∀ h k x y name, n.node? h = some x → n.node? k = some y → x.behavior.entryName = some name →
    y.behavior.entryName = some name → h = k

/-- Then the entry of a name does not depend on the order of the nodes. -/
theorem Reordered.entry (h : n.Reordered ren m) (hentries : n.DistinctEntries) (name : String) :
    Option.Rel ren.node (n.findEntry name) (m.findEntry name) := by
  cases ha : n.findEntry name with
  | some a =>
    obtain ⟨x, hx, hname⟩ := n.entry_of_findEntry name a ha
    obtain ⟨b, hab⟩ := h.total.1 a x hx
    obtain ⟨x', y, hx', hy, hxy, _⟩ := h.node a b hab
    rw [hx] at hx'
    cases hx'
    obtain ⟨b', hb'⟩ := m.exists_findEntry h.sound.2 name b y hy (hxy.behavior ▸ hname)
    -- the entry that is found there is the namesake of one here
    obtain ⟨y', hy', hname'⟩ := m.entry_of_findEntry name b' hb'
    obtain ⟨a', hab'⟩ := h.total.2 b' y' hy'
    obtain ⟨z, z', hz, hz', hzz, _⟩ := h.node a' b' hab'
    rw [hy'] at hz'
    cases hz'
    rw [hb', hentries a a' x z name hx hz hname (hzz.behavior ▸ hname')]
    exact .some hab'
  | none =>
    cases hb : m.findEntry name with
    | none => exact .none
    | some b =>
      obtain ⟨y, hy, hname⟩ := m.entry_of_findEntry name b hb
      obtain ⟨a, hab⟩ := h.total.2 b y hy
      obtain ⟨x, y', hx, hy', hxy, _⟩ := h.node a b hab
      rw [hy] at hy'
      cases hy'
      obtain ⟨a', ha'⟩ := n.exists_findEntry h.sound.1 name a x hx (hxy.behavior ▸ hname)
      rw [ha] at ha'
      cases ha'

end Network

/-! ## Section 4: Variables -/

namespace Graph

/-- The names of everything but the nodes of a graph that is placed, and their variables. -/
def elsewhere (s₀ : Store) (count : Nat) : Renaming where
  graph := s₀.graphs.size
  node _ _ := False
  var v w := v = w ∧ (v < s₀.vars.cells.size ∨ s₀.vars.cells.size + count ≤ v)
  width _ := 0
  aside _ := False
  node_unique := ⟨fun _ _ _ h => h.elim, fun _ _ _ h => h.elim⟩
  var_unique := ⟨fun _ _ _ h h' => h.1.trans h'.1.symm, fun _ _ _ h h' => h.1.symm.trans h'.1⟩
  index_iff _ _ _ _ h := h.elim

namespace Placed

variable {registry : Registry} {data : GraphData} {s₀ s : Store} {g : Graph}

/-- Nothing is bound to the variables of the nodes yet. -/
theorem open_elsewhere (hg : Placed registry data s₀ g s) (hclosed : s₀.Closed) :
    Store.Open (elsewhere s₀ (ownCount registry data.nodes)) s s := by
  obtain ⟨own, hown, hsize⟩ := hg.vars
  refine ⟨⟨rfl, rfl, rfl, rfl, rfl, ⟨rfl, ?_⟩, rfl, fun _ _ => rfl, rfl, fun _ _ h => h.elim,
    fun _ _ h => h.elim, fun _ _ h => h.elim⟩, ?_, ?_, ?_⟩
  · rintro v _ ⟨rfl, hv⟩
    exact hg.other_alike hg (.refl _) rfl hclosed (fun w hw => ⟨rfl, .inl hw⟩) v hv
  · rw [hg.works.size]
    exact (Array.size_push _).symm ▸ Nat.lt_succ_self _
  · intro v hv
    refine ⟨rfl, .inr (le_trans ?_ hv)⟩
    rw [hown, Array.size_append, Array.size_append, hsize]
    exact Nat.le_add_right _ _
  · intro e he
    rw [hg.works.globals] at he
    exact ⟨rfl, .inl (hclosed.globals e he)⟩

end Placed

/-- The variables of the nodes are those that are not elsewhere. -/
theorem Numbered.mem_own_iff {base count : Nat} {n : Network} (hn : Numbered base count n)
    (hsound : n.Sound) (v : VarId) :
    v ∈ (ownVariables n).map (·.2.2) ↔ ¬ (v < base ∨ base + count ≤ v) := by
  constructor
  · intro hv
    obtain ⟨own, hown, rfl⟩ := List.mem_map.mp hv
    obtain ⟨⟨h, x⟩, hx, hmem⟩ := List.mem_flatMap.mp hown
    obtain ⟨e, he, rfl⟩ := List.mem_map.mp hmem
    exact hn.not_other hsound ((Arena.mem_toList_iff n.nodes h x).mp hx) he
  · intro hv
    have hmem : v ∈ List.range' base count :=
      List.mem_range'_1.mpr ⟨Nat.le_of_not_lt fun h => hv (.inl h),
        Nat.lt_of_not_le fun h => hv (.inr h)⟩
    rw [← hn] at hmem
    obtain ⟨⟨h, x⟩, hx, hmem⟩ := List.mem_flatMap.mp hmem
    obtain ⟨e, he, rfl⟩ := List.mem_map.mp hmem
    have hnode := (Arena.mem_toList_iff n.nodes h x).mpr (n.node?_of_mem_placed h x hx)
    exact List.mem_map.mpr ⟨(x.guid, e.1, e.2),
      List.mem_flatMap.mpr ⟨(h, x), hnode, List.mem_map_of_mem he⟩, rfl⟩

/-- Variables elsewhere are bound elsewhere, so that those of the nodes can be bound in any
    order. -/
theorem loose_of_alike {s₀ : Store} {count : Nat} {n : Network} {vs : Variables}
    (hn : Numbered s₀.vars.cells.size count n) (hsound : n.Sound) {globals : Globals}
    {board : Blackboard} (hglobals : ∀ e ∈ globals.entries, (elsewhere s₀ count).var e.2 e.2)
    (hboard : ∀ v ∈ board, (elsewhere s₀ count).var v v)
    (hvs : vs.Alike (elsewhere s₀ count).var vs) :
    vs.Loose globals board ((ownVariables n).map (·.2.2)) := by
  have hnot : ∀ v, (elsewhere s₀ count).var v v → v ∉ (ownVariables n).map (·.2.2) := by
    intro v hv hmem
    exact (hn.mem_own_iff hsound v).mp hmem hv.2
  refine ⟨fun e he => hnot _ (hglobals e he), fun v hv => hnot v (hboard v hv), fun v t hv ht => ?_⟩
  have hother : (elsewhere s₀ count).var v v :=
    ⟨rfl, not_not.mp fun hown => hv ((hn.mem_own_iff hsound v).mpr hown)⟩
  have htarget := hvs.targetOf hother
  rw [ht] at htarget
  cases htarget with
  | some htt => exact hnot t htt

namespace Shuffled

variable {registry : Registry} {data data' : GraphData} {s₀ s t : Store} {g k : Graph}

theorem blackboard (h : Shuffled registry data data' s₀ g k s t) : k.blackboard = g.blackboard := by
  rw [h.right.blackboard, h.left.blackboard, ownCount_perm registry h.nodes, h.vars]

theorem board (h : Shuffled registry data data' s₀ g k s t) (v : VarId) (hv : v ∈ g.blackboard) :
    v < s₀.vars.cells.size ∨ s₀.vars.cells.size + ownCount registry data.nodes ≤ v := by
  rw [h.left.blackboard, List.mem_range'_1] at hv
  exact .inr hv.1

/-- The variables of the two graphs are bound alike. -/
theorem boundVariables_alike (h : Shuffled registry data data' s₀ g k s t) {vs ws : Variables}
    {globals : Globals} (hglobals : ∀ e ∈ globals.entries,
      (elsewhere s₀ (ownCount registry data.nodes)).var e.2 e.2)
    (hvars : vs.Alike h.names.var ws)
    (hvs : vs.Alike (elsewhere s₀ (ownCount registry data.nodes)).var vs)
    (hws : ws.Alike (elsewhere s₀ (ownCount registry data.nodes)).var ws) :
    (boundVariables globals g.toNetwork vs).Alike h.names.var
      (boundVariables globals k.toNetwork ws) := by
  have hboards : ∀ (ren : Renaming) (us us' : Variables), (∀ v, (v < s₀.vars.cells.size ∨
      s₀.vars.cells.size + ownCount registry data.nodes ≤ v) → ren.var v v) →
      us.Alike ren.var us' → (g.blackboard.foldl (Variables.boundBoard globals) us).Alike ren.var
        (g.blackboard.foldl (Variables.boundBoard globals) us') := by
    intro ren us us' hother hus
    exact List.foldl_rel hus fun v hv _ _ hus => hus.boundBoard ren.var_unique
      (fun e he => hother _ (hglobals e he).2) (hother v (h.board v hv))
  have hloose : ∀ {n : Network} {us : Variables},
      Numbered s₀.vars.cells.size (ownCount registry data.nodes) n → n.Sound →
      us.Alike (elsewhere s₀ (ownCount registry data.nodes)).var us →
      (g.blackboard.foldl (Variables.boundBoard globals) us).Loose globals g.blackboard
        ((ownVariables n).map (·.2.2)) := fun hn hsound hus =>
    loose_of_alike hn hsound hglobals (fun v hv => ⟨rfl, h.board v hv⟩)
      (hboards _ _ _ (fun v hv => ⟨rfl, hv⟩) hus)
  unfold boundVariables
  rw [h.blackboard]
  refine (hboards h.names vs ws (fun v hv => .other v hv) hvars).foldl_boundOwn
    (hloose h.numbered.1 h.left.sound hvs) (hloose h.numbered.2 h.right.sound hws)
    (fun e he => .other _ (hglobals e he).2) (fun v hv => .other v (h.board v hv)) ?_
  intro v w hvw
  rw [h.numbered.1.mem_own_iff h.left.sound, h.numbered.2.mem_own_iff h.right.sound]
  cases hvw with
  | own a b x y i e f hab hx hy he hf =>
    exact iff_of_true (h.numbered.1.not_other h.left.sound hx (List.mem_of_getElem? he))
      (h.numbered.2.not_other h.right.sound hy (List.mem_of_getElem? hf))
  | other _ hv => exact Iff.rfl

end Shuffled
end Graph
end FlowGraph
