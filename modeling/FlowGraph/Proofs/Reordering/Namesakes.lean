import FlowGraph.Proofs.Reordering.Placing
import FlowGraph.Proofs.Reordering.Works
import FlowGraph.Proofs.Reordering.Linking

/-! # Placing the same nodes in another order

    From one store, the same saved nodes are placed in two orders (`Graph.Shuffled`).  Nodes of
    one guid are namesakes, and so are the variables that they have at one position; all other
    variables have the same ids (`Network.Namesakes`, `Graph.Counterparts`).  This gives a
    renaming, under which the two networks are reordered (`Graph.Shuffled.reordered`) and the
    two stores are open (`Graph.Shuffled.open_stores`). -/

namespace FlowGraph

/-! ## Section 1: Nodes of one guid -/

namespace Network

/-- Two handles have the same guid. -/
def Namesakes (n m : Network) (h k : NodeHandle) : Prop :=
  ∃ guid, n.handleOf guid = some h ∧ m.handleOf guid = some k

variable {n m : Network}

theorem guid_unique {guid guid' : String} {h : NodeHandle} (hh : n.handleOf guid = some h)
    (hh' : n.handleOf guid' = some h) : guid = guid' := by
  obtain ⟨x, hx, hguid⟩ := n.exists_of_handleOf guid h hh
  obtain ⟨y, hy, hguid'⟩ := n.exists_of_handleOf guid' h hh'
  rw [hx] at hy
  cases hy
  exact hguid.symm.trans hguid'

theorem namesakes_unique : Relator.BiUnique (n.Namesakes m) := by
  constructor
  · rintro h h' k ⟨guid, hh, hk⟩ ⟨guid', hh', hk'⟩
    rw [guid_unique hk hk', hh'] at hh
    exact Option.some.inj hh.symm
  · rintro h k k' ⟨guid, hh, hk⟩ ⟨guid', hh', hk'⟩
    rw [guid_unique hh hh', hk'] at hk
    exact Option.some.inj hk.symm

/-- Live nodes are in one row only if they are the same. -/
theorem Namesakes.index_iff {a b c d : NodeHandle} (hab : n.Namesakes m a b)
    (hcd : n.Namesakes m c d) : a.index = c.index ↔ b.index = d.index := by
  have hsame := Relator.rel_eq namesakes_unique hab hcd
  obtain ⟨guid, ha, hb⟩ := hab
  obtain ⟨guid', hc, hd⟩ := hcd
  obtain ⟨x, hx, _⟩ := n.exists_of_handleOf guid a ha
  obtain ⟨y, hy, _⟩ := n.exists_of_handleOf guid' c hc
  obtain ⟨z, hz, _⟩ := m.exists_of_handleOf guid b hb
  obtain ⟨w, hw, _⟩ := m.exists_of_handleOf guid' d hd
  constructor
  · intro hindex
    rw [hsame.mp (Arena.eq_of_index_eq n.nodes a c x y hx hy hindex)]
  · intro hindex
    rw [hsame.mpr (Arena.eq_of_index_eq m.nodes b d z w hz hw hindex)]

end Network

namespace Graph

/-- Two ids name the same variable: that of namesakes at one position, or one that no node
    has. -/
inductive Counterparts (base count : Nat) (n m : Network) : VarId → VarId → Prop where
  | own (h k : NodeHandle) (x y : GraphNode) (i : Nat) (e f : String × VarId)
      (hk : n.Namesakes m h k) (hx : n.node? h = some x) (hy : m.node? k = some y)
      (he : x.vars[i]? = some e) (hf : y.vars[i]? = some f) : Counterparts base count n m e.2 f.2
  | other (v : VarId) (hv : v < base ∨ base + count ≤ v) : Counterparts base count n m v v

/-- The variables of the nodes of a network are numbered from a first one on. -/
def Numbered (base count : Nat) (n : Network) : Prop :=
  n.placed.flatMap (fun e => e.2.vars.map Prod.snd) = List.range' base count

/-- An id is of one variable of one node. -/
theorem Numbered.unique {base count : Nat} {n : Network} (hn : Numbered base count n)
    (hsound : n.Sound) {h k : NodeHandle} {x y : GraphNode} (hx : n.node? h = some x)
    (hy : n.node? k = some y) {i j : Nat} {e f : String × VarId} (he : x.vars[i]? = some e)
    (hf : y.vars[j]? = some f) (hid : e.2 = f.2) : h = k ∧ i = j := by
  have hnodup : (n.placed.flatMap fun e => e.2.vars.map Prod.snd).Nodup := by
    rw [hn]
    exact List.nodup_range'
  obtain ⟨hnodes, hapart⟩ := List.nodup_flatMap.mp hnodup
  have hmem := (n.mem_placed_iff hsound h x).mpr hx
  have hmem' := (n.mem_placed_iff hsound k y).mpr hy
  have hhk : h = k := by
    by_contra hne
    have hsymm : Std.Symm (Function.onFun List.Disjoint
        fun e : NodeHandle × GraphNode => e.2.vars.map Prod.snd) := ⟨fun _ _ hd => hd.symm⟩
    have hdisjoint := hapart.forall hmem hmem' fun heq => hne (congrArg Prod.fst heq)
    exact hdisjoint (List.mem_map_of_mem (List.mem_of_getElem? he))
      (hid ▸ List.mem_map_of_mem (List.mem_of_getElem? hf))
  subst hhk
  rw [hx] at hy
  cases hy
  refine ⟨rfl, ?_⟩
  have hlt : i < (x.vars.map Prod.snd).length := by
    rw [List.length_map]
    exact (List.getElem?_eq_some_iff.mp he).1
  refine (List.getElem?_inj hlt (hnodes (h, x) hmem)).mp ?_
  rw [List.getElem?_map, List.getElem?_map, he, hf, Option.map_some, Option.map_some, hid]

/-- The variables of the nodes are not the other ones. -/
theorem Numbered.not_other {base count : Nat} {n : Network} (hn : Numbered base count n)
    (hsound : n.Sound) {h : NodeHandle} {x : GraphNode} (hx : n.node? h = some x)
    {e : String × VarId} (he : e ∈ x.vars) : ¬ (e.2 < base ∨ base + count ≤ e.2) := by
  have hmem : e.2 ∈ n.placed.flatMap fun e => e.2.vars.map Prod.snd :=
    List.mem_flatMap.mpr ⟨(h, x), (n.mem_placed_iff hsound h x).mpr hx, List.mem_map_of_mem he⟩
  rw [hn, List.mem_range'_1] at hmem
  rintro (hlt | hle)
  · exact hlt.not_ge hmem.1
  · exact hle.not_gt hmem.2

theorem Counterparts.symm {base count : Nat} {n m : Network} {v w : VarId}
    (h : Counterparts base count n m v w) : Counterparts base count m n w v := by
  cases h with
  | own h k x y i e f hk hx hy he hf =>
    obtain ⟨guid, hh, hk⟩ := hk
    exact .own k h y x i f e ⟨guid, hk, hh⟩ hy hx hf he
  | other v hv => exact .other v hv

theorem Counterparts.right_unique {base count : Nat} {n m : Network}
    (hn : Numbered base count n) (hsound : n.Sound) {u v w : VarId}
    (hv : Counterparts base count n m u v) (hw : Counterparts base count n m u w) : v = w := by
  obtain ⟨u', hu⟩ : ∃ u', u = u' := ⟨u, rfl⟩
  rw [hu] at hw
  cases hv with
  | own h k x y i e f hk hx hy he hf =>
    cases hw with
    | own h' k' x' y' i' e' f' hk' hx' hy' he' hf' =>
      obtain ⟨rfl, rfl⟩ := hn.unique hsound hx hx' he he' hu
      obtain rfl := Network.namesakes_unique.2 hk hk'
      rw [hy] at hy'
      cases hy'
      rw [hf] at hf'
      cases hf'
      rfl
    | other _ hother =>
      exact absurd (hu ▸ hother) (hn.not_other hsound hx (List.mem_of_getElem? he))
  | other _ hother =>
    cases hw with
    | own h' k' x' y' i' e' f' hk' hx' hy' he' hf' =>
      exact absurd (hu ▸ hother) (hn.not_other hsound hx' (List.mem_of_getElem? he'))
    | other _ _ => exact hu

theorem counterparts_unique {base count : Nat} {n m : Network} (hn : Numbered base count n)
    (hm : Numbered base count m) (hsound : n.Sound) (hsound' : m.Sound) :
    Relator.BiUnique (Counterparts base count n m) :=
  ⟨fun _ _ _ hv hw => hv.symm.right_unique hm hsound' hw.symm,
    fun _ _ _ hv hw => hv.right_unique hn hsound hw⟩

/-! ## Section 2: Placed nodes -/

namespace Placed

variable {registry : Registry} {data : GraphData} {s₀ s : Store} {g : Graph}

/-- Live nodes have saved forms, and saved nodes live ones. -/
theorem saved (hg : Placed registry data s₀ g s) (h : NodeHandle) (x : GraphNode)
    (hx : g.node? h = some x) : ∃ d ∈ data.nodes, x.Restores registry s.vars d ∧
      x.Opens registry data.nodes d :=
  (Network.exists_of_placed hg.sound (R := fun d x => x.Restores registry s.vars d ∧
    x.Opens registry data.nodes d) hg.nodes).1 h x hx

theorem live (hg : Placed registry data s₀ g s) (d : NodeData) (hd : d ∈ data.nodes) :
    ∃ h x, g.node? h = some x ∧ x.Restores registry s.vars d ∧ x.Opens registry data.nodes d :=
  (Network.exists_of_placed hg.sound (R := fun d x => x.Restores registry s.vars d ∧
    x.Opens registry data.nodes d) hg.nodes).2 d hd

/-- Distinct guids stay distinct. -/
theorem distinct (hg : Placed registry data s₀ g s) (hnamed : data.Named) :
    g.toNetwork.Distinct := by
  have hguids : g.placed.map (·.2.guid) = data.nodes.map (·.guid) :=
    (map_eq_of_forall₂ (hg.nodes.imp fun d e he => he.1.guid.symm)).symm
  have hnodup : (g.placed.map (·.2.guid)).Nodup := hguids ▸ hnamed.nodup
  intro h k x y hx hy hxy
  have hmem := (g.mem_placed_iff hg.sound h x).mpr hx
  have hmem' := (g.mem_placed_iff hg.sound k y).mpr hy
  exact congrArg Prod.fst (List.inj_on_of_nodup_map hnodup hmem hmem' hxy)

theorem handleOf (hg : Placed registry data s₀ g s) (hnamed : data.Named) {h : NodeHandle}
    {x : GraphNode} (hx : g.node? h = some x) {d : NodeData} (hd : x.Restores registry s.vars d) :
    g.handleOf d.guid = some h :=
  hd.guid ▸ (hg.distinct hnamed).handleOf h x hx

end Placed

/-! ## Section 3: The renaming -/

end Graph

/-- Bindings and global names lead to variables that are there. -/
structure Store.Closed (s : Store) : Prop where
  targets : ∀ v w, s.vars.Forwards v w → w < s.vars.cells.size
  globals : ∀ e ∈ s.globals.entries, e.2 < s.vars.cells.size

theorem Store.closed_default : (default : Store).Closed := by
  refine ⟨fun v w h => ?_, List.forall_mem_nil _⟩
  cases h

namespace Graph

theorem ownCount_perm (registry : Registry) {nodes nodes' : List NodeData}
    (h : nodes.Perm nodes') : ownCount registry nodes' = ownCount registry nodes :=
  (h.map _).sum_eq.symm

/-- Variables that no node has are the same on two sides: earlier ones are bound to earlier
    ones, and those of the blackboard are unbound. -/
theorem Placed.other_alike {registry : Registry} {data data' : GraphData} {s₀ s t : Store}
    {g k : Graph} (hg : Placed registry data s₀ g s) (hk : Placed registry data' s₀ k t)
    (hnodes : data.nodes.Perm data'.nodes) (hvars : data'.vars = data.vars) (hclosed : s₀.Closed)
    {V : VarId → VarId → Prop} (hV : ∀ v, v < s₀.vars.cells.size → V v v) (v : VarId)
    (hv : v < s₀.vars.cells.size ∨ s₀.vars.cells.size + ownCount registry data.nodes ≤ v) :
    Option.Rel (Variable.Alike V) (s.vars.find? v) (t.vars.find? v) := by
  obtain ⟨own, hown, hsize⟩ := hg.vars
  obtain ⟨own', hown', hsize'⟩ := hk.vars
  rw [ownCount_perm registry hnodes] at hsize'
  rw [hvars] at hown'
  unfold Variables.find?
  rcases hv with hlt | hle
  · have hold : ∀ us vs : Array Variable, (s₀.vars.cells ++ us ++ vs)[v]? = s₀.vars.cells[v]? := by
      intro us vs
      rw [Array.append_assoc, Array.getElem?_append_left hlt]
    rw [hown, hown', hold, hold]
    obtain ⟨x, hx⟩ : ∃ x, s₀.vars.cells[v]? = some x := ⟨_, Array.getElem?_eq_getElem hlt⟩
    rw [hx]
    refine .some ⟨rfl, ?_⟩
    cases htarget : x.target with
    | none => exact .none
    | some w =>
      have hforwards : s₀.vars.Forwards v w := by
        unfold Variables.Forwards Variables.targetOf Variables.find?
        rw [hx]
        exact htarget
      exact .some (hV w (hclosed.targets v w hforwards))
  · have hbehind : ∀ us vs : Array Variable, us.size = ownCount registry data.nodes →
        (s₀.vars.cells ++ us ++ vs)[v]?
          = vs[v - (s₀.vars.cells.size + ownCount registry data.nodes)]? := by
      intro us vs hus
      have hsizes : (s₀.vars.cells ++ us).size
          = s₀.vars.cells.size + ownCount registry data.nodes := by rw [Array.size_append, hus]
      rw [Array.getElem?_append_right (hsizes.symm ▸ hle), hsizes]
    rw [hown, hown', hbehind own _ hsize, hbehind own' _ hsize', List.getElem?_toArray,
      List.getElem?_map]
    cases data.vars[v - (s₀.vars.cells.size + ownCount registry data.nodes)]? with
    | none => exact .none
    | some d => exact .some (.of_unbound rfl)

/-- The same saved nodes were placed in two orders, both times from one store on. -/
structure Shuffled (registry : Registry) (data data' : GraphData) (s₀ : Store) (g k : Graph)
    (s t : Store) : Prop where
  left : Placed registry data s₀ g s
  right : Placed registry data' s₀ k t
  named : data.Named
  nodes : data.nodes.Perm data'.nodes
  vars : data'.vars = data.vars
  name : data'.name = data.name
  closed : s₀.Closed

namespace Shuffled

variable {registry : Registry} {data data' : GraphData} {s₀ s t : Store} {g k : Graph}

theorem named' (h : Shuffled registry data data' s₀ g k s t) : data'.Named :=
  ⟨(h.nodes.map _).nodup_iff.mp h.named.nodup,
    fun d hd => h.named.nonempty d (h.nodes.mem_iff.mpr hd)⟩

theorem numbered (h : Shuffled registry data data' s₀ g k s t) :
    Numbered s₀.vars.cells.size (ownCount registry data.nodes) g.toNetwork ∧
      Numbered s₀.vars.cells.size (ownCount registry data.nodes) k.toNetwork := by
  refine ⟨h.left.ids, ?_⟩
  rw [← ownCount_perm registry h.nodes]
  exact h.right.ids

/-- The names of one network in terms of the other one's. -/
def names (h : Shuffled registry data data' s₀ g k s t) : Renaming where
  graph := s₀.graphs.size
  node := g.toNetwork.Namesakes k.toNetwork
  var := Counterparts s₀.vars.cells.size (ownCount registry data.nodes) g.toNetwork k.toNetwork
  width a := ((g.node? a).map (·.ports.length)).getD 0
  aside guid := ∃ d ∈ data.nodes, d.guid = guid ∧
    (registry.resolve d).descriptor.path = .dependency
  node_unique := Network.namesakes_unique
  var_unique := counterparts_unique h.numbered.1 h.numbered.2 h.left.sound h.right.sound
  index_iff _ _ _ _ hab hcd := hab.index_iff hcd

/-- Namesakes are live forms of one saved node. -/
theorem namesakes (h : Shuffled registry data data' s₀ g k s t) {a b : NodeHandle}
    (hab : h.names.node a b) : ∃ x y, g.node? a = some x ∧ k.node? b = some y ∧
      ∃ d ∈ data.nodes, (x.Restores registry s.vars d ∧ x.Opens registry data.nodes d) ∧
        y.Restores registry t.vars d ∧ y.Opens registry data'.nodes d := by
  obtain ⟨guid, ha, hb⟩ := hab
  obtain ⟨x, hx, hguid⟩ := g.exists_of_handleOf guid a ha
  obtain ⟨y, hy, hguid'⟩ := k.exists_of_handleOf guid b hb
  obtain ⟨d, hd, hdx⟩ := h.left.saved a x hx
  obtain ⟨e, he, hey⟩ := h.right.saved b y hy
  have hde : d = e := by
    refine List.inj_on_of_nodup_map h.named.nodup hd (h.nodes.mem_iff.mpr he) ?_
    rw [← hdx.1.guid, ← hey.1.guid, hguid, hguid']
  subst hde
  exact ⟨x, y, hx, hy, d, hd, hdx, hey⟩

/-- Every node has a namesake. -/
theorem total (h : Shuffled registry data data' s₀ g k s t) :
    (∀ a x, g.node? a = some x → ∃ b, h.names.node a b) ∧
      ∀ b y, k.node? b = some y → ∃ a, h.names.node a b := by
  constructor
  · intro a x hx
    obtain ⟨d, hd, hdx, _⟩ := h.left.saved a x hx
    obtain ⟨b, y, hy, hdy, _⟩ := h.right.live d (h.nodes.mem_iff.mp hd)
    exact ⟨b, d.guid, h.left.handleOf h.named hx hdx, h.right.handleOf h.named' hy hdy⟩
  · intro b y hy
    obtain ⟨d, hd, hdy, _⟩ := h.right.saved b y hy
    obtain ⟨a, x, hx, hdx, _⟩ := h.left.live d (h.nodes.mem_iff.mpr hd)
    exact ⟨a, d.guid, h.left.handleOf h.named hx hdx, h.right.handleOf h.named' hy hdy⟩

/-- The variables of namesakes have the same fields. -/
theorem vars_alike (h : Shuffled registry data data' s₀ g k s t) {a b : NodeHandle}
    (hab : h.names.node a b) {x y : GraphNode} (hx : g.node? a = some x)
    (hy : k.node? b = some y) {d : NodeData} (hdx : x.Restores registry s.vars d)
    (hdy : y.Restores registry t.vars d) :
    List.Forall₂ (fun e f => f.1 = e.1 ∧ h.names.var e.2 f.2) x.vars y.vars := by
  refine forall₂_of_getElem? ?_ fun i e f he hf => ⟨?_, .own a b x y i e f hab hx hy he hf⟩
  · rw [← hdx.vars.length_eq, ← hdy.vars.length_eq]
  · obtain ⟨v, hv, hve, _⟩ := exists_left_of_forall₂ hdx.vars i e he
    obtain ⟨w, hw, hwf, _⟩ := exists_left_of_forall₂ hdy.vars i f hf
    rw [hv] at hw
    cases hw
    rw [hve, hwf]

/-- The same slots are linked alike where none is linked. -/
theorem alike (h : Shuffled registry data data' s₀ g k s t) {a b : NodeHandle}
    (hab : h.names.node a b) {x y : GraphNode} (hx : g.node? a = some x)
    (hy : k.node? b = some y) : x.Alike h.names h.names.node y ∧
      connected y.records = connected x.records := by
  obtain ⟨x', y', hx', hy', d, hd, ⟨hdx, hox⟩, hdy, hoy⟩ := h.namesakes hab
  rw [hx] at hx'
  rw [hy] at hy'
  cases hx'
  cases hy'
  refine ⟨⟨hdy.guid.trans hdx.guid.symm, hdy.descriptor.trans hdx.descriptor.symm,
    hdy.behavior.trans hdx.behavior.symm, ?_, h.vars_alike hab hx hy hdx hdy⟩, ?_⟩
  · rw [hox.ports_eq hoy h.nodes, hox.laidOut, Layout.portsOf, List.forall₂_map_right_iff,
      List.forall₂_map_left_iff]
    exact List.forall₂_same.mpr fun _ _ => ⟨rfl, .none, .none⟩
  · rw [hox.connected_eq, hoy.connected_eq]

theorem reordered (h : Shuffled registry data data' s₀ g k s t) :
    g.toNetwork.Reordered h.names k.toNetwork := by
  refine ⟨⟨h.left.sound, h.right.sound⟩, h.total, fun a b hab => ?_, fun guid => ?_⟩
  · obtain ⟨x, y, hx, hy, _⟩ := h.namesakes hab
    exact ⟨x, y, hx, hy, h.alike hab hx hy⟩
  · obtain ⟨hright, hleft⟩ := h.total
    cases ha : g.handleOf guid with
    | some a =>
      obtain ⟨x, hx, _⟩ := g.exists_of_handleOf guid a ha
      obtain ⟨b, guid', ha', hb⟩ := hright a x hx
      rw [Network.guid_unique ha ha', hb]
      exact .some ⟨guid', ha', hb⟩
    | none =>
      cases hb : k.handleOf guid with
      | none => exact .none
      | some b =>
        obtain ⟨y, hy, _⟩ := k.exists_of_handleOf guid b hb
        obtain ⟨a, guid', ha', hb'⟩ := hleft b y hy
        rw [Network.guid_unique hb hb', ha'] at ha
        cases ha

/-! ## Section 4: The stores -/

/-- The tables hold the same variables. -/
theorem vars_alike_stores (h : Shuffled registry data data' s₀ g k s t) :
    s.vars.Alike h.names.var t.vars := by
  obtain ⟨own, hown, hsize⟩ := h.left.vars
  obtain ⟨own', hown', hsize'⟩ := h.right.vars
  rw [ownCount_perm registry h.nodes, ← hsize] at hsize'
  refine ⟨?_, fun v w hvw => ?_⟩
  · rw [hown, hown', h.vars]
    simp only [Array.size_append, hsize']
  · cases hvw with
    | own a b x y i e f hab hx hy he hf =>
      -- the variables of namesakes are declared alike
      obtain ⟨x', y', hx', hy', d, _, ⟨hdx, _⟩, hdy, _⟩ := h.namesakes hab
      rw [hx] at hx'
      rw [hy] at hy'
      cases hx'
      cases hy'
      obtain ⟨u, hu, _, hfound⟩ := exists_left_of_forall₂ hdx.vars i e he
      obtain ⟨u', hu', _, hfound'⟩ := exists_left_of_forall₂ hdy.vars i f hf
      rw [hu] at hu'
      cases hu'
      rw [hfound, hfound']
      exact .some (.of_unbound rfl)
    | other _ hv =>
      exact h.left.other_alike h.right h.nodes h.vars h.closed (fun w hw => .other w (.inl hw)) v hv

/-- The stores are open: they have the same cells and variables. -/
theorem open_stores (h : Shuffled registry data data' s₀ g k s t) :
    Store.Open h.names s t := by
  have hs := h.left.works
  have ht := h.right.works
  have hrows : ∀ a b, h.names.node a b → ∃ x, g.node? a = some x ∧ x.LaidOut ∧
      s.row s₀.graphs.size a.index = some x.initialValues.toArray ∧
      t.row s₀.graphs.size b.index = some x.initialValues.toArray := by
    intro a b hab
    obtain ⟨x, y, hx, hy, d, _, ⟨_, hox⟩, _, hoy⟩ := h.namesakes hab
    have hrow := h.left.valued a x hx
    have hrow' := h.right.valued b y hy
    rw [h.left.id] at hrow
    rw [h.right.id, hox.initialValues_eq hoy h.nodes] at hrow'
    exact ⟨x, hx, hox.laidOut, hrow, hrow'⟩
  have hsize : s.graphs.size = s₀.graphs.size + 1 := hs.size.trans (Array.size_push _)
  refine ⟨⟨?_, ?_, ?_, ?_, ?_, h.vars_alike_stores, ?_, ?_, ?_, ?_, ?_, ?_⟩, ?_, ?_, ?_⟩
  · rw [ht.objects, hs.objects]
  · rw [ht.globals, hs.globals]
  · rw [ht.scheduler, hs.scheduler]
  · rw [h.right.guidsMade, h.left.guidsMade]
  · rw [ht.dispatchesMade, hs.dispatchesMade]
  · rw [ht.size, hs.size]
  · intro j hj
    rw [ht.others j (h.right.id ▸ hj), hs.others j (h.left.id ▸ hj)]
  · have hdisposed := ht.disposed
    have hdisposed' := hs.disposed
    rw [h.right.id] at hdisposed
    rw [h.left.id] at hdisposed'
    exact hdisposed.trans hdisposed'.symm
  · intro a b hab
    obtain ⟨x, _, _, hrow, hrow'⟩ := hrows a b hab
    unfold Store.row at hrow hrow'
    unfold Store.rowSize
    exact congrArg (Option.map Array.size) (hrow'.trans hrow.symm)
  · intro a b hab hport
    obtain ⟨x, _, _, hrow, hrow'⟩ := hrows a.node b.node hab
    unfold Store.row at hrow hrow'
    unfold Store.cell
    rw [hport]
    exact congrArg (fun row => (Option.bind row (·[a.port]?)).getD .null) (hrow'.trans hrow.symm)
  · intro a b hab
    obtain ⟨x, hx, hlaid, hrow, _⟩ := hrows a b hab
    have hwidth : h.names.width a = x.initialValues.length := by
      rw [x.length_initialValues, hlaid.laidOut_eq]
      show ((g.node? a).map (·.ports.length)).getD 0 = _
      rw [hx]
      rfl
    unfold Store.row at hrow
    rw [hwidth]
    exact (congrArg (Option.map Array.size) hrow).trans rfl
  · exact hsize ▸ Nat.lt_succ_self _
  · intro v hv
    obtain ⟨own, hown, hcount⟩ := h.left.vars
    refine .other v (.inr (le_trans ?_ hv))
    rw [hown, Array.size_append, Array.size_append, hcount]
    exact Nat.le_add_right _ _
  · intro e he
    rw [hs.globals] at he
    exact .other e.2 (.inl (h.closed.globals e he))

end Shuffled
end Graph
end FlowGraph
