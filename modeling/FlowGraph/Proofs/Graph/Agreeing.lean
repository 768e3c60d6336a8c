import FlowGraph.Proofs.Graph.Building
import FlowGraph.Proofs.Graph.Matching

/-! # Graphs that agree

    What can be seen of a graph by names and guids: the slots of its nodes with their links
    and successors, the dependencies, the dependency paths, and the same of its functions
    (`Graph.view`).  Handles and positions of slots are left out of it.

    Two graphs whose networks are alike, level by level, are compiled with the same result, and
    look the same if that succeeds (`Represents.compiledView_alike`). -/

namespace FlowGraph

/-! ## Section 1: Views -/

/-- A slot by its name. -/
structure SlotView where
  name : String
  index : Nat
  /-- The slot at the other end of a link, by guid, name and index, and how values are
      carried. -/
  source : Option (Option (String × String × Nat) × Compatibility)
  /-- The guid of the successor at a linked control output. -/
  successor : Option (Option String)

/-- A node by its guid. -/
structure NodeView where
  guid : String
  slots : List SlotView
  dependencies : List (Option String)
  path : Except GraphError (List (Option String))

/-- The nodes of a graph as they were added, and its functions. -/
structure GraphView where
  nodes : List NodeView
  functions : List (String × GraphView)

namespace Network

/-- The guid of a handle. -/
def guidOf (n : Network) (h : NodeHandle) : Option String := (n.node? h).map (·.guid)

/-- The slot at an address, by guid, name and index. -/
def slotOf (n : Network) (a : PortAddress) : Option (String × String × Nat) :=
  (n.node? a.node).bind fun x => (x.ports[a.port]?).map fun p => (x.guid, p.name, p.index)

/-- What is seen of a slot. -/
def viewSlot (n : Network) (p : Port) : SlotView where
  name := p.name
  index := p.index
  source := p.link.map fun l => (n.slotOf l.source, l.compatibility)
  successor := p.target.map n.guidOf

/-- What is seen of a node. -/
def viewNode (n : Network) (h : NodeHandle) (x : GraphNode) : NodeView where
  guid := x.guid
  slots := x.ports.map n.viewSlot
  dependencies := x.dependencies.map n.guidOf
  path := (n.dependencyPath h).map (·.map n.guidOf)

/-- What is seen of a network. -/
def view (n : Network) : List NodeView := n.placed.map fun e => n.viewNode e.1 e.2

/-- What is seen of the slots and the dependencies, whether there are paths or not. -/
def wires (n : Network) : List (String × List SlotView × List (Option String)) :=
  n.placed.map fun e => (e.2.guid, e.2.ports.map n.viewSlot, e.2.dependencies.map n.guidOf)

end Network

namespace Graph

mutual

/-- What is seen of a graph. -/
def view : Graph → GraphView
  | ⟨network, _, functions, _⟩ => ⟨network.view, functionsView functions⟩

/-- What is seen of each function. -/
def functionsView : List (String × Graph) → List (String × GraphView)
  | [] => []
  | (name, f) :: rest => (name, f.view) :: functionsView rest

end

/-- The error of a compilation, or else what is seen of what was compiled. -/
def seen {α β : Type} (view : α → β) (compiled : α × Except GraphError Unit) :
    Except GraphError β := compiled.2.map fun _ => view compiled.1

/-- The result of compiling a graph, with what is then seen of the graph. -/
def compiledView (conversions : Conversions) (g : Graph) (s : Store) :
    Except GraphError GraphView :=
  seen view (g.compile conversions s).1

end Graph

/-! ## Section 2: Networks that match look the same -/

namespace Network

variable {n m : Network}

namespace Matches

theorem guidOf (h : n.Matches (n.Twins m) m) (hn : n.Sound) (hm : m.Sound) (a b : NodeHandle)
    (hab : n.Twins m a b) : m.guidOf b = n.guidOf a := by
  obtain ⟨x, y, hx, hy, hxy⟩ := h.node hn hm a b hab
  unfold Network.guidOf
  rw [hx, hy, Option.map_some, Option.map_some, hxy.guid]

theorem slotOf (h : n.Matches (n.Twins m) m) (hn : n.Sound) (hm : m.Sound) (a b : PortAddress)
    (hab : n.Twins m a.node b.node) (hport : b.port = a.port) : m.slotOf b = n.slotOf a := by
  obtain ⟨x, y, hx, hy, hxy⟩ := h.node hn hm a.node b.node hab
  have hget := rel_getElem? hxy.ports a.port
  unfold Network.slotOf
  rw [hx, hy, Option.bind_some, Option.bind_some, hport, hxy.guid]
  generalize x.ports[a.port]? = p, y.ports[a.port]? = q at hget
  cases hget with
  | none => rfl
  | some hpq =>
    rw [Option.map_some, Option.map_some, hpq.same Port.name fun _ => rfl,
      hpq.same Port.index fun _ => rfl]

theorem viewSlot (h : n.Matches (n.Twins m) m) (hn : n.Sound) (hm : m.Sound) (p q : Port)
    (hpq : p.Matches (n.Twins m) q) : m.viewSlot q = n.viewSlot p := by
  have hsource : (q.link.map fun l => (m.slotOf l.source, l.compatibility))
      = p.link.map fun l => (n.slotOf l.source, l.compatibility) := by
    have hlink := hpq.link
    generalize p.link = link, q.link = link' at hlink
    cases hlink with
    | none => rfl
    | some hl =>
      rw [Option.map_some, Option.map_some, h.slotOf hn hm _ _ hl.node hl.port, hl.compatibility]
  have hsuccessor : q.target.map m.guidOf = p.target.map n.guidOf := by
    have htarget := hpq.target
    generalize p.target = target, q.target = target' at htarget
    cases htarget with
    | none => rfl
    | some hab => rw [Option.map_some, Option.map_some, h.guidOf hn hm _ _ hab]
  unfold Network.viewSlot
  rw [hsource, hsuccessor, hpq.same Port.name fun _ => rfl, hpq.same Port.index fun _ => rfl]

theorem length_order (h : n.Matches (n.Twins m) m) (hn : n.Sound) (hm : m.Sound) :
    n.order.length = m.order.length := by
  rw [← n.map_fst_placed hn, ← m.map_fst_placed hm, List.length_map, List.length_map]
  exact h.length_eq

/-- The nodes at some positions have the same guids. -/
theorem guidsAt (h : n.Matches (n.Twins m) m) (hn : n.Sound) (hm : m.Sound) (positions : List Nat) :
    (positions.filterMap m.handleAt).map m.guidOf = (positions.filterMap n.handleAt).map n.guidOf := by
  rw [List.map_filterMap, List.map_filterMap]
  apply congrArg (List.filterMap · positions)
  funext i
  unfold handleAt
  cases ha : n.order[i]? with
  | none =>
    rw [List.getElem?_eq_none_iff, h.length_order hn hm] at ha
    rw [List.getElem?_eq_none_iff.mpr ha]
    rfl
  | some a =>
    have hi := (List.getElem?_eq_some_iff.mp ha).1
    have hb := List.getElem?_eq_getElem (h.length_order hn hm ▸ hi)
    rw [hb, Option.map_some, Option.map_some, h.guidOf hn hm _ _ ⟨i, ha, hb⟩]

theorem dependencyPath (h : n.Matches (n.Twins m) m) (hn : n.Sound) (hm : m.Sound)
    (paths : List (List Nat)) (hpaths : n.paths = some paths) (hpaths' : m.paths = some paths)
    (a b : NodeHandle) (hab : n.Twins m a b) :
    (m.dependencyPath b).map (·.map m.guidOf) = (n.dependencyPath a).map (·.map n.guidOf) := by
  obtain ⟨i, ha, hb⟩ := hab
  unfold Network.dependencyPath
  simp only [hpaths, hpaths', (n.indexOf_eq_some_iff hn a i).mpr ha,
    (m.indexOf_eq_some_iff hm b i).mpr hb, Except.map, h.guidsAt hn hm]

theorem slots_eq (h : n.Matches (n.Twins m) m) (hn : n.Sound) (hm : m.Sound) (x y : GraphNode)
    (hxy : x.Matches (n.Twins m) y) : y.ports.map m.viewSlot = x.ports.map n.viewSlot ∧
      y.dependencies.map m.guidOf = x.dependencies.map n.guidOf :=
  ⟨(map_eq_of_forall₂ (hxy.ports.imp fun p q hpq => (h.viewSlot hn hm p q hpq).symm)).symm,
    (map_eq_of_forall₂ (hxy.dependencies.imp fun a b hab =>
      (h.guidOf hn hm a b hab).symm)).symm⟩

theorem wires (h : n.Matches (n.Twins m) m) (hn : n.Sound) (hm : m.Sound) :
    m.wires = n.wires := by
  refine (map_eq_of_forall₂ (h.imp fun e f ⟨_, hxy⟩ => ?_)).symm
  obtain ⟨hslots, hdependencies⟩ := h.slots_eq hn hm e.2 f.2 hxy
  rw [hslots, hdependencies, hxy.guid]

/-- Networks that match look the same once their paths are the same. -/
theorem view (h : n.Matches (n.Twins m) m) (hn : n.Sound) (hm : m.Sound)
    (paths : List (List Nat)) (hpaths : n.paths = some paths) (hpaths' : m.paths = some paths) :
    m.view = n.view := by
  refine (map_eq_of_forall₂ (h.imp fun e f ⟨hab, hxy⟩ => ?_)).symm
  obtain ⟨hslots, hdependencies⟩ := h.slots_eq hn hm e.2 f.2 hxy
  unfold viewNode
  rw [hslots, hdependencies, hxy.guid, h.dependencyPath hn hm paths hpaths hpaths' _ _ hab]

end Matches

/-! ## Section 3: Networks that are compiled alike -/

/-- Without their links, two networks match; and neither has paths yet. -/
structure Alike (n m : Network) : Prop where
  unlinked : n.unlinked.Matches (n.Twins m) m.unlinked
  sound : n.Sound ∧ m.Sound
  distinct : n.Distinct ∧ m.Distinct
  paths : n.paths = none ∧ m.paths = none

theorem Sound.unlinked (hn : n.Sound) : n.unlinked.Sound :=
  hn.of_unlinked_eq n.unlinked_unlinked (Arena.map_wellFormed _ _ hn.arena)

theorem Distinct.unlinked (hn : n.Distinct) : n.unlinked.Distinct := by
  intro h k x' y' hx' hy' hguid
  rw [node?_unlinked] at hx' hy'
  obtain ⟨x, hx, rfl⟩ := Option.map_eq_some_iff.mp hx'
  obtain ⟨y, hy, rfl⟩ := Option.map_eq_some_iff.mp hy'
  exact hn h k x y hx hy hguid

/-- Networks that are alike are linked alike. -/
theorem Alike.link (h : n.Alike m) (conversions : Conversions) : (n.link conversions).1.Matches
    ((n.link conversions).1.Twins (m.link conversions).1) (m.link conversions).1 := by
  have hlink := Matches.link h.unlinked h.sound.1.unlinked h.sound.2.unlinked
    h.distinct.1.unlinked h.distinct.2.unlinked conversions
  unfold Twins at hlink ⊢
  rw [link_order, link_order]
  exact hlink

/-- Networks that are alike have the same cycle, or look the same once their paths are found. -/
theorem Alike.findPaths (h : n.Alike m) (conversions : Conversions) :
    (Graph.findPaths (m.link conversions).1).map view
      = (Graph.findPaths (n.link conversions).1).map view := by
  have hn := n.link_sound conversions h.sound.1
  have hm := m.link_sound conversions h.sound.2
  have hmatches := h.link conversions
  -- dependencies are numbers of positions, so that their paths are the same
  have hdependencies := hmatches.dependencies hn hm
  have hnone := (n.link_paths conversions).trans h.paths.1
  have hnone' := (m.link_paths conversions).trans h.paths.2
  obtain ⟨n', hn'⟩ : ∃ n', (n.link conversions).1 = n' := ⟨_, rfl⟩
  obtain ⟨m', hm'⟩ : ∃ m', (m.link conversions).1 = m' := ⟨_, rfl⟩
  rw [hn'] at hn hmatches hdependencies hnone ⊢
  rw [hm'] at hm hmatches hdependencies hnone' ⊢
  unfold Graph.findPaths
  rw [hnone, hnone']
  dsimp only
  rw [hdependencies]
  cases hpaths : n'.dependencies.paths with
  | error e => rfl
  | ok paths =>
    have hfound : Matches (Twins { n' with paths := some paths } { m' with paths := some paths })
        { n' with paths := some paths } { m' with paths := some paths } := hmatches
    exact congrArg Except.ok (hfound.view ⟨hn.arena, hn.nodup_order, hn.mem_order_iff⟩
      ⟨hm.arena, hm.nodup_order, hm.mem_order_iff⟩ paths rfl rfl)

end Network

/-! ## Section 4: Graphs that are compiled alike -/

namespace Graph

theorem seen_compileFunctions_cons (conversions : Conversions) (graph name : String) (f : Graph)
    (rest : List (String × Graph)) (s : Store) :
    seen functionsView (compileFunctions conversions graph ((name, f) :: rest) s).1
      = (f.compiledView conversions s).bind fun v =>
        (seen functionsView (compileFunctions conversions graph rest (f.compile conversions s).2).1).map
          ((name, v) :: ·) := by
  obtain ⟨f', result, t, hf⟩ : ∃ f' result t, f.compile conversions s = ((f', result), t) :=
    ⟨_, _, _, rfl⟩
  obtain ⟨fs, more, u, hrest⟩ : ∃ fs more u,
      compileFunctions conversions graph rest t = ((fs, more), u) := ⟨_, _, _, rfl⟩
  have hview : f.compiledView conversions s = seen view (f', result) := by
    unfold compiledView
    rw [hf]
  have hlater : (f.compile conversions s).2 = t := by rw [hf]
  rw [hview, hlater, hrest]
  unfold compileFunctions
  simp only [bind, StateT.bind, hf]
  cases result with
  | error e => rfl
  | ok _ =>
    simp only [StateT.bind, hrest]
    cases more with
    | error e => rfl
    | ok _ => rfl

/-- A graph is linked, then its paths are found, then its functions are compiled. -/
theorem compiledView_eq (conversions : Conversions) (g : Graph) (s : Store) :
    ∃ graph t, g.compiledView conversions s
      = ((findPaths (g.link conversions).1).map Network.view).bind fun nodes =>
        (seen functionsView (compileFunctions conversions graph g.functions t).1).map
          (GraphView.mk nodes) := by
  obtain ⟨network, groups, functions, compiled⟩ := g
  obtain ⟨t, ht⟩ : ∃ t, prepare conversions network s
      = (((network.link conversions).1, (network.link conversions).2.1), t) := ⟨_, rfl⟩
  unfold compiledView compile
  simp only [bind, StateT.bind, ht]
  cases findPaths (network.link conversions).1 with
  | error e => exact ⟨"", t, rfl⟩
  | ok n =>
    obtain ⟨fs, result, u, hfunctions⟩ : ∃ fs result u,
        compileFunctions conversions n.name functions t = ((fs, result), u) := ⟨_, _, _, rfl⟩
    refine ⟨n.name, t, ?_⟩
    simp only [StateT.bind, hfunctions]
    cases result with
    | error e => rfl
    | ok _ => rfl

/-- Functions that are compiled alike one by one are so together. -/
theorem compileFunctions_alike (conversions : Conversions) (graph graph' : String)
    (functions functions' : List (String × Graph)) (s t : Store)
    (h : List.Forall₂ (fun e f => f.1 = e.1 ∧
      ∀ s t, f.2.compiledView conversions t = e.2.compiledView conversions s) functions functions') :
    seen functionsView (compileFunctions conversions graph' functions' t).1
      = seen functionsView (compileFunctions conversions graph functions s).1 := by
  induction h generalizing s t with
  | nil => rfl
  | @cons e f functions functions' hfirst _ ih =>
    obtain ⟨name, e⟩ := e
    obtain ⟨_, f⟩ := f
    obtain ⟨rfl, hview⟩ := hfirst
    rw [seen_compileFunctions_cons, seen_compileFunctions_cons, hview s t,
      ih (e.compile conversions s).2 (f.compile conversions t).2]

/-- Graphs that represent one saved graph, with networks that are linked alike, are compiled with
    the same result, and look the same then. -/
theorem Represents.compiledView_congr {R : GraphData → Network → Prop} {data : GraphData}
    {g k : Graph} (hg : g.Represents R data) (hk : k.Represents R data)
    (conversions : Conversions) (hR : ∀ d n m, R d n → R d m →
      (findPaths (m.link conversions).1).map Network.view
        = (findPaths (n.link conversions).1).map Network.view) (s t : Store) :
    k.compiledView conversions t = g.compiledView conversions s := by
  induction hg generalizing k s t with
  | intro data g network names functions ih =>
    obtain ⟨hnetwork, hk_functions⟩ := (represents_iff data k).mp hk
    have hg_functions := ((represents_iff data g).mp (.intro data g network names functions)).2
    have hall : List.Forall₂ (fun e f => f.1 = e.1 ∧
        ∀ s t, f.2.compiledView conversions t = e.2.compiledView conversions s)
        g.functions k.functions := by
      refine forall₂_of_getElem? (hg_functions.length_eq.symm.trans hk_functions.length_eq)
        fun i e f he hf => ?_
      obtain ⟨d, hd, hde⟩ := exists_left_of_forall₂ hg_functions i e he
      obtain ⟨d', hd', hdf⟩ := exists_left_of_forall₂ hk_functions i f hf
      rw [hd] at hd'
      cases hd'
      exact ⟨hdf.1.trans hde.1.symm, fun s t => ih i d e hd he hdf.2 s t⟩
    obtain ⟨graph, s', hs⟩ := g.compiledView_eq conversions s
    obtain ⟨graph', t', ht⟩ := k.compiledView_eq conversions t
    rw [hs, ht, hR data _ _ network hnetwork,
      compileFunctions_alike conversions graph graph' _ _ s' t' hall]

theorem Represents.compiledView_alike {R : GraphData → Network → Prop} {data : GraphData}
    {g k : Graph} (hg : g.Represents R data) (hk : k.Represents R data)
    (hR : ∀ d n m, R d n → R d m → n.Alike m) (conversions : Conversions) (s t : Store) :
    k.compiledView conversions t = g.compiledView conversions s :=
  hg.compiledView_congr hk conversions
    (fun d n m hn hm => (hR d n m hn hm).findPaths conversions) s t

end Graph

end FlowGraph
