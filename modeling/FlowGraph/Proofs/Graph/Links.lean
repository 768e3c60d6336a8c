import FlowGraph.Graph.Link
import FlowGraph.Proofs.Graph.Placement

/-! # What linking does

    Linking changes links and dependencies and nothing else, and what it makes depends
    only on the network without links (`link_unlinked`, `link_congr`).  Afterwards every
    link into a node comes from the node itself or from one that it depends on
    (`Recorded`), and starts at an output slot (`Sourced`). -/

namespace FlowGraph

/-! ## Section 1: What stays -/

namespace GraphNode

theorem unlinked_modifyPort (x : GraphNode) (i : Nat) (f : Port → Port)
    (hf : ∀ p, (f p).unlinked = p.unlinked) : (x.modifyPort i f).unlinked = x.unlinked := by
  have hports : (x.ports.modify i f).map Port.unlinked = x.ports.map Port.unlinked := by
    apply List.ext_getElem?
    intro j
    rw [List.getElem?_map, List.getElem?_map, List.getElem?_modify]
    by_cases hj : i = j
    · cases x.ports[j]? <;> simp [hj, hf]
    · cases x.ports[j]? <;> simp [hj]
  unfold unlinked modifyPort
  simp only [hports]

theorem unlinked_unlinked (x : GraphNode) : x.unlinked.unlinked = x.unlinked := by
  unfold unlinked
  simp only [List.map_map]
  rfl

end GraphNode

namespace Network

/-- Linking an input records the node at the other end, unless it is the node itself or
    recorded already. -/
theorem linkInput_cases (target : PortAddress) (link : PortLink) (x : GraphNode) :
    (linkInput target link x = x.modifyPort target.port (fun p => { p with link := some link }) ∧
      (link.source.node = target.node ∨ link.source.node ∈ x.dependencies)) ∨
    linkInput target link x
      = { x.modifyPort target.port (fun p => { p with link := some link }) with
          dependencies := x.dependencies ++ [link.source.node] } := by
  unfold linkInput
  dsimp only
  split
  · rename_i h
    simp only [Bool.or_eq_true, decide_eq_true_eq, List.contains_iff_mem] at h
    exact .inl ⟨rfl, h⟩
  · exact .inr rfl

theorem unlinked_linkInput (target : PortAddress) (link : PortLink) (x : GraphNode) :
    (linkInput target link x).unlinked = x.unlinked := by
  have hport : (x.modifyPort target.port fun p => { p with link := some link }).unlinked
      = x.unlinked := x.unlinked_modifyPort _ _ fun _ => rfl
  rcases linkInput_cases target link x with ⟨heq, _⟩ | heq
  · rw [heq]
    exact hport
  · rw [heq]
    exact hport

theorem unlinked_makeLink (n : Network) (link : NewLink) :
    (n.makeLink link).unlinked = n.unlinked := by
  cases link with
  | control source target =>
    unfold unlinked makeLink
    rw [Arena.map_modify]
    intro x
    exact x.unlinked_modifyPort _ _ fun _ => rfl
  | data target link =>
    unfold unlinked makeLink
    rw [Arena.map_modify]
    exact unlinked_linkInput target link

theorem unlinked_makeLinks (n : Network) (links : List NewLink) :
    (n.makeLinks links).1.unlinked = n.unlinked := by
  induction links generalizing n with
  | nil => rfl
  | cons link rest ih =>
    show ((n.makeLink link).makeLinks rest).1.unlinked = n.unlinked
    rw [ih, unlinked_makeLink]

theorem unlinked_unlinked (n : Network) : n.unlinked.unlinked = n.unlinked := by
  unfold unlinked
  rw [Arena.map_map]
  congr 2
  funext x
  exact x.unlinked_unlinked

/-- Linking only changes links and dependencies. -/
theorem link_unlinked (n : Network) (conversions : Conversions) :
    (n.link conversions).1.unlinked = n.unlinked := by
  show (n.unlinked.makeLinks (validLinks (n.unlinked.checkAll conversions))).1.unlinked = n.unlinked
  rw [unlinked_makeLinks, unlinked_unlinked]

/-- What linking makes does not depend on the links that were there. -/
theorem link_congr (n m : Network) (conversions : Conversions) (h : n.unlinked = m.unlinked) :
    n.link conversions = m.link conversions := by
  unfold link
  rw [h]

theorem link_order (n : Network) (conversions : Conversions) :
    (n.link conversions).1.order = n.order := by
  show (n.link conversions).1.unlinked.order = n.unlinked.order
  rw [n.link_unlinked]

theorem link_id (n : Network) (conversions : Conversions) : (n.link conversions).1.id = n.id := by
  show (n.link conversions).1.unlinked.id = n.unlinked.id
  rw [link_unlinked]

theorem link_paths (n : Network) (conversions : Conversions) :
    (n.link conversions).1.paths = n.paths := by
  show (n.link conversions).1.unlinked.paths = n.unlinked.paths
  rw [link_unlinked]

theorem link_blackboard (n : Network) (conversions : Conversions) :
    (n.link conversions).1.blackboard = n.blackboard := by
  show (n.link conversions).1.unlinked.blackboard = n.unlinked.blackboard
  rw [link_unlinked]

/-! ### Nodes and slots -/

theorem node?_unlinked (n : Network) (h : NodeHandle) :
    n.unlinked.node? h = (n.node? h).map GraphNode.unlinked := Arena.get?_map n.nodes h _

/-- Two networks that differ in links only have the same nodes, up to links. -/
theorem node?_of_unlinked_eq {n m : Network} (heq : m.unlinked = n.unlinked) (h : NodeHandle)
    (x : GraphNode) (hx : n.node? h = some x) :
    ∃ y, m.node? h = some y ∧ y.unlinked = x.unlinked := by
  have hnode := m.node?_unlinked h
  rw [heq, n.node?_unlinked, hx, Option.map_some] at hnode
  exact Option.map_eq_some_iff.mp hnode.symm

theorem Sound.of_unlinked_eq {n m : Network} (hn : n.Sound) (heq : m.unlinked = n.unlinked)
    (hm : m.nodes.WellFormed) : m.Sound := by
  have horder : m.unlinked.order = n.unlinked.order := by rw [heq]
  refine hn.congr hm horder fun h => ⟨?_, ?_⟩
  · rintro ⟨y, hy⟩
    obtain ⟨x, hx, _⟩ := node?_of_unlinked_eq heq.symm h y hy
    exact ⟨x, hx⟩
  · rintro ⟨x, hx⟩
    obtain ⟨y, hy, _⟩ := node?_of_unlinked_eq heq h x hx
    exact ⟨y, hy⟩

theorem port?_eq_some_iff (n : Network) (a : PortAddress) (p : Port) :
    n.port? a = some p ↔ ∃ x, n.node? a.node = some x ∧ x.ports[a.port]? = some p :=
  Option.bind_eq_some_iff

/-- A slot of one network is a slot of the other, up to its links. -/
theorem port?_of_unlinked_eq {n m : Network} (heq : m.unlinked = n.unlinked) (a : PortAddress)
    (p : Port) (hp : n.port? a = some p) : ∃ q, m.port? a = some q ∧ q.unlinked = p.unlinked := by
  obtain ⟨x, hx, hget⟩ := (n.port?_eq_some_iff a p).mp hp
  obtain ⟨y, hy, hxy⟩ := node?_of_unlinked_eq heq a.node x hx
  have hports : y.ports.map Port.unlinked = x.ports.map Port.unlinked :=
    congrArg GraphNode.ports hxy
  have hmap : (y.ports[a.port]?).map Port.unlinked = some p.unlinked := by
    rw [← List.getElem?_map, hports, List.getElem?_map, hget, Option.map_some]
  obtain ⟨q, hq, hqp⟩ := Option.map_eq_some_iff.mp hmap
  exact ⟨q, (m.port?_eq_some_iff a q).mpr ⟨y, hy, hq⟩, hqp⟩

theorem makeLink_wellFormed (n : Network) (link : NewLink) (hn : n.nodes.WellFormed) :
    (n.makeLink link).nodes.WellFormed := by
  cases link with
  | control source target => exact Arena.modify_wellFormed _ _ _ hn
  | data target link => exact Arena.modify_wellFormed _ _ _ hn

theorem makeLinks_wellFormed (n : Network) (links : List NewLink) (hn : n.nodes.WellFormed) :
    (n.makeLinks links).1.nodes.WellFormed := by
  induction links generalizing n with
  | nil => exact hn
  | cons link rest ih => exact ih (n.makeLink link) (n.makeLink_wellFormed link hn)

theorem link_sound (n : Network) (conversions : Conversions) (hn : n.Sound) :
    (n.link conversions).1.Sound :=
  hn.of_unlinked_eq (n.link_unlinked conversions)
    (makeLinks_wellFormed _ _ (Arena.map_wellFormed _ _ hn.arena))

/-! ## Section 2: Links are recorded as dependencies -/

/-- A link into a node comes from the node itself or from one that it depends on. -/
def Recorded (n : Network) : Prop :=
  ∀ h x, n.node? h = some x → ∀ p ∈ x.ports, ∀ link, p.link = some link →
    link.source.node = h ∨ link.source.node ∈ x.dependencies

theorem recorded_unlinked (n : Network) : n.unlinked.Recorded := by
  intro h x hx p hp link hlink
  rw [node?_unlinked] at hx
  obtain ⟨y, _, rfl⟩ := Option.map_eq_some_iff.mp hx
  obtain ⟨q, _, rfl⟩ := List.mem_map.mp hp
  cases hlink

theorem mem_modify (xs : List Port) (i : Nat) (f : Port → Port) (p : Port)
    (hp : p ∈ xs.modify i f) : p ∈ xs ∨ ∃ q ∈ xs, p = f q := by
  obtain ⟨j, hj⟩ := List.mem_iff_getElem?.mp hp
  rw [List.getElem?_modify] at hj
  obtain ⟨q, hq, hpq⟩ := Option.map_eq_some_iff.mp hj
  have hmem := List.mem_of_getElem? hq
  by_cases hij : i = j
  · exact .inr ⟨q, hmem, by simpa [hij] using hpq.symm⟩
  · left
    simp only [if_neg hij] at hpq
    rw [← hpq]
    exact hmem

theorem mem_dependencies_linkInput (target : PortAddress) (link : PortLink) (x : GraphNode)
    (k : NodeHandle) (hk : k ∈ x.dependencies) : k ∈ (linkInput target link x).dependencies := by
  rcases linkInput_cases target link x with ⟨heq, _⟩ | heq
  · rw [heq]
    exact hk
  · rw [heq]
    exact List.mem_append_left _ hk

/-- The node at the other end is recorded, unless it is the node itself. -/
theorem source_mem_linkInput (target : PortAddress) (link : PortLink) (x : GraphNode) :
    link.source.node = target.node ∨
      link.source.node ∈ (linkInput target link x).dependencies := by
  rcases linkInput_cases target link x with ⟨heq, hsource⟩ | heq
  · rw [heq]
    exact hsource
  · rw [heq]
    exact .inr (List.mem_append_right _ (List.mem_singleton_self _))

theorem ports_linkInput (target : PortAddress) (link : PortLink) (x : GraphNode) :
    (linkInput target link x).ports
      = x.ports.modify target.port fun p => { p with link := some link } := by
  rcases linkInput_cases target link x with ⟨heq, _⟩ | heq
  · rw [heq]
    rfl
  · rw [heq]
    rfl

/-- After a new link a node has the dependencies that it had; its links were there before,
    or it is the one that the new link goes into. -/
theorem makeLink_node (n : Network) (link : NewLink) (h : NodeHandle) (y : GraphNode)
    (hy : (n.makeLink link).node? h = some y) :
    ∃ x, n.node? h = some x ∧ (∀ k ∈ x.dependencies, k ∈ y.dependencies) ∧
      ∀ p ∈ y.ports, ∀ l, p.link = some l → (∃ q ∈ x.ports, q.link = some l) ∨
        ∃ target, link = .data target l ∧ (l.source.node = h ∨ l.source.node ∈ y.dependencies) := by
  cases link with
  | control source target =>
    have hget : (n.makeLink (.control source target)).node? h = _ := Arena.get?_modify ..
    rw [hget] at hy
    by_cases hh : h = source.node
    · rw [if_pos hh, ← hh] at hy
      obtain ⟨x, hx, rfl⟩ := Option.map_eq_some_iff.mp hy
      refine ⟨x, hx, fun k hk => hk, fun p hp l hl => ?_⟩
      rcases mem_modify _ _ _ _ hp with hold | ⟨q, hold, rfl⟩
      · exact .inl ⟨p, hold, hl⟩
      · exact .inl ⟨q, hold, hl⟩
    · rw [if_neg hh] at hy
      exact ⟨y, hy, fun k hk => hk, fun p hp l hl => .inl ⟨p, hp, hl⟩⟩
  | data target link =>
    have hget : (n.makeLink (.data target link)).node? h = _ := Arena.get?_modify ..
    rw [hget] at hy
    by_cases hh : h = target.node
    · -- the link goes into this node
      rw [if_pos hh, ← hh] at hy
      obtain ⟨x, hx, rfl⟩ := Option.map_eq_some_iff.mp hy
      refine ⟨x, hx, mem_dependencies_linkInput target link x, ?_⟩
      intro p hp l hl
      rw [ports_linkInput] at hp
      rcases mem_modify _ _ _ _ hp with hold | ⟨q, _, rfl⟩
      · exact .inl ⟨p, hold, hl⟩
      · cases hl
        rw [hh]
        exact .inr ⟨target, rfl, source_mem_linkInput target _ x⟩
    · rw [if_neg hh] at hy
      exact ⟨y, hy, fun k hk => hk, fun p hp l hl => .inl ⟨p, hp, hl⟩⟩

theorem recorded_makeLink (n : Network) (link : NewLink) (hn : n.Recorded) :
    (n.makeLink link).Recorded := by
  intro h y hy p hp l hl
  obtain ⟨x, hx, hdependencies, hlinks⟩ := n.makeLink_node link h y hy
  rcases hlinks p hp l hl with ⟨q, hq, hql⟩ | ⟨_, _, hsource⟩
  · exact (hn h x hx q hq l hql).imp_right (hdependencies l.source.node)
  · exact hsource

theorem recorded_makeLinks (n : Network) (links : List NewLink) (hn : n.Recorded) :
    (n.makeLinks links).1.Recorded := by
  induction links generalizing n with
  | nil => exact hn
  | cons link rest ih => exact ih (n.makeLink link) (n.recorded_makeLink link hn)

theorem link_recorded (n : Network) (conversions : Conversions) :
    (n.link conversions).1.Recorded :=
  recorded_makeLinks _ _ n.recorded_unlinked

/-! ## Section 3: Links come from outputs -/

/-- A slot that links can start at. -/
def IsOutput (n : Network) (a : PortAddress) : Prop :=
  ∃ q, n.port? a = some q ∧ q.direction = .output

/-- Every link starts at an output slot of some network. -/
def SourcedIn (n base : Network) : Prop :=
  ∀ h x, n.node? h = some x → ∀ p ∈ x.ports, ∀ link, p.link = some link →
    base.IsOutput link.source

/-- Every link starts at an output slot. -/
def Sourced (n : Network) : Prop := n.SourcedIn n

theorem sourcedIn_unlinked (n base : Network) : n.unlinked.SourcedIn base := by
  intro h x hx p hp link hlink
  rw [node?_unlinked] at hx
  obtain ⟨y, _, rfl⟩ := Option.map_eq_some_iff.mp hx
  obtain ⟨q, _, rfl⟩ := List.mem_map.mp hp
  cases hlink

theorem sourcedIn_makeLinks (n base : Network) (links : List NewLink) (hn : n.SourcedIn base)
    (hlinks : ∀ target l, NewLink.data target l ∈ links → base.IsOutput l.source) :
    (n.makeLinks links).1.SourcedIn base := by
  induction links generalizing n with
  | nil => exact hn
  | cons link rest ih =>
    refine ih (n.makeLink link) ?_ fun target l hl => hlinks target l (List.mem_cons_of_mem _ hl)
    intro h y hy p hp l hl
    obtain ⟨x, hx, _, hold⟩ := n.makeLink_node link h y hy
    rcases hold p hp l hl with ⟨q, hq, hql⟩ | ⟨target, rfl, _⟩
    · exact hn h x hx q hq l hql
    · exact hlinks target l List.mem_cons_self

/-- A valid data connection starts at the slot that its record names. -/
theorem checkConnection_source (n : Network) (conversions : Conversions) (x : GraphNode)
    (address : PortAddress) (output : Port) (c : PortConnection) (target : PortAddress)
    (l : PortLink) (hcheck : n.checkConnection conversions x address output c
      = some (.ok (.data target l))) : l.source = address := by
  unfold checkConnection at hcheck
  cases hh : n.handleOf c.nodeGuid with
  | none =>
    rw [hh] at hcheck
    cases hcheck
  | some h =>
    rw [hh] at hcheck
    obtain ⟨y, _, hy⟩ := Option.map_eq_some_iff.mp hcheck
    split at hy
    · cases hy
    · split at hy
      · cases hy
      · split at hy
        · cases hy
        · split at hy
          · cases hy
          · cases hy
            rfl

/-- It is an output slot of the record's node. -/
theorem checkRecord_source (n : Network) (conversions : Conversions) (h : NodeHandle)
    (x : GraphNode) (r : PortData) (target : PortAddress) (l : PortLink)
    (hmem : .ok (.data target l) ∈ n.checkRecord conversions h x r) :
    l.source.node = h ∧ ∃ q, x.ports[l.source.port]? = some q ∧ q.direction = .output := by
  unfold checkRecord at hmem
  split at hmem
  · cases hmem
  · split at hmem
    · cases List.mem_singleton.mp hmem
    · split at hmem
      · cases List.mem_singleton.mp hmem
      · split at hmem
        · cases List.mem_singleton.mp hmem
        · rename_i i _ output hget hdirection
          obtain ⟨c, _, hc⟩ := List.mem_filterMap.mp hmem
          rw [checkConnection_source n conversions x _ output c target l hc]
          exact ⟨rfl, output, hget, by simpa using hdirection⟩

/-- Links are made at output slots, and linking does not change what is an output. -/
theorem link_sourced (n : Network) (conversions : Conversions) :
    (n.link conversions).1.Sourced := by
  -- the checks look at the network without links
  have hbase : (n.link conversions).1.SourcedIn n.unlinked := by
    refine sourcedIn_makeLinks _ _ _ (n.sourcedIn_unlinked _) fun target l hl => ?_
    unfold validLinks at hl
    obtain ⟨checked, hchecked, hok⟩ := List.mem_filterMap.mp hl
    cases checked with
    | error e => cases hok
    | ok link =>
      cases hok
      obtain ⟨⟨h, x⟩, hplaced, hrecords⟩ := List.mem_flatMap.mp hchecked
      obtain ⟨r, _, hr⟩ := List.mem_flatMap.mp hrecords
      obtain ⟨hnode, q, hq, hdirection⟩ := checkRecord_source _ _ h x r target l hr
      have hx := node?_of_mem_placed _ h x hplaced
      rw [← hnode] at hx
      exact ⟨q, (port?_eq_some_iff _ l.source q).mpr ⟨x, hx, hq⟩, hdirection⟩
  intro h x hx p hp l hl
  obtain ⟨q, hq, hdirection⟩ := hbase h x hx p hp l hl
  obtain ⟨q', hq', heq⟩ := port?_of_unlinked_eq (m := (n.link conversions).1)
    (by rw [n.link_unlinked, n.unlinked_unlinked]) l.source q hq
  refine ⟨q', hq', ?_⟩
  have hsame : q'.unlinked.direction = q.unlinked.direction := by rw [heq]
  exact hsame.trans hdirection

end Network
end FlowGraph
