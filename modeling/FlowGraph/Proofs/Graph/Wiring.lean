import FlowGraph.Proofs.Graph.Editing

/-! # What linking looks at

    Linking reads the connections of the records and nothing else of them: two networks
    with the same `wiring` are linked alike (`link_dependencies_congr`).  Constants, records
    without connections, known paths and the links that were there are left out of it. -/

namespace FlowGraph

/-! ## Section 1: Wiring -/

/-- The records that have connections, without their constants. -/
def connected (records : List PortData) : List PortData :=
  (records.filter fun r => !r.connections.isEmpty).map fun r => { r with value := none }

/-- The node as linking sees it. -/
def GraphNode.wiring (x : GraphNode) : GraphNode := { x with records := connected x.records }

namespace Network

/-- The network as linking sees it, up to links. -/
def wiring (n : Network) : Network :=
  { n with nodes := n.nodes.map GraphNode.wiring, paths := none }

theorem node?_wiring (n : Network) (h : NodeHandle) :
    n.wiring.node? h = (n.node? h).map GraphNode.wiring := Arena.get?_map n.nodes h _

theorem handleOf_wiring (n : Network) (guid : String) :
    n.wiring.handleOf guid = n.handleOf guid := by
  unfold handleOf wiring
  simp only [Arena.toList_map, List.find?_map, Option.map_map]
  rfl

theorem placed_wiring (n : Network) :
    n.wiring.placed = n.placed.map fun e => (e.1, e.2.wiring) := by
  unfold placed
  rw [List.map_filterMap]
  apply List.filterMap_congr
  intro h _
  rw [node?_wiring]
  cases n.node? h with
  | none => rfl
  | some x => rfl

theorem dependencies_wiring (n : Network) : n.wiring.dependencies = n.dependencies := by
  apply dependencies_congr n n.wiring rfl
  rw [placed_wiring, List.map_map]
  rfl

theorem wiring_unlinked (n : Network) : n.unlinked.wiring = n.wiring.unlinked := by
  unfold wiring unlinked
  simp only [Arena.map_map]
  rfl

/-! ## Section 2: Checking -/

theorem checkConnection_wiring (n : Network) (conversions : Conversions) (x : GraphNode)
    (address : PortAddress) (output : Port) (c : PortConnection) :
    n.wiring.checkConnection conversions x.wiring address output c
      = n.checkConnection conversions x address output c := by
  unfold checkConnection
  rw [handleOf_wiring]
  cases n.handleOf c.nodeGuid with
  | none => rfl
  | some h =>
    simp only [node?_wiring, Option.map_map]
    rfl

theorem checkRecord_wiring (n : Network) (conversions : Conversions) (h : NodeHandle)
    (x : GraphNode) (r : PortData) :
    n.wiring.checkRecord conversions h x.wiring { r with value := none }
      = n.checkRecord conversions h x r := by
  unfold checkRecord
  simp only [checkConnection_wiring]
  rfl

theorem checkRecord_empty (n : Network) (conversions : Conversions) (h : NodeHandle)
    (x : GraphNode) (r : PortData) (hr : r.connections.isEmpty = true) :
    n.checkRecord conversions h x r = [] := by
  unfold checkRecord
  rw [if_pos hr]

theorem checkRecords_wiring (n : Network) (conversions : Conversions) (h : NodeHandle)
    (x : GraphNode) (records : List PortData) :
    (connected records).flatMap (n.wiring.checkRecord conversions h x.wiring)
      = records.flatMap (n.checkRecord conversions h x) := by
  induction records with
  | nil => rfl
  | cons r rest ih =>
    rw [List.flatMap_cons, ← ih]
    by_cases hr : r.connections.isEmpty = true
    · rw [checkRecord_empty n conversions h x r hr]
      simp [connected, hr]
    · rw [← checkRecord_wiring]
      simp [connected, hr]

/-- Which connections are valid depends on the wiring only. -/
theorem checkAll_wiring (n : Network) (conversions : Conversions) :
    n.wiring.checkAll conversions = n.checkAll conversions := by
  unfold checkAll
  rw [placed_wiring, List.flatMap_map]
  congr
  funext e
  exact checkRecords_wiring n conversions e.1 e.2 e.2.records

/-! ## Section 3: Making links -/

theorem linkInput_wiring (target : PortAddress) (link : PortLink) (x : GraphNode) :
    (linkInput target link x).wiring = linkInput target link x.wiring := by
  -- the test reads the dependencies, which the wiring keeps
  unfold linkInput
  dsimp only
  rw [apply_ite GraphNode.wiring]
  rfl

theorem makeLink_wiring (n : Network) (link : NewLink) :
    (n.makeLink link).wiring = n.wiring.makeLink link := by
  cases link with
  | control source target =>
    unfold makeLink wiring
    dsimp only
    rw [Arena.map_modify_comm]
    intro x
    rfl
  | data target link =>
    unfold makeLink wiring
    dsimp only
    rw [Arena.map_modify_comm _ _ _ (linkInput target link) _ (linkInput_wiring target link)]

theorem makeLinks_wiring (n : Network) (links : List NewLink) :
    (n.makeLinks links).1.wiring = (n.wiring.makeLinks links).1 := by
  induction links generalizing n with
  | nil => rfl
  | cons link rest ih =>
    show ((n.makeLink link).makeLinks rest).1.wiring = ((n.wiring.makeLink link).makeLinks rest).1
    rw [ih, makeLink_wiring]

theorem link_wiring (n : Network) (conversions : Conversions) :
    (n.link conversions).1.wiring = (n.wiring.link conversions).1 := by
  show (n.unlinked.makeLinks (validLinks (n.unlinked.checkAll conversions))).1.wiring
    = (n.wiring.unlinked.makeLinks (validLinks (n.wiring.unlinked.checkAll conversions))).1
  rw [makeLinks_wiring, ← wiring_unlinked, checkAll_wiring]

/-- Networks that are wired alike get the same dependencies. -/
theorem link_dependencies_congr (n m : Network) (conversions : Conversions)
    (h : n.wiring.unlinked = m.wiring.unlinked) :
    (n.link conversions).1.dependencies = (m.link conversions).1.dependencies := by
  rw [← dependencies_wiring, ← dependencies_wiring (m.link conversions).1, link_wiring, link_wiring,
    link_congr _ _ conversions h]

end Network
end FlowGraph
