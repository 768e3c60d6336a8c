import FlowGraph.Proofs.Validation.Agreement

/-! # What an empty report is good for

    A graph without a reported problem builds, and loads as it was saved
    (`build_of_validate`): a node becomes a placeholder only if the factory of its type
    rejects its fields, which the report does not look at, and a recorded connection between
    two other nodes is linked.  The same holds of all local functions.

    Four kinds of loss are not reported (`losses_unreported`); the conditions of
    `Loadable` leave them out. -/

namespace FlowGraph

open Validation

/-! ## Section 1: Connections that are linked -/

/-- A recorded connection of a node whose ends load: neither factory rejects its fields,
    the slots are below the limit, and the target has a guid and declares no port twice. -/
structure Loadable (registry : Registry) (nodes : List NodeData) (d : NodeData) (r : PortData)
    (c : PortConnection) : Prop where
  source : ¬ registry.Rejects d
  sourceSlot : r.index < maxArraySlots
  named : c.nodeGuid ≠ ""
  targetSlot : c.portIndex < maxArraySlots
  target : ∀ m ∈ nodes, m.guid = c.nodeGuid → ¬ registry.Rejects m ∧
    ∀ declared, declare registry m = .ok declared → (declared.ports.map (·.name)).Nodup

/-- Ports that the report finds no fault with can be linked. -/
theorem exists_checkLink (conversions : Conversions) (p q : PortDescriptor) (i j : Nat)
    (hdirection : p.direction = .output) (hfault : fault? conversions p q = none) :
    ∃ compatibility,
      Port.checkLink (Port.ofDescriptor p i) (Port.ofDescriptor q j) conversions
        = .ok compatibility := by
  have hinput : q.direction = .input := by
    by_contra h
    unfold fault? at hfault
    rw [if_pos h] at hfault
    cases hfault
  have hkind : p.kind = q.kind := by
    by_contra h
    unfold fault? at hfault
    rw [if_neg (not_not_intro hinput), if_pos h] at hfault
    cases hfault
  unfold fault? at hfault
  rw [if_neg (not_not_intro hinput), if_neg (not_not_intro hkind)] at hfault
  have hcontrol : ∀ k, (Port.ofDescriptor p k).isControl = p.isControl := fun _ => rfl
  unfold Port.checkLink
  rw [if_neg (by simp [Port.ofDescriptor, hdirection, hinput]),
    if_neg (by simp [Port.ofDescriptor, hkind]), hcontrol]
  cases hp : p.isControl with
  | true => exact ⟨.direct, rfl⟩
  | false =>
    cases hcompatible : conversions.compatibility p.type q.type with
    | some compatibility => exact ⟨compatibility, by simp [Port.ofDescriptor, hcompatible]⟩
    | none =>
      rw [hp, hcompatible] at hfault
      cases hfault

namespace Network

/-- A connection from a slot is a valid one, and leads to the slot that it names. -/
def Links (n : Network) (conversions : Conversions) (source : PortAddress) (c : PortConnection) :
    Prop :=
  ∃ target new, n.LeadsTo c target ∧ new ∈ validLinks (n.unlinked.checkAll conversions) ∧
    (new = .control source target.node ∨
      ∃ compatibility, new = .data target ⟨source, compatibility⟩)

/-- A live network is what the saved one says.  Only rejected nodes are placeholders;
    loadable connections start at the output slots that their records name, and those that
    count are linked; if all are loadable, nothing is skipped or rejected. -/
structure Loads (registry : Registry) (conversions : Conversions) (data : GraphData)
    (n : Network) : Prop where
  size : n.placed.length = data.nodes.length
  placeholders : ∀ (i : Nat) d h x, data.nodes[i]? = some d → n.placed[i]? = some (h, x) →
    (x.isPlaceholder = true ↔ registry.Rejects d)
  links : ∀ (i : Nat) d h x, data.nodes[i]? = some d → n.placed[i]? = some (h, x) →
    ∀ r ∈ d.ports, ∀ c ∈ r.connections, Loadable registry data.nodes d r c →
      ∃ j output, x.portIndex r.name r.index = some j ∧ x.ports[j]? = some output ∧
        output.direction = .output ∧
        (c ∈ countedConnections output r → n.Links conversions ⟨h, j⟩ c)
  noProblems : (∀ d ∈ data.nodes, ∀ r ∈ d.ports, ∀ c ∈ r.connections,
    Loadable registry data.nodes d r c) → problems (n.unlinked.checkAll conversions) = []

end Network

namespace Hydrates

variable {registry : Registry} {conversions : Conversions} {data : GraphData} {n : Network}

/-- A loadable connection is found valid. -/
theorem checked (hn : Hydrates registry conversions data n) {i : Nat} {d : NodeData}
    {h : NodeHandle} {x : GraphNode} (hx : Stands registry data n i d h x) (r : PortData)
    (hr : r ∈ d.ports) (c : PortConnection) (hc : c ∈ r.connections)
    (hload : Loadable registry data.nodes d r c) :
    ∃ j output, x.portIndex r.name r.index = some j ∧ x.ports[j]? = some output ∧
      output.direction = .output ∧
      ∃ new, n.checkConnection conversions x ⟨h, j⟩ output c = some (.ok new) := by
  have hrecord := hx.carries.mem_records r hr
  obtain ⟨p, target, q, hp, ⟨hmem, hguid, declared, hdeclared, hslot⟩, hfault, _⟩ :=
    hn.clean.joins d (List.mem_of_getElem? hx.saved) r hr c hc
  obtain ⟨j, hj, hport⟩ := (x.port?_eq_some_iff r.name r.index _).mp
    (hn.output hx hload.source r hrecord hload.sourceSlot p hp)
  obtain ⟨_, _, _, hdirection⟩ := hp
  refine ⟨j, _, hj, hport, hdirection, ?_⟩
  -- the target is the live form of the saved node of that guid
  obtain ⟨t, ht⟩ := List.mem_iff_getElem?.mp hmem
  obtain ⟨k, y, _, horder, hy, hty⟩ := hn.carries.live t target ht
  have hstands : Stands registry data n t target k y := ⟨ht, horder, hy, hty⟩
  have hlive : y.guid = c.nodeGuid := by
    rw [← hguid]
    exact hty.guid (by rw [hguid]; exact hload.named)
  have hhandle : n.handleOf c.nodeGuid = some k := by
    rw [← hlive]
    exact (hn.carries.distinct hn.clean.nodup).handleOf k y hy
  obtain ⟨hnot, hnames⟩ := hload.target target hmem hguid
  obtain ⟨j', hj', hport'⟩ := (y.port?_eq_some_iff c.portName c.portIndex _).mp
    (hn.input hx r hrecord c hc hload.targetSlot hstands hlive hnot q
      ⟨declared, hdeclared, hnames declared hdeclared, hslot⟩)
  obtain ⟨compatibility, hlink⟩ :=
    exists_checkLink conversions p q r.index c.portIndex hdirection hfault
  unfold Network.checkConnection
  simp only [hhandle, hy, Option.map_some, hj', hport', hlink]
  split
  · exact ⟨_, rfl⟩
  · exact ⟨_, rfl⟩

/-- A problem is one of a saved connection. -/
theorem saved_of_problem (hn : Hydrates registry conversions data n) (problem : LinkProblem)
    (hproblem : problem ∈ Network.problems (n.checkAll conversions)) :
    ∃ i d h x r, Stands registry data n i d h x ∧ r ∈ d.ports ∧ r.connections ≠ [] ∧
      .error problem ∈ n.checkRecord conversions h x r := by
  obtain ⟨checked, hchecked, heq⟩ := List.mem_filterMap.mp hproblem
  cases checked with
  | ok new => cases heq
  | error e =>
    cases heq
    obtain ⟨⟨h, x⟩, hplaced, hrecords⟩ := List.mem_flatMap.mp hchecked
    obtain ⟨r, hr, hmem⟩ := List.mem_flatMap.mp hrecords
    obtain ⟨i, d, hx⟩ := hn.stands h x (n.node?_of_mem_placed h x hplaced)
    have hsome : r.connections ≠ [] := by
      intro hempty
      unfold Network.checkRecord at hmem
      rw [hempty] at hmem
      cases hmem
    exact ⟨i, d, h, x, r, hx, hx.carries.mem_ports r hr hsome, hsome, hmem⟩

/-- If all connections are loadable, none is skipped or rejected. -/
theorem no_problems (hn : Hydrates registry conversions data n)
    (hload : ∀ d ∈ data.nodes, ∀ r ∈ d.ports, ∀ c ∈ r.connections,
      Loadable registry data.nodes d r c) :
    Network.problems (n.checkAll conversions) = [] := by
  refine List.eq_nil_iff_forall_not_mem.mpr fun problem hproblem => ?_
  obtain ⟨i, d, h, x, r, hx, hr, hsome, hmem⟩ := hn.saved_of_problem problem hproblem
  have hall := hload d (List.mem_of_getElem? hx.saved) r hr
  obtain ⟨c, hc⟩ := List.exists_mem_of_ne_nil _ hsome
  obtain ⟨j, output, hj, hport, hdirection, _⟩ := hn.checked hx r hr c hc (hall c hc)
  unfold Network.checkRecord at hmem
  rw [if_neg (by simpa using hsome)] at hmem
  simp only [hj, hport] at hmem
  rw [if_neg (not_not_intro hdirection)] at hmem
  obtain ⟨c', hc', hcheck⟩ := List.mem_filterMap.mp hmem
  have hrecorded := Network.mem_countedConnections output r c' hc'
  -- one slot, one check
  obtain ⟨j', output', hj', hport', _, new, hnew⟩ :=
    hn.checked hx r hr c' hrecorded (hall c' hrecorded)
  rw [hj] at hj'
  cases hj'
  rw [hport] at hport'
  cases hport'
  rw [hcheck] at hnew
  cases hnew

/-- The network loads as it was saved. -/
theorem loads (hn : Hydrates registry conversions data n.unlinked) :
    n.Loads registry conversions data := by
  have hplaced : ∀ (i : Nat) d h x, data.nodes[i]? = some d → n.placed[i]? = some (h, x) →
      Stands registry data n.unlinked i d h x.unlinked := by
    intro i d h x hd hx
    obtain ⟨k, y, hky, horder, hy, hdy⟩ := hn.carries.live i d hd
    rw [n.differs_unlinked.placed, List.getElem?_map, hx] at hky
    cases hky
    exact ⟨hd, horder, hy, hdy⟩
  refine ⟨?_, fun i d h x hd hx => ?_, fun i d h x hd hx r hr c hc hload => ?_, hn.no_problems⟩
  · have hlength := hn.carries.nodes.length_eq
    rw [n.differs_unlinked.placed, List.length_map] at hlength
    exact hlength.symm
  · obtain ⟨_, _, ⟨hrejects, hplaceholder, _⟩ | ⟨hnot, hlive, _⟩⟩ :=
      hn.descriptor (hplaced i d h x hd hx)
    · exact ⟨fun _ => hrejects, fun _ => hplaceholder⟩
    · refine ⟨fun hplaceholder => ?_, fun hrejects => absurd hrejects hnot⟩
      rw [show x.isPlaceholder = false from hlive] at hplaceholder
      cases hplaceholder
  · have hstands := hplaced i d h x hd hx
    obtain ⟨j, output, hj, hport, hdirection, new, hnew⟩ := hn.checked hstands r hr c hc hload
    rw [Network.portIndex_unlinked] at hj
    have hmap : (x.ports.map Port.unlinked)[j]? = some output := hport
    rw [List.getElem?_map] at hmap
    obtain ⟨live, hlive, rfl⟩ := Option.map_eq_some_iff.mp hmap
    refine ⟨j, live, hj, hlive, hdirection, fun hcounted => ?_⟩
    obtain ⟨target, hleads, hlink⟩ := Network.checkConnection_ok _ conversions _ _ _ c new hnew
    refine ⟨target, new, n.leadsTo_of_unlinked c target hleads, ?_, hlink⟩
    rw [Network.mem_validLinks, Network.ok_mem_checkAll_iff]
    refine ⟨h, x.unlinked, r, j, live.unlinked, c, ⟨?_, ?_, ?_, hport, hdirection, hcounted⟩, hnew⟩
    · exact (n.unlinked.mem_placed_iff hn.carries.sound h _).mpr hstands.node
    · exact hstands.carries.mem_records r hr
    · rw [Network.portIndex_unlinked]
      exact hj

/-- Linking and finding the paths of a network works, and it loads as it was saved. -/
theorem findPaths (hn : Hydrates registry conversions data n) (hpaths : n.paths = none) :
    ∃ m, Graph.findPaths (n.link conversions).1 = .ok m ∧ m.Loads registry conversions data := by
  obtain ⟨ps, hps⟩ := hn.exists_paths
  refine ⟨{ (n.link conversions).1 with paths := some ps }, ?_, ?_⟩
  · have hnone := n.link_paths conversions
    unfold Graph.findPaths
    rw [hnone, hpaths, hps]
    rfl
  · apply loads
    have hunlinked := hn.unlinked.withPaths (some ps)
    rw [← n.link_unlinked conversions] at hunlinked
    exact hunlinked

end Hydrates

/-! ## Section 2: All levels -/

namespace GraphData

mutual

/-- An empty report is one of all levels. -/
theorem all_of_validate (registry : Registry) (conversions : Conversions) (data : GraphData)
    (h : data.validate registry conversions = []) :
    data.All fun d => ofNetwork registry conversions d = [] := by
  obtain ⟨name, nodes, vars, groups, functions⟩ := data
  unfold validate at h
  obtain ⟨hnetwork, hfunctions⟩ := List.append_eq_nil_iff.mp h
  exact .intro _ hnetwork (all_of_validateFunctions registry conversions functions hfunctions)

theorem all_of_validateFunctions (registry : Registry) (conversions : Conversions)
    (functions : List (String × GraphData))
    (h : validateFunctions registry conversions functions = []) :
    ∀ f ∈ functions, f.2.All fun d => ofNetwork registry conversions d = [] := by
  match functions with
  | [] =>
    intro f hf
    cases hf
  | (name, data) :: rest =>
    unfold validateFunctions at h
    obtain ⟨hfirst, hrest⟩ := List.append_eq_nil_iff.mp h
    intro f hf
    rcases List.mem_cons.mp hf with rfl | hf
    · exact all_of_validate registry conversions data hfirst
    · exact all_of_validateFunctions registry conversions rest hrest f hf

end

end GraphData

namespace Graph

/-- **Main theorem: an empty report.**  If nothing is reported about a saved graph, and no
    guid in it is made anew, then the graph builds, and every network in it loads as it was
    saved. -/
theorem build_of_validate (registry : Registry) (conversions : Conversions) (data : GraphData)
    (s : Store) (hvalid : data.validate registry conversions = [])
    (hfresh : s.Unmade data.guids) :
    ∃ g t, build registry conversions data s = (.ok g, t) ∧
      g.Represents (fun d n => n.Loads registry conversions d) data := by
  have hdata := (data.all_of_validate registry conversions hvalid).and hfresh.all
  have hhydrated : (ofData registry data s).1.Represents
      (fun d n => Hydrates registry conversions d n ∧ n.paths = none) data := by
    refine represents_ofData registry s data (hdata.mono fun d hd t ht => ?_) s (le_refl _)
    have hclean := clean_of_ofNetwork d hd.1
    obtain ⟨hcarries, hopened⟩ :=
      placeAll_carries registry d t hclean.nodup fun _ _ _ => hd.2.later ht
    have hpaths := (ofData_fresh registry d t).paths
    rw [ofData_eq] at hpaths
    exact ⟨⟨hclean, hcarries, hopened⟩, hpaths⟩
  obtain ⟨k, u, hofData⟩ : ∃ k u, ofData registry data s = (k, u) := ⟨_, _, rfl⟩
  rw [hofData] at hhydrated
  obtain ⟨g, t, hcompile, hg⟩ := hhydrated.compile conversions (fun d n hn => hn.1.findPaths hn.2) u
  refine ⟨g, t, ?_, hg⟩
  unfold build
  simp only [bind, StateT.bind, hofData, hcompile]
  rfl

/-- A call with a number as its second argument, and the function that is called. -/
def wired : GraphData where
  name := "wired"
  nodes := [
    { guid := "start", type := "Ceres.Flow.ExecutionEvent",
      ports := [{ name := "next", connections := [⟨"call", "input", 0⟩] }] },
    { guid := "one", type := "Ceres.Values.Literal", genericArguments := ["int"],
      ports := [{ name := "value", connections := [⟨"call", "args", 1⟩, ⟨"test", "a", 0⟩] }] },
    { guid := "call", type := "Ceres.Functions.InvokeFunction",
      ports := [{ name := "next", connections := [⟨"log", "input", 0⟩] },
        { name := "result", connections := [⟨"log", "message", 0⟩] }] },
    { guid := "test", type := "Ceres.Math.Compare" },
    { guid := "log", type := "Ceres.Flow.Log" }]
  functions := [("second", {
    name := "second"
    nodes := [
      { guid := "in", type := "Ceres.Functions.FunctionInput",
        ports := [{ name := "args", index := 1, connections := [⟨"out", "value", 0⟩] },
          { name := "next", connections := [⟨"out", "input", 0⟩] }] },
      { guid := "out", type := "Ceres.Functions.FunctionOutput" }] })]

theorem build_of_validate_wired :
    wired.validate Registry.builtin .standard = [] ∧ (default : Store).Unmade wired.guids ∧
      ∃ g t, build Registry.builtin .standard wired default = (.ok g, t) ∧
        g.Represents (fun d n => n.Loads Registry.builtin .standard d) wired := by
  have hvalid : wired.validate Registry.builtin .standard = [] := by decide +kernel
  have hfresh : (default : Store).Unmade wired.guids :=
    Store.unmade_of_prefix default wired.guids (by decide +kernel)
  exact ⟨hvalid, hfresh, build_of_validate Registry.builtin .standard wired default hvalid hfresh⟩

/-! ## Section 3: What the report does not see -/

/-- A comparison by an operator that there is not. -/
def misread : GraphData where
  name := "misread"
  nodes := [
    { guid := "test", type := "Ceres.Math.Compare", serializedData := "\x7b\"op\": \"near\"\x7d",
      ports := [{ name := "result", connections := [⟨"branch", "condition", 0⟩] }] },
    { guid := "branch", type := "Ceres.Flow.Branch" }]

/-- An argument past the limit. -/
def overlong : GraphData where
  name := "overlong"
  nodes := [
    { guid := "one", type := "Ceres.Values.Literal", genericArguments := ["int"],
      ports := [{ name := "value", connections := [⟨"call", "args", maxArraySlots⟩] }] },
    { guid := "call", type := "Ceres.Functions.InvokeFunction" }]

/-- A connection to a node without a guid. -/
def nameless : GraphData where
  name := "nameless"
  nodes := [
    { guid := "one", type := "Ceres.Values.Literal", genericArguments := ["int"],
      ports := [{ name := "value", connections := [⟨"", "a", 0⟩] }] },
    { guid := "", type := "Ceres.Math.Add" }]

/-- A type with an array input and an output of one name. -/
def twofold : NodeType :=
  Builtin.dependency "Test" "Twofold" "Twofold" .value "Declares a name twice"
    [(PortDescriptor.input "x" .int).asArray, .output "x" .int] (.plain .add)

/-- A connection to that name. -/
def ambiguous : GraphData where
  name := "ambiguous"
  nodes := [
    { guid := "one", type := "Ceres.Values.Literal", genericArguments := ["int"],
      ports := [{ name := "value", connections := [⟨"two", "x", 0⟩] }] },
    { guid := "two", type := "Test.Twofold" }]

/-- Which nodes of a graph are placeholders, and which connections are not linked. -/
def losses (conversions : Conversions) (g : Graph) : List Bool × List LinkProblem :=
  (g.placed.map fun e => e.2.isPlaceholder,
    Network.problems (g.unlinked.checkAll conversions))

/-- Nothing is reported about these graphs.  The first one gets a placeholder, and its
    connection is skipped; in the others a slot is past the limit, a guid is made anew, and
    a name has two ports. -/
theorem losses_unreported :
    let lost (registry : Registry) (data : GraphData) :=
      (build registry .standard data default).1.toOption.map (losses .standard)
    (misread.validate Registry.builtin .standard = [] ∧
      lost Registry.builtin misread = some ([true, false], [.noSlot "test" "result" 0])) ∧
    (overlong.validate Registry.builtin .standard = [] ∧
      lost Registry.builtin overlong
        = some ([false, false], [.noTarget "one" "value" "call" "args" 1024])) ∧
    (nameless.validate Registry.builtin .standard = [] ∧
      lost Registry.builtin nameless = some ([false, false], [.noNode "one" "value" ""])) ∧
    (ambiguous.validate (Registry.builtin.register twofold) .standard = [] ∧
      lost (Registry.builtin.register twofold) ambiguous = some ([false, false],
        [.rejected "one" "value" "two" "x" (.invalidDirection "value" "x")])) := by
  refine ⟨?_, ?_, ?_, ?_⟩
  · decide +kernel
  · decide +kernel
  · decide +kernel
  · decide +kernel

end Graph
end FlowGraph
