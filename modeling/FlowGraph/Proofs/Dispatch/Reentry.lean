import FlowGraph.Proofs.Dispatch.Calls
import FlowGraph.Proofs.Dispatch.Slots

/-! # Functions that are entered again

    The slots of a function are cells of its graph, and no activation has cells of its own.  So
    the arguments that an entry published stay there until the entry is executed again, at
    whatever depth of calls (`History.cell_argument`).  After a call the slots hold the
    arguments of the last execution of the entry in it, and what they held before only if there
    was none (`Dispatch.arguments_after_call`).  A function that calls itself finds there the
    arguments of the inner call, not its own (`arguments_overwritten`). -/

namespace FlowGraph

/-! ## Section 1: Frames of a history -/

/-- The frame that a part belongs to. -/
def Part.frame : Part → Frame
  | .chain frame _ => frame
  | .rest frame _ => frame
  | .path frame _ => frame
  | .visit frame _ => frame
  | .inside site _ => site.frame
  | .port site _ _ => site.frame
  | .slots site _ => site.frame
  | .turns site _ _ => site.frame

/-- What holds of the graph of a part and of all functions holds where its nodes are visited. -/
theorem History.frames {P : Network → Prop} {part : Part} {s t : DispatchState} {vs : List Visit}
    (h : History part s vs t) (hframe : part.frame.All P) : ∀ v ∈ vs, v.site.frame.All P := by
  induction h with
  | chain frame h path s t u v before own after _ _ _ _ ihbefore ihown ihafter =>
    simp only [List.forall_mem_append]
    exact ⟨ihbefore hframe, ihown hframe, ihafter hframe⟩
  | stop frame s => exact List.forall_mem_nil _
  | follow frame h s t vs _ ih => exact ih hframe
  | pathEnd frame s => exact List.forall_mem_nil _
  | pathNode frame h rest s t u v vs _ _ ihvisit ihrest =>
    exact List.forall_mem_cons.mpr
      ⟨ihvisit hframe v (List.mem_singleton_self v), ihrest hframe⟩
  | visit frame h x s t u vs _ _ _ ih => exact List.forall_mem_cons.mpr ⟨hframe, ih hframe⟩
  | plain site b s t _ _ => exact List.forall_mem_nil _
  | sequence site s t vs _ ih => exact ih hframe
  | forLoop site s t vs first last _ _ _ ih => exact ih hframe
  | call site name g entry s t vs hcallee _ ih =>
    intro v hv
    obtain ⟨w, hw, rfl⟩ := List.mem_map.mp hv
    exact ih (Frame.All.callFrame hframe name s.store g entry _ hcallee) w hw
  | unlinked site name index s _ => exact List.forall_mem_nil _
  | linked site name index h s t vs _ _ ih => exact ih (Frame.All.inner hframe)
  | slotsEnd site s => exact List.forall_mem_nil _
  | slot site index rest s t u first later _ _ ihfirst ihlater =>
    exact List.forall_mem_append.mpr ⟨ihfirst hframe, ihlater hframe⟩
  | turnsEnd site index s => exact List.forall_mem_nil _
  | turn site count index s t u first later _ _ ihfirst ihlater =>
    exact List.forall_mem_append.mpr ⟨ihfirst hframe, ihlater hframe⟩

/-! ## Section 2: Slots for arguments -/

/-- The address is that of the slot of an argument, at the entry of a function. -/
structure Network.IsArgument (n : Network) (x : GraphNode) (a : PortAddress) (index : Nat) :
    Prop where
  node : n.node? a.node = some x
  input : ∃ name, x.behavior = .functionInput name
  slot : x.portIndex "args" index = some a.port

/-- No other graph has the id of this one. -/
def Network.Owns (n m : Network) : Prop := m.id = n.id → m = n

/-- What is asked of the graphs around. -/
def Network.Hosts (n m : Network) : Prop := n.Owns m ∧ m.Slotted

/-- The argument that a node publishes in a slot, if it is the entry of the slot. -/
def Site.argument? (site : Site) (k : GraphId) (h : NodeHandle) (index : Nat) : Option Value :=
  if site.frame.graph.id = k ∧ site.node = h then some (site.frame.call.argument index) else none

/-- The argument that is published in a slot during a visit. -/
def Visit.argument? (k : GraphId) (h : NodeHandle) (index : Nat) (v : Visit) : Option Value :=
  v.site.argument? k h index

/-- A node on its own may publish too. -/
def Part.argument? (k : GraphId) (h : NodeHandle) (index : Nat) : Part → Option Value
  | .inside site _ => site.argument? k h index
  | _ => none

/-- What runs inside of a node is what its behavior runs. -/
def Part.Behaves : Part → Prop
  | .inside site b => ∃ x, site.node? = some x ∧ x.behavior = b
  | .turns site _ _ => ∃ x, site.node? = some x ∧ x.behavior = .forLoop
  | _ => True

section

variable {n : Network} {x : GraphNode} {a : PortAddress} {index : Nat}
  (hargument : n.IsArgument x a index) {site : Site} (hsite : site.frame.All n.Hosts)

include hargument hsite

/-- The slot belongs to one node only. -/
theorem Network.IsArgument.eq_of_index_eq (y : GraphNode) (hy : site.node? = some y)
    (hid : site.frame.graph.id = n.id) (hindex : a.node.index = site.node.index) :
    site.frame.graph.toNetwork = n ∧ site.node = a.node ∧ y = x := by
  have hgraph : site.frame.graph.toNetwork = n := hsite.graph.network.1 hid
  have hy' : n.node? site.node = some y := by
    rw [← hgraph]
    exact hy
  have hnode : site.node = a.node :=
    Arena.eq_of_index_eq n.nodes site.node a.node y x hy' hargument.node hindex.symm
  rw [hnode, hargument.node] at hy'
  exact ⟨hgraph, hnode, (Option.some.inj hy').symm⟩

/-- Nodes that are not entries of functions publish nothing, and leave the slot alone. -/
theorem Network.IsArgument.apart (y : GraphNode) (hy : site.node? = some y)
    (hb : ∀ name, y.behavior ≠ .functionInput name) :
    site.argument? n.id a.node index = none ∧
      ∀ s t, site.Touches s t → t.cell n.id a = s.cell n.id a := by
  obtain ⟨name, hinput⟩ := hargument.input
  constructor
  · refine if_neg fun hsame => ?_
    obtain ⟨_, _, rfl⟩ := hargument.eq_of_index_eq hsite y hy hsame.1 (by rw [hsame.2])
    exact hb name hinput
  · intro s t htouches
    by_contra hchanged
    obtain ⟨hid, hindex⟩ := htouches.cells n.id a hchanged
    obtain ⟨_, _, rfl⟩ := hargument.eq_of_index_eq hsite y hy hid.symm hindex
    exact hb name hinput

/-- The entry of a function publishes the argument, whatever the slot held. -/
theorem Network.IsArgument.published (hid : site.frame.graph.id = n.id)
    (hnode : site.node = a.node) (s : Store)
    (hrow : s.rowSize n.id a.node.index = some x.ports.length) :
    (site.published s).cell n.id a = site.frame.call.argument index := by
  have hgraph : site.frame.graph.toNetwork = n := hsite.graph.network.1 hid
  have hx : site.node? = some x := by
    have hentry : n.node? site.node = some x := by
      rw [hnode]
      exact hargument.node
    rw [← hgraph] at hentry
    exact hentry
  have haddress : site.address? "args" index = some a := by
    unfold Site.address?
    rw [hx, Option.bind_some, hargument.slot, Option.map_some, hnode]
  rw [← hid] at hrow ⊢
  rw [← hnode] at hrow
  have hslotted := hsite.graph.network.2 site.node x hx
  exact site.cell_published x hx hslotted s hrow index a haddress

end

/-! ## Section 3: Cells of arguments -/

/-- Two parts in a row: the later one has the last word. -/
theorem lastOf_getD_append (f : Visit → Option Value) (first later : List Visit) (b c d : Value)
    (hfirst : c = (lastOf f first).getD b) (hlater : d = (lastOf f later).getD c) :
    d = (lastOf f (first ++ later)).getD b := by
  rw [lastOf_append, Option.getD_or, ← hfirst]
  exact hlater

/-- After a part the slot of an argument holds what was published there last in it, at whatever
    depth of calls, or what it held before. -/
theorem History.cell_argument {n : Network} {x : GraphNode} {a : PortAddress} {index : Nat}
    (hargument : n.IsArgument x a index) {part : Part}
    {s t : DispatchState} {vs : List Visit} (h : History part s vs t) (hpart : part.Proceeds)
    (hbehaves : part.Behaves) (hframe : part.frame.All n.Hosts)
    (hrow : s.store.rowSize n.id a.node.index = some x.ports.length)
    (hvs : ∀ v ∈ vs, v.Spares n.id a) :
    t.store.cell n.id a = ((lastOf (Visit.argument? n.id a.node index) vs).or
      (part.argument? n.id a.node index)).getD (s.store.cell n.id a) := by
  induction h with
  | chain frame h path s t u v before own after _ hbefore hown _ ihbefore ihown ihafter =>
    simp only [List.forall_mem_append] at hvs
    have hrow' := (hbefore.rowSize n.id a trivial hvs.1).trans hrow
    have hrow'' := (hown.rowSize n.id a trivial hvs.2.1).trans hrow'
    have hfirst := ihbefore trivial trivial hframe hrow hvs.1
    have hsecond := ihown trivial trivial hframe hrow' hvs.2.1
    have hthird := ihafter trivial trivial hframe hrow'' hvs.2.2
    simp only [Part.argument?, Option.or_none] at hfirst hsecond hthird ⊢
    exact lastOf_getD_append _ _ _ _ _ _ hfirst (lastOf_getD_append _ _ _ _ _ _ hsecond hthird)
  | stop frame s => rfl
  | follow frame h s t vs _ ih => exact ih trivial trivial hframe hrow hvs
  | pathEnd frame s => rfl
  | pathNode frame h rest s t u v vs hvisit _ ihvisit ihrest =>
    obtain ⟨hv, hvs⟩ := List.forall_mem_cons.mp hvs
    have hv := List.forall_mem_singleton.mpr hv
    have hfirst := ihvisit trivial trivial hframe hrow hv
    have hlater := ihrest trivial trivial hframe ((hvisit.rowSize n.id a trivial hv).trans hrow) hvs
    simp only [Part.argument?, Option.or_none] at hfirst hlater ⊢
    exact lastOf_getD_append _ [v] vs _ _ _ hfirst hlater
  | visit frame h y s t u vs hy hinside hended ih =>
    obtain ⟨hv, hvs⟩ := List.forall_mem_cons.mp hvs
    have hsite : (Site.mk frame h).frame.All n.Hosts := hframe
    have hstarted : (frame.started y s).store.cell n.id a = s.store.cell n.id a :=
      Store.cell_of_graphs (frame.announced_graphs _ _) _ _
    rw [lastOf_cons]
    by_cases hb : y.behavior = .delay
    · -- others left the slot alone, and the node itself has nothing to do with it
      have hnone := (hargument.apart hsite y hy (by simp [hb])).1
      have hnil : vs = [] := by
        rw [hb] at hinside
        cases hinside
        rfl
      have hsame : u.store.cell n.id a = (frame.started y s).store.cell n.id a := (hv y hy hb).2
      rw [hsame, hstarted, hnil]
      show _ = ((none.or ((Site.mk frame h).argument? n.id a.node index)).or none).getD _
      rw [hnone]
      rfl
    · have hrow' : (frame.started y s).store.rowSize n.id a.node.index = some x.ports.length :=
        (Store.rowSize_of_graphs (frame.announced_graphs _ _) _ _).trans hrow
      have hcell := ih hb ⟨y, hy, rfl⟩ hframe hrow' hvs
      have hfinish : u.store.cell n.id a = t.store.cell n.id a := by
        rw [hended]
        exact Store.cell_of_graphs (frame.announced_graphs _ _) _ _
      rw [hfinish, hcell, hstarted]
      simp only [Part.argument?, Option.or_none]
      rfl
  | plain site b s t hb hexecute =>
    obtain ⟨y, hy, rfl⟩ := hbehaves
    have hsite : site.frame.All n.Hosts := hframe
    by_cases hinput : ∃ name, y.behavior = .functionInput name
    · obtain ⟨name, hinput⟩ := hinput
      rw [hinput] at hexecute
      obtain ⟨_, rfl⟩ := (Process.ends_done_iff _ _ _ _).mp hexecute
      show (site.published s.store).cell n.id a = (site.argument? n.id a.node index).getD _
      unfold Site.argument?
      by_cases hsame : site.frame.graph.id = n.id ∧ site.node = a.node
      · rw [if_pos hsame]
        exact hargument.published hsite hsame.1 hsame.2 s.store hrow
      · -- the entry of another function
        rw [if_neg hsame]
        by_contra hchanged
        obtain ⟨hid, hindex⟩ := (site.touches_publishedIn _ s.store).cells n.id a hchanged
        obtain ⟨_, hnode, _⟩ := hargument.eq_of_index_eq hsite y hy hid.symm hindex
        exact hsame ⟨hid.symm, hnode⟩
    · obtain ⟨hnone, hkept⟩ := hargument.apart hsite y hy (not_exists.mp hinput)
      show _ = (site.argument? n.id a.node index).getD _
      rw [hnone]
      exact hkept _ _ ((site.does_plain .idle _ hb s t hexecute).touches hpart)
  | sequence site s t vs _ ih =>
    obtain ⟨y, hy, hb⟩ := hbehaves
    have hsite : site.frame.All n.Hosts := hframe
    have hnone := (hargument.apart hsite y hy (by simp [hb])).1
    show _ = ((lastOf _ vs).or (site.argument? n.id a.node index)).getD _
    rw [hnone]
    exact ih trivial trivial hframe hrow hvs
  | forLoop site s t vs first last _ _ _ ih =>
    obtain ⟨y, hy, hb⟩ := hbehaves
    have hsite : site.frame.All n.Hosts := hframe
    have hnone := (hargument.apart hsite y hy (by simp [hb])).1
    show _ = ((lastOf _ vs).or (site.argument? n.id a.node index)).getD _
    rw [hnone]
    exact ih trivial ⟨y, hy, hb⟩ hframe hrow hvs
  | call site name g entry s t vs hcallee _ ih =>
    obtain ⟨y, hy, hb⟩ := hbehaves
    have hsite : site.frame.All n.Hosts := hframe
    obtain ⟨hnone, hkept⟩ := hargument.apart hsite y hy (by simp [hb])
    have hcell := ih trivial trivial (hsite.callFrame name s.store g entry _ hcallee) hrow
      (spares_deeper hvs)
    show (site.output "result" 0 _ t.store).cell n.id a
      = ((lastOf _ (vs.map Visit.deeper)).or (site.argument? n.id a.node index)).getD _
    rw [hkept _ _ (site.touches_output "result" 0 _ t.store), hnone, lastOf_deeper, hcell]
    rfl
  | unlinked site name index s _ => rfl
  | linked site name index h s t vs _ _ ih => exact ih trivial trivial hframe.inner hrow hvs
  | slotsEnd site s => rfl
  | slot site i rest s t u first later hfirst _ ihfirst ihlater =>
    obtain ⟨hvfirst, hvlater⟩ := List.forall_mem_append.mp hvs
    have hrow' := (hfirst.rowSize n.id a trivial hvfirst).trans hrow
    have hcell := ihfirst trivial trivial hframe hrow hvfirst
    have hcell' := ihlater trivial trivial hframe hrow' hvlater
    simp only [Part.argument?, Option.or_none] at hcell hcell' ⊢
    exact lastOf_getD_append _ _ _ _ _ _ hcell hcell'
  | turnsEnd site i s => rfl
  | turn site count i s t u first later hfirst _ ihfirst ihlater =>
    obtain ⟨y, hy, hb⟩ := hbehaves
    have hsite : site.frame.All n.Hosts := hframe
    obtain ⟨_, hkept⟩ := hargument.apart hsite y hy (by simp [hb])
    obtain ⟨hvfirst, hvlater⟩ := List.forall_mem_append.mp hvs
    -- the loop writes a slot of its own
    have htouches := site.touches_output "index" 0 (.int (Int64.ofInt i)) s.store
    have hrow₁ := (htouches.rows.row n.id trivial a.node.index).trans hrow
    have hrow₂ := (hfirst.rowSize n.id a trivial hvfirst).trans hrow₁
    have hcell := ihfirst trivial trivial hframe hrow₁ hvfirst
    have hcell' := ihlater trivial ⟨y, hy, hb⟩ hframe hrow₂ hvlater
    simp only [Part.argument?, Option.or_none] at hcell hcell' ⊢
    rw [hkept _ _ htouches] at hcell
    exact lastOf_getD_append _ _ _ _ _ _ hcell hcell'

/-! ## Section 4: Calls -/

/-- The dependency path of a node publishes no arguments. -/
theorem History.cell_path {n : Network} {x : GraphNode} {a : PortAddress} {index : Nat}
    (hargument : n.IsArgument x a index) {frame : Frame} (horderly : frame.All Network.Orderly)
    (hframe : frame.All n.Hosts) (m : NodeHandle) (path : List NodeHandle)
    (hpath : frame.graph.dependencyPath m = .ok path) {s t : DispatchState} {vs : List Visit}
    (h : History (.path frame path) s vs t)
    (hrow : s.store.rowSize n.id a.node.index = some x.ports.length) :
    t.store.cell n.id a = s.store.cell n.id a := by
  have hsites := h.path_sites
  have hnone : lastOf (Visit.argument? n.id a.node index) vs = none := by
    refine lastOf_eq_none _ _ fun v hv => ?_
    have hsite : v.site ∈ path.map (Site.mk frame) := hsites ▸ List.mem_map_of_mem hv
    obtain ⟨k, hk, hkv⟩ := List.mem_map.mp hsite
    obtain ⟨y, hy, _, hsignature⟩ := horderly.onDemand m path hpath k hk
    have hsite : (Site.mk frame k).frame.All n.Hosts := hframe
    show v.site.argument? n.id a.node index = none
    rw [← hkv]
    refine (hargument.apart hsite y hy fun name hb => ?_).1
    rw [hb] at hsignature
    cases hsignature
  have hcell := h.cell_argument hargument trivial trivial hframe hrow
    (horderly.spares m path hpath hsites n.id a)
  rw [hcell, hnone]
  rfl

namespace Dispatch

/-- **Main theorem: the arguments after a call.**  When a call in a dispatch has returned, the
    slots of every function that can be reached hold the arguments of the last execution of its
    entry in the call, at whatever depth, and what they held before only if the entry was not
    executed again; and the node that comes next reads this at its ports that are linked to
    such a slot.  Others may have changed slots while nodes of the call waited, so these must
    have left the slot alone. -/
theorem arguments_after_call (engine : Engine) (g : Graph) (r : DispatchRequest) (s : Store)
    (hhosted : Graph.Hosted g) (hnodes : g.All Network.OfLibrary)
    (hlibrary : ∀ f ∈ engine.library, Graph.Hosted f.2 ∧ f.2.All Network.OfLibrary)
    (site : Site) (hspawns : (frameOf engine g r s).Spawns site.frame) (y : GraphNode)
    (hy : site.node? = some y) (name : String) (hb : y.behavior = .invokeFunction name)
    (fuel : Nat) (u v : DispatchState)
    (hcall : (site.execute (Frame.runChain fuel) (.invokeFunction name)).Returns u () v) :
    ∃ value w callee entry vs, site.Calls name u value w callee entry vs ∧
      ∀ (n : Network) x a index, n.IsArgument x a index → (frameOf engine g r s).All n.Owns →
        u.store.rowSize n.id a.node.index = some x.ports.length →
        (∀ visit ∈ vs, visit.Spares n.id a) →
        let held := (lastOf (Visit.argument? n.id a.node index) vs).getD (u.store.cell n.id a)
        v.store.cell n.id a = held ∧
        ∀ m path before t, site.frame.graph.dependencyPath m = .ok path →
          History (.path site.frame path) { v with next := none } before t →
          ∀ b p link, n.port? b = some p → p.link = some link → link.source = a →
            n.readPort t.store b = link.compatibility.convert t.store.objects held := by
  obtain ⟨horderly, hslotted⟩ := frameOf_orderly engine g r s hhosted hnodes hlibrary
  obtain ⟨value, w, callee, entry, vs, hcalls, heq⟩ := site.calls_of_execute
    (hspawns.all horderly) (hspawns.all hslotted) fuel name u v hcall
  refine ⟨value, w, callee, entry, vs, hcalls, ?_⟩
  intro n x a index hargument howns hrow hvs held
  have hsite : site.frame.All n.Hosts := hspawns.all (howns.and hslotted)
  obtain ⟨t, hhistory, rfl⟩ := hcalls.activation
  have hfunction : site.function? name = some callee := hcalls.function
  have hcell := hhistory.cell_argument hargument trivial trivial
    ⟨hsite.function? name callee hfunction, hsite.library⟩ hrow hvs
  have hreturned := hhistory.rowSize n.id a trivial hvs
  -- the result goes to another slot
  have htouches := site.touches_output "result" 0 value t.store
  obtain ⟨_, hkept⟩ := hargument.apart hsite y hy (by simp [hb])
  have hheld : v.store.cell n.id a = held := by
    rw [heq]
    show (site.output "result" 0 value t.store).cell n.id a = held
    rw [hkept _ _ htouches, hcell]
    simp only [Part.argument?, Option.or_none]
    rfl
  have hrow' : v.store.rowSize n.id a.node.index = some x.ports.length := by
    rw [heq]
    exact (htouches.rows.row n.id trivial a.node.index).trans (hreturned.trans hrow)
  refine ⟨hheld, fun m path before t' hpath hbefore b p link hp hlink hsource => ?_⟩
  have hafter := hbefore.cell_path hargument (hspawns.all horderly) hsite m path hpath hrow'
  have hport : ∃ q, n.port? link.source = some q := by
    obtain ⟨hlt, _⟩ := List.findIdx?_eq_some_iff_getElem.mp hargument.slot
    rw [hsource]
    exact ⟨_, (n.port?_eq_some_iff a _).mpr ⟨x, hargument.node, List.getElem?_eq_getElem hlt⟩⟩
  obtain ⟨q, hq⟩ := hport
  rw [n.readPort_linked t'.store b p q link hp hlink hq, hsource, hafter, hheld]

/-- A function that calls itself if its argument is true, and answers its argument. -/
def descending : GraphData where
  name := "descending"
  nodes := [
    { guid := "in", type := "Ceres.Functions.FunctionInput",
      serializedData := "\x7b\"functionName\": \"descend\"\x7d",
      ports := [{ name := "next", connections := [⟨"test", "input", 0⟩] },
        { name := "args", connections := [⟨"test", "condition", 0⟩, ⟨"out", "value", 0⟩] }] },
    { guid := "test", type := "Ceres.Flow.Branch",
      ports := [{ name := "true", connections := [⟨"again", "input", 0⟩] }] },
    { guid := "again", type := "Ceres.Functions.InvokeFunction",
      serializedData := "\x7b\"functionName\": \"descend\"\x7d",
      ports := [{ name := "args", value := some (.bool false) },
        { name := "next", connections := [⟨"out", "input", 0⟩] }] },
    { guid := "out", type := "Ceres.Functions.FunctionOutput" }]

/-- A call of the function with true, whose result is the answer. -/
def starting : GraphData where
  name := "starting"
  nodes := [
    { guid := "go", type := "Ceres.Flow.ExecutionEvent",
      serializedData := "\x7b\"eventName\": \"go\"\x7d",
      ports := [{ name := "next", connections := [⟨"call", "input", 0⟩] }] },
    { guid := "call", type := "Ceres.Functions.InvokeFunction",
      serializedData := "\x7b\"functionName\": \"descend\"\x7d",
      ports := [{ name := "args", value := some (.bool true) },
        { name := "next", connections := [⟨"answer", "input", 0⟩] },
        { name := "result", connections := [⟨"answer", "value", 0⟩] }] },
    { guid := "answer", type := "Ceres.Functions.FunctionOutput" }]

/-- The function as it is built. -/
def descendingState : Graph.State :=
  Graph.run [.compile .standard] (Graph.hydrated Registry.builtin descending default)

/-- The graph as it is built next. -/
def startingState : Graph.State :=
  Graph.run [.compile .standard] (Graph.hydrated Registry.builtin starting descendingState.2)

theorem descendingState_ofLibrary :
    Graph.Hosted descendingState.1 ∧ descendingState.1.All Network.OfLibrary :=
  Graph.built_ofLibrary descending .standard default

theorem startingState_ofLibrary :
    Graph.Hosted startingState.1 ∧ startingState.1.All Network.OfLibrary :=
  Graph.built_ofLibrary starting .standard descendingState.2

-- from here on only the kernel computes with them
attribute [irreducible] descendingState startingState

/-- An engine that knows the function. -/
def descendingEngine : Engine where
  library := [("descend", descendingState.1)]

/-- The frame of the dispatch. -/
def startingFrame : Frame :=
  frameOf descendingEngine startingState.1 { entry := .event "go" } startingState.2

/-- The frame of the call with true. -/
def outerFrame : Frame :=
  (Site.mk startingFrame ⟨1, 0⟩).callFrame descendingState.1 ⟨"descend", [.bool true]⟩

/-- The node that calls the function again. -/
def outerSite : Site := ⟨outerFrame, ⟨2, 0⟩⟩

/-- The state in which the call with true has come to this node. -/
def outerState : DispatchState :=
  (Exec.forEach [⟨0, 0⟩, ⟨1, 0⟩] (outerFrame.invoke (Frame.runChain 10))
    (opening startingState.1 { entry := .event "go" } ⟨0, 0⟩ startingState.2)).state

/-- The slot of the argument. -/
def argumentSlot : PortAddress := ⟨⟨0, 0⟩, 0⟩

theorem startingFrame_spawns : startingFrame.Spawns outerFrame := by
  have hcan : (startingFrame.graph.function? "descend").isNone = true ∧
      descendingState.1.isRunnable startingState.2 = true ∧
      descendingState.1.findEntry "descend" = some ⟨0, 0⟩ := by decide +kernel
  obtain ⟨hlocal, hrunnable, hentry⟩ := hcan
  have hfunction : (Site.mk startingFrame ⟨1, 0⟩).function? "descend"
      = some descendingState.1 := by
    unfold Site.function?
    rw [Option.isNone_iff_eq_none.mp hlocal]
    rfl
  have hcallee : (Site.mk startingFrame ⟨1, 0⟩).callee "descend" startingState.2
      = .ok (descendingState.1, ⟨0, 0⟩) := by
    unfold Site.callee
    rw [hfunction]
    simp only [hrunnable, hentry]
    rfl
  exact .deeper ⟨startingFrame, ⟨1, 0⟩⟩ outerFrame .self
    (.call "descend" startingState.2 descendingState.1 ⟨0, 0⟩ _ hcallee)

/-- There are only two graphs. -/
theorem startingFrame_all {P : Network → Prop} (hfunction : P descendingState.1.toNetwork)
    (hgraph : P startingState.1.toNetwork) : startingFrame.All P := by
  have hlone : startingState.1.functions.isEmpty = true ∧
      descendingState.1.functions.isEmpty = true := by decide +kernel
  constructor
  · refine .intro startingState.1 hgraph ?_
    rw [List.isEmpty_iff.mp hlone.1]
    exact List.forall_mem_nil _
  · intro f hf
    obtain rfl : f = ("descend", descendingState.1) := List.mem_singleton.mp hf
    refine .intro descendingState.1 hfunction ?_
    rw [List.isEmpty_iff.mp hlone.2]
    exact List.forall_mem_nil _

/-- No node of the two graphs waits, and they have ids of their own. -/
theorem startingFrame_awake : (startingFrame.All fun n => ∀ h x, n.node? h = some x →
      x.behavior ≠ .delay) ∧ startingFrame.All descendingState.1.toNetwork.Owns := by
  have hnodes : (∀ e ∈ descendingState.1.nodes.toList, e.2.behavior ≠ .delay) ∧
      (∀ e ∈ startingState.1.nodes.toList, e.2.behavior ≠ .delay) ∧
      startingState.1.id ≠ descendingState.1.id := by decide +kernel
  obtain ⟨hfunction, hgraph, hne⟩ := hnodes
  constructor
  · refine startingFrame_all (fun h x hx => ?_) fun h x hx => ?_
    · exact hfunction (h, x) ((Arena.mem_toList_iff _ h x).mpr hx)
    · exact hgraph (h, x) ((Arena.mem_toList_iff _ h x).mpr hx)
  · exact startingFrame_all (fun _ => rfl) fun hid => absurd hid hne

/-- The call with true has published its argument when it comes to the node that calls again,
    and this node returns with another argument in the slot. -/
theorem outerSite_executes :
    outerState.store.cell descendingState.1.id argumentSlot = .bool true ∧
      outerSite.node?.map (·.behavior) = some (.invokeFunction "descend") ∧
      ∃ v, (outerSite.execute (Frame.runChain 10) (.invokeFunction "descend")).Returns
          outerState () v ∧
        v.store.cell descendingState.1.id argumentSlot = .bool false := by
  have hrun : outerState.store.cell descendingState.1.id argumentSlot = .bool true ∧
      outerSite.node?.map (·.behavior) = some (.invokeFunction "descend") ∧
      (outerSite.execute (Frame.runChain 10) (.invokeFunction "descend")
        outerState).result?.bind Except.toOption = some () ∧
      (outerSite.execute (Frame.runChain 10) (.invokeFunction "descend")
        outerState).state.store.cell descendingState.1.id argumentSlot = .bool false := by
    decide +kernel
  obtain ⟨hbefore, hbehavior, hresult, hafter⟩ := hrun
  refine ⟨hbefore, hbehavior, ?_⟩
  obtain ⟨result, hdone, hok⟩ := Option.bind_eq_some_iff.mp hresult
  obtain ⟨v, hv⟩ := Process.eq_done_of_result? _ _ hdone
  cases result with
  | error e => cases hok
  | ok _ =>
    rw [hv] at hafter
    refine ⟨v, ?_, hafter⟩
    unfold Exec.Returns
    rw [hv]
    exact (Process.ends_done_iff _ _ _ _).mpr ⟨rfl, rfl⟩

/-- The second execution of the entry has published false. -/
theorem arguments_after_call_descending :
    ∃ v, (outerSite.execute (Frame.runChain 10) (.invokeFunction "descend")).Returns
        outerState () v ∧
      ∃ value w callee entry vs,
        outerSite.Calls "descend" outerState value w callee entry vs ∧
        v.store.cell descendingState.1.id argumentSlot
          = (lastOf (Visit.argument? descendingState.1.id ⟨0, 0⟩ 0) vs).getD (.bool true) := by
  obtain ⟨hbefore, hbehavior, v, hreturns, _⟩ := outerSite_executes
  obtain ⟨y, hy, hb⟩ := Option.map_eq_some_iff.mp hbehavior
  obtain ⟨value, w, callee, entry, vs, hcalls, hafter⟩ := arguments_after_call descendingEngine
    startingState.1 { entry := .event "go" } startingState.2
    startingState_ofLibrary.1 startingState_ofLibrary.2
    (List.forall_mem_singleton.mpr descendingState_ofLibrary) outerSite startingFrame_spawns y
    hy "descend" hb 10 outerState v hreturns
  refine ⟨v, hreturns, value, w, callee, entry, vs, hcalls, ?_⟩
  have hentry : (descendingState.1.node? ⟨0, 0⟩).map (fun x =>
        (x.behavior, x.portIndex "args" 0, x.ports.length))
          = some (.functionInput "descend", some 0, 2) ∧
      outerState.store.rowSize descendingState.1.id 0 = some 2 := by decide +kernel
  obtain ⟨hnode, hrow⟩ := hentry
  obtain ⟨x, hx, heq⟩ := Option.map_eq_some_iff.mp hnode
  simp only [Prod.mk.injEq] at heq
  obtain ⟨hname, hslot, hlength⟩ := heq
  have hspares : ∀ visit ∈ vs, visit.Spares descendingState.1.id argumentSlot := by
    obtain ⟨t, hhistory, _⟩ := hcalls.activation
    have hawake : outerSite.frame.All _ := startingFrame_spawns.all startingFrame_awake.1
    have hfunction : outerSite.function? "descend" = some callee := hcalls.function
    have hframes := hhistory.frames
      ⟨hawake.function? "descend" callee hfunction, hawake.library⟩
    exact fun visit hvisit z hz hdelay =>
      absurd hdelay ((hframes visit hvisit).graph.network visit.site.node z hz)
  have hcell := (hafter descendingState.1.toNetwork x argumentSlot 0
    ⟨hx, ⟨_, hname⟩, hslot⟩ startingFrame_awake.2 (by rw [hlength]; exact hrow) hspares).1
  rw [hbefore] at hcell
  exact hcell

/-- The argument of a call is not there any more when the function has called itself, and it is
    the argument of the inner call that the outer one answers. -/
theorem arguments_overwritten :
    startingFrame.Spawns outerFrame ∧ outerFrame.call.arguments = [.bool true] ∧
      outerSite.node?.map (·.behavior) = some (.invokeFunction "descend") ∧
      outerState.store.cell descendingState.1.id argumentSlot = .bool true ∧
      (∃ v, (outerSite.execute (Frame.runChain 10) (.invokeFunction "descend")).Returns
          outerState () v ∧
        v.store.cell descendingState.1.id argumentSlot = .bool false) ∧
      ((start 10 descendingEngine startingState.1 { entry := .event "go" }
          startingState.2).result?.bind Except.toOption).map (fun o => (o.trace, o.returned))
        = some (["go", "call", "in", "test", "again", "in", "test", "out", "answer"],
          some (.bool false)) := by
  obtain ⟨hbefore, hbehavior, hafter⟩ := outerSite_executes
  exact ⟨startingFrame_spawns, rfl, hbehavior, hbefore, hafter, by decide +kernel⟩

end Dispatch
end FlowGraph
