import FlowGraph.Proofs.Validation.Faithful

/-! # Cycles that are reported

    Making links gathers, for every node, the distinct other nodes with a data link into it;
    the report gathers the same by positions.  As both see the same links in the same order,
    the dependency relation that linking gives is the one of the report
    (`Faithful.dependencies_eq`), and so is the first cycle (`reports_cycle_iff`). -/

namespace FlowGraph

open Validation

/-! ## Section 1: Dependencies by positions -/

/-- What a node depends on when one more link is made. -/
def gather (h : NodeHandle) (found : List NodeHandle) : NewLink → List NodeHandle
  | .control _ _ => found
  | .data target link =>
    if target.node = h && link.source.node ≠ h && !found.contains link.source.node then
      found ++ [link.source.node]
    else found

theorem gather_data (h : NodeHandle) (found : List NodeHandle) (target : PortAddress)
    (link : PortLink) : gather h found (.data target link) =
      if target.node = h && link.source.node ≠ h && !found.contains link.source.node then
        found ++ [link.source.node]
      else found := rfl

namespace Network

theorem makeLink_gathers (n : Network) (link : NewLink) (h : NodeHandle) (x : GraphNode)
    (hx : n.node? h = some x) :
    ∃ y, (n.makeLink link).node? h = some y ∧ y.dependencies = gather h x.dependencies link := by
  cases link with
  | control source target =>
    have hget : (n.makeLink (.control source target)).node? h = _ := Arena.get?_modify ..
    rw [hget]
    split
    · rename_i hh
      have hx' : n.nodes.get? source.node = some x := hh ▸ hx
      rw [hx']
      exact ⟨_, rfl, rfl⟩
    · exact ⟨x, hx, rfl⟩
  | data target link =>
    have hget : (n.makeLink (.data target link)).node? h = _ := Arena.get?_modify ..
    rw [hget, gather_data]
    split
    · rename_i hh
      have hx' : n.nodes.get? target.node = some x := hh ▸ hx
      rw [hx']
      refine ⟨_, rfl, ?_⟩
      unfold linkInput
      dsimp only
      subst hh
      by_cases hself : link.source.node = target.node
      · simp [hself, GraphNode.modifyPort]
      · by_cases hfound : x.dependencies.contains link.source.node
        · simp_all [GraphNode.modifyPort]
        · simp_all [GraphNode.modifyPort]
    · rename_i hh
      refine ⟨x, hx, ?_⟩
      rw [if_neg (by simp [Ne.symm hh])]

/-- Making links gathers the sources of the links into each node. -/
theorem makeLinks_gathers (n : Network) (links : List NewLink) (h : NodeHandle) (x : GraphNode)
    (hx : n.node? h = some x) :
    ∃ y, (n.makeLinks links).1.node? h = some y ∧
      y.dependencies = links.foldl (gather h) x.dependencies := by
  induction links generalizing n x with
  | nil => exact ⟨x, hx, rfl⟩
  | cons link rest ih =>
    obtain ⟨y, hy, hgathered⟩ := n.makeLink_gathers link h x hx
    obtain ⟨z, hz, hrest⟩ := ih (n.makeLink link) y hy
    exact ⟨z, hz, by rw [hrest, hgathered, List.foldl_cons]⟩

theorem indexOf_inj (n : Network) (hn : n.Sound) (h k : NodeHandle) (i j : Nat)
    (hi : n.indexOf h = some i) (hj : n.indexOf k = some j) : i = j ↔ h = k := by
  have hi' := (n.indexOf_eq_some_iff hn h i).mp hi
  have hj' := (n.indexOf_eq_some_iff hn k j).mp hj
  constructor
  · rintro rfl
    rw [hi'] at hj'
    exact Option.some.inj hj'
  · rintro rfl
    rw [hi] at hj
    exact Option.some.inj hj

/-- A link between two nodes that are there. -/
def Joins (n : Network) : NewLink → Prop
  | .control _ _ => True
  | .data target link => ∃ s t, n.indexOf link.source.node = some s ∧ n.indexOf target.node = some t

/-- What is gathered by handles is gathered by positions as well. -/
theorem gather_positions (n : Network) (hn : n.Sound) (h : NodeHandle) (i : Nat)
    (hi : n.indexOf h = some i) (links : List NewLink) (hlinks : ∀ link ∈ links, n.Joins link)
    (found : List NodeHandle) (hfound : ∀ k ∈ found, ∃ j, n.indexOf k = some j) :
    (links.foldl (gather h) found).filterMap n.indexOf
      = (links.filterMap (NewLink.positions n)).foldl (fun found e =>
          if e.2 = i && e.1 ≠ i && !found.contains e.1 then found ++ [e.1] else found)
          (found.filterMap n.indexOf) := by
  induction links generalizing found with
  | nil => rfl
  | cons link rest ih =>
    have hrest : ∀ link ∈ rest, n.Joins link :=
      fun l hl => hlinks l (List.mem_cons_of_mem link hl)
    have hlink := hlinks link List.mem_cons_self
    rw [List.foldl_cons, List.filterMap_cons]
    cases link with
    | control source target => exact ih hrest found hfound
    | data target link =>
      obtain ⟨s, t, hs, ht⟩ := hlink
      have hpositions : (NewLink.data target link).positions n = some (s, t) := by
        simp [NewLink.positions, hs, ht]
      -- the conditions say the same of positions as of handles
      have htarget : t = i ↔ target.node = h := n.indexOf_inj hn _ _ t i ht hi
      have hsource : s = i ↔ link.source.node = h := n.indexOf_inj hn _ _ s i hs hi
      have hcontains : s ∈ found.filterMap n.indexOf ↔ link.source.node ∈ found := by
        rw [List.mem_filterMap]
        constructor
        · rintro ⟨k, hk, hks⟩
          rw [← (n.indexOf_inj hn _ _ s s hks hs).mp rfl]
          exact hk
        · exact fun hk => ⟨_, hk, hs⟩
      rw [hpositions, List.foldl_cons, gather_data]
      by_cases hnew : (target.node = h ∧ link.source.node ≠ h) ∧ link.source.node ∉ found
      · have hstep := ih hrest (found ++ [link.source.node]) fun k hk => by
          rcases List.mem_append.mp hk with hk | hk
          · exact hfound k hk
          · rw [List.mem_singleton.mp hk]
            exact ⟨s, hs⟩
        rw [if_pos (by simpa using hnew), hstep, List.filterMap_append]
        rw [if_pos (by simpa [htarget, hsource, hcontains] using hnew)]
        simp [hs]
      · rw [if_neg (by simpa using hnew), ih hrest found hfound]
        rw [if_neg (by simpa [htarget, hsource, hcontains] using hnew)]

end Network

namespace Faithful

variable {registry : Registry} {data : GraphData} {n : Network}

/-- Valid links are between nodes that are there. -/
theorem joins (hn : Faithful registry data n) (conversions : Conversions) (link : NewLink)
    (hlink : link ∈ Network.validLinks (n.checkAll conversions)) : n.Joins link := by
  obtain ⟨source, c, input, ⟨x, hx, _⟩, ⟨_, y, hy, _⟩, hnew⟩ :=
    n.checkAll_ok conversions link ((Network.mem_validLinks _ link).mp hlink)
  rcases hnew with rfl | ⟨compatibility, rfl⟩
  · trivial
  · obtain ⟨s, hs, _⟩ := n.exists_indexOf hn.carries.sound source.node x hx
    obtain ⟨t, ht, _⟩ := n.exists_indexOf hn.carries.sound input.node y hy
    exact ⟨s, t, hs, ht⟩

/-- The live form of a saved node after linking, and what it depends on. -/
theorem linked (hn : Faithful registry data n) (conversions : Conversions) {i : Nat}
    {d : NodeData} {h : NodeHandle} {x : GraphNode} (hx : Stands registry data n i d h x) :
    ∃ y, (n.link conversions).1.placed[i]? = some (h, y) ∧ y.guid = x.guid ∧
      y.descriptor = x.descriptor ∧
      y.dependencies.filterMap (n.link conversions).1.indexOf
        = sourcesOf ((dataLinks (checks registry conversions data)).filterMap
            (endsOf data.nodes)) i := by
  have hunlinked : n.unlinked.node? h = some x.unlinked := by
    rw [n.node?_unlinked, hx.node]
    rfl
  obtain ⟨y, hy, hgathered⟩ := n.unlinked.makeLinks_gathers
    (Network.validLinks (n.unlinked.checkAll conversions)) h x.unlinked hunlinked
  have horder := n.link_order conversions
  have hsound := n.link_sound conversions hn.carries.sound
  obtain ⟨y', hy', hsame⟩ := Network.node?_of_unlinked_eq (m := (n.link conversions).1)
    (n.link_unlinked conversions) h x hx.node
  have hyy : y' = y := by
    have hlinked : (n.link conversions).1.node? h = some y := hy
    rw [hlinked] at hy'
    exact (Option.some.inj hy').symm
  rw [hyy] at hsame
  -- links do not move nodes
  have hindices : (n.link conversions).1.indexOf = n.unlinked.indexOf := by
    funext k
    show List.findIdx? _ (n.link conversions).1.order = List.findIdx? _ n.order
    rw [horder]
  refine ⟨y, ?_, ?_, ?_, ?_⟩
  · exact Network.placed_getElem? _ hsound i h y (by rw [horder]; exact hx.order) hy
  · show y.unlinked.guid = x.unlinked.guid
    rw [hsame]
  · show y.unlinked.descriptor = x.unlinked.descriptor
    rw [hsame]
  · have hgather := n.unlinked.gather_positions hn.unlinked.carries.sound h i
      (hn.stands hx).2.2.1 _ (hn.unlinked.joins conversions) [] fun k hk => by cases hk
    have hnone : x.unlinked.dependencies = [] := rfl
    rw [hindices, hgathered, hnone, hgather, filterMap_positions, hn.unlinked.ends conversions,
      filterMap_endsOf]
    rfl

/-- **Same dependencies.**  Linking gives the dependency relation that the report sees. -/
theorem dependencies_eq (hn : Faithful registry data n) (conversions : Conversions) :
    (n.link conversions).1.dependencies = needed registry conversions data := by
  have hsound := n.link_sound conversions hn.carries.sound
  have hlength : (n.link conversions).1.placed.length = data.nodes.length := by
    have hsame := congrArg List.length ((n.link conversions).1.map_fst_placed hsound)
    rw [n.link_order conversions, ← n.map_fst_placed hn.carries.sound] at hsame
    simpa [hn.carries.nodes.length_eq] using hsame
  -- both graphs number their nodes by position
  have hplaced : ∀ (i : Nat) d e, data.nodes[i]? = some d →
      (n.link conversions).1.placed[i]? = some e → e.2.guid = d.guid ∧
        decide (e.2.descriptor.path = .forward) = isForward (declared registry data.nodes) d ∧
        e.2.dependencies.filterMap (n.link conversions).1.indexOf
          = sourcesOf ((dataLinks (checks registry conversions data)).filterMap
              (endsOf data.nodes)) i := by
    intro i d e hd he
    obtain ⟨h, x, _, horder, hnode, hdx⟩ := hn.carries.live i d hd
    have hx : Stands registry data n i d h x := ⟨hd, horder, hnode, hdx⟩
    obtain ⟨y, hy, hguid, hdescriptor, hdependencies⟩ := hn.linked conversions hx
    rw [he] at hy
    cases hy
    obtain ⟨hsaved, _, _, _, hfind, _⟩ := hn.stands hx
    refine ⟨hguid.trans hsaved, ?_, hdependencies⟩
    unfold isForward
    rw [hdescriptor, hfind]
  have hedges : (n.link conversions).1.placed.map
      (fun e => e.2.dependencies.filterMap (n.link conversions).1.indexOf)
      = (List.range data.nodes.length).map (sourcesOf
          ((dataLinks (checks registry conversions data)).filterMap (endsOf data.nodes))) := by
    refine List.ext_getElem (by simp [hlength]) fun i hi hi' => ?_
    rw [List.getElem_map, List.getElem_map, List.getElem_range]
    have hlt : i < data.nodes.length := by simpa using hi'
    exact (hplaced i _ _ (List.getElem?_eq_getElem hlt) (List.getElem?_eq_getElem _)).2.2
  have hall : List.Forall₂ (fun d e => d.guid = e.2.guid ∧
      isForward (declared registry data.nodes) d = decide (e.2.descriptor.path = .forward))
      data.nodes (n.link conversions).1.placed := by
    refine forall₂_of_getElem? hlength.symm fun i d e hd he => ?_
    obtain ⟨hguid, hforward, _⟩ := hplaced i d e hd he
    exact ⟨hguid.symm, hforward.symm⟩
  have hforward : data.nodes.map (isForward (declared registry data.nodes))
      = (n.link conversions).1.placed.map fun e => decide (e.2.descriptor.path = .forward) :=
    map_eq_of_forall₂ (hall.imp fun _ _ h => h.2)
  have hnames : data.nodes.map (·.guid) = (n.link conversions).1.placed.map fun e => e.2.guid :=
    map_eq_of_forall₂ (hall.imp fun _ _ h => h.1)
  unfold Network.dependencies needed dependencies
  rw [hedges, hforward, hnames]

end Faithful

/-! ## Section 2: The report and the compiler -/

namespace Validation

/-- The parts of a report. -/
inductive ReportPart where
  | guids
  | types
  | connections
  | cycles
  deriving DecidableEq

end Validation

/-- The part of a report that lists such a problem. -/
def ValidationError.part : ValidationError → ReportPart
  | .duplicateGuid _ => .guids
  | .unknownNodeType _ _ => .types
  | .unknownNode _ _ => .connections
  | .unknownPort _ _ _ => .connections
  | .connectionOnInput _ _ => .connections
  | .incompatiblePorts _ _ _ => .connections
  | .circularDependency _ => .cycles

namespace Validation

theorem part_of_mem_repeatedGuids {e : ValidationError} {seen : List String}
    {nodes : List NodeData} (h : e ∈ repeatedGuids seen nodes) : e.part = .guids := by
  induction nodes generalizing seen with
  | nil => cases h
  | cons n rest ih =>
    rcases List.mem_append.mp h with h | h
    · split at h
      · rw [List.mem_singleton.mp h]
        rfl
      · cases h
    · exact ih h

/-- A node without a descriptor is one of an unknown type. -/
theorem declare_eq_error {registry : Registry} {n : NodeData} {e : ValidationError}
    (h : declare registry n = .error e) : ∃ type, e = .unknownNodeType n.guid type := by
  unfold declare at h
  split at h
  · cases h
    exact ⟨_, rfl⟩
  · split at h
    · cases h
    · cases h
      exact ⟨_, rfl⟩

theorem mem_undeclared_iff (registry : Registry) (nodes : List NodeData) (e : ValidationError) :
    e ∈ undeclared registry nodes ↔ ∃ n ∈ nodes, declare registry n = .error e := by
  unfold undeclared
  rw [List.mem_filterMap]
  refine exists_congr fun n => and_congr_right fun _ => ?_
  cases declare registry n with
  | ok d => simp
  | error e' => simp

theorem part_of_mem_undeclared {registry : Registry} {nodes : List NodeData} {e : ValidationError}
    (h : e ∈ undeclared registry nodes) : e.part = .types := by
  obtain ⟨n, _, hn⟩ := (mem_undeclared_iff registry nodes e).mp h
  obtain ⟨type, rfl⟩ := declare_eq_error hn
  rfl

theorem part_of_checkConnection {g : GraphData} {ds : Declared} {conversions : Conversions}
    {guid : String} {output : Option PortDescriptor} {c : PortConnection} {e : ValidationError}
    (h : checkConnection g ds conversions guid output c = .error e) : e.part = .connections := by
  unfold checkConnection at h
  split at h
  · cases h
    rfl
  · split at h
    · cases h
    · split at h
      · cases h
        rfl
      · split at h
        · cases h
        · split at h
          · cases h
            rfl
          · cases h

theorem part_of_mem_badConnections {g : GraphData} {ds : Declared} {conversions : Conversions}
    {e : ValidationError} (h : e ∈ badConnections (checkAll g ds conversions)) :
    e.part = .connections := by
  obtain ⟨checked, hchecked, heq⟩ := List.mem_filterMap.mp h
  cases checked with
  | ok link => cases heq
  | error e' =>
    cases heq
    obtain ⟨n, _, hn⟩ := List.mem_flatMap.mp hchecked
    obtain ⟨r, _, hr⟩ := List.mem_flatMap.mp hn
    unfold checkRecord at hr
    split at hr
    · cases hr
    · split at hr
      · obtain ⟨c, _, hc⟩ := List.mem_map.mp hr
        exact part_of_checkConnection hc
      · split at hr
        · cases List.mem_singleton.mp hr
          rfl
        · split at hr
          · cases List.mem_singleton.mp hr
            rfl
          · obtain ⟨c, _, hc⟩ := List.mem_map.mp hr
            exact part_of_checkConnection hc

theorem part_of_mem_cycles {d : Dependencies} {e : ValidationError} (h : e ∈ cycles d) :
    e.part = .cycles := by
  unfold cycles at h
  split at h
  · rw [List.mem_singleton.mp h]
    rfl
  · cases h

/-- The problems that a part of the report lists. -/
def listed (registry : Registry) (conversions : Conversions) (g : GraphData) :
    ReportPart → List ValidationError
  | .guids => repeatedGuids [] g.nodes
  | .types => undeclared registry g.nodes
  | .connections => badConnections (checkAll g (declared registry g.nodes) conversions)
  | .cycles => cycles (needed registry conversions g)

theorem part_of_mem_listed {registry : Registry} {conversions : Conversions} {g : GraphData}
    {part : ReportPart} {e : ValidationError} (h : e ∈ listed registry conversions g part) :
    e.part = part := by
  cases part with
  | guids => exact part_of_mem_repeatedGuids h
  | types => exact part_of_mem_undeclared h
  | connections => exact part_of_mem_badConnections h
  | cycles => exact part_of_mem_cycles h

/-- A problem is reported just if its own part of the report lists it. -/
theorem mem_ofNetwork_iff (registry : Registry) (conversions : Conversions) (g : GraphData)
    (e : ValidationError) :
    e ∈ ofNetwork registry conversions g ↔ e ∈ listed registry conversions g e.part := by
  have hsplit : ofNetwork registry conversions g
      = listed registry conversions g .guids
        ++ listed registry conversions g .types
        ++ listed registry conversions g .connections
        ++ listed registry conversions g .cycles := rfl
  rw [hsplit]
  simp only [List.mem_append]
  constructor
  · intro h
    obtain ⟨part, hpart⟩ : ∃ part, e ∈ listed registry conversions g part := by
      rcases h with ((h | h) | h) | h
      · exact ⟨_, h⟩
      · exact ⟨_, h⟩
      · exact ⟨_, h⟩
      · exact ⟨_, h⟩
    rw [part_of_mem_listed hpart]
    exact hpart
  · intro h
    generalize e.part = part at h
    cases part with
    | guids => exact .inl (.inl (.inl h))
    | types => exact .inl (.inl (.inr h))
    | connections => exact .inl (.inr h)
    | cycles => exact .inr h

/-- Unknown types are reported for nodes without a descriptor only. -/
theorem mem_ofNetwork_of_types (registry : Registry) (conversions : Conversions) (g : GraphData)
    {e : ValidationError} (he : e.part = .types) :
    e ∈ ofNetwork registry conversions g ↔ ∃ n ∈ g.nodes, declare registry n = .error e := by
  rw [mem_ofNetwork_iff, he]
  exact mem_undeclared_iff registry g.nodes e

/-- Only the search for cycles reports one. -/
theorem circular_mem_ofNetwork_iff (registry : Registry) (conversions : Conversions)
    (g : GraphData) (chain : List String) :
    .circularDependency chain ∈ ofNetwork registry conversions g ↔
      (needed registry conversions g).paths = .error (.circularDependency chain) := by
  rw [mem_ofNetwork_iff]
  show _ ∈ cycles (needed registry conversions g) ↔ _
  unfold cycles
  split
  · rename_i found hfound
    rw [hfound]
    simp [eq_comm]
  · rename_i hnone
    constructor
    · intro h
      cases h
    · exact fun h => absurd h (hnone chain)

end Validation

namespace Graph

/-- A graph without known paths and functions fails to compile for a cycle only. -/
theorem compile_error_iff (g : Graph) (conversions : Conversions) (s : Store) (e : GraphError)
    (hpaths : g.paths = none) (hlocal : g.functions = []) :
    (g.compile conversions s).1.2 = .error e ↔
      (g.link conversions).1.dependencies.paths = .error e := by
  have hfind : findPaths (g.link conversions).1 = (g.link conversions).1.dependencies.paths.map
      fun paths => { (g.link conversions).1 with paths := some paths } := by
    have hnone := g.link_paths conversions
    rw [hpaths] at hnone
    unfold findPaths
    rw [hnone]
  cases hfound : (g.link conversions).1.dependencies.paths with
  | error e' =>
    rw [hfound] at hfind
    rw [(g.compile_cycle conversions s e' hfind).2.2]
    simp
  | ok ps =>
    rw [hfound] at hfind
    obtain ⟨network, groups, functions, compiled⟩ := g
    cases hlocal
    obtain ⟨t, ht⟩ : ∃ t, prepare conversions network s
        = (((network.link conversions).1, (network.link conversions).2.1), t) := ⟨_, rfl⟩
    have hok : (compile conversions ⟨network, groups, [], compiled⟩ s).1.2 = .ok () := by
      unfold compile
      simp only [bind, StateT.bind, ht, hfind]
      rfl
    rw [hok]
    simp

/-- **Main theorem: one notion of a cycle.**  Take a saved graph without functions, with
    guids that are distinct and not empty and slots below the limit, all of whose nodes are
    live when it is hydrated with well-formed types.  A cycle is reported about it exactly
    when compiling it fails for this cycle. -/
theorem reports_cycle_iff (registry : Registry) (conversions : Conversions) (data : GraphData)
    (s t : Store) (hlocal : data.functions = [])
    (hnodup : (data.nodes.map (·.guid)).Nodup) (hnamed : ∀ d ∈ data.nodes, d.guid ≠ "")
    (hbelow : ∀ d ∈ data.nodes, ∀ r ∈ d.ports, r.index < maxArraySlots ∧
      ∀ c ∈ r.connections, c.portIndex < maxArraySlots)
    (hlive : ∀ e ∈ (ofData registry data s).1.placed, e.2.isPlaceholder = false)
    (hwell : registry.WellFormed) (chain : List String) :
    .circularDependency chain ∈ data.validate registry conversions ↔
      ((ofData registry data s).1.compile conversions t).1.2
        = .error (.circularDependency chain) := by
  obtain ⟨hcarries, hopened⟩ := placeAll_carries registry data s hnodup
    fun d hd hnone => absurd hnone (hnamed d hd)
  have hnetwork : (ofData registry data s).1.toNetwork = (placeAll registry data s).1.toNetwork := by
    rw [ofData_eq]
  have hfaithful : Faithful registry data (ofData registry data s).1.toNetwork := by
    rw [hnetwork] at hlive ⊢
    refine ⟨hnodup, hnamed, fun d hd => hwell.declare_of_live d ?_, hbelow, hcarries, hopened⟩
    obtain ⟨i, hi⟩ := List.mem_iff_getElem?.mp hd
    obtain ⟨h, x, hplaced, _, _, hdx⟩ := hcarries.live i d hi
    have hx := hlive _ (List.mem_of_getElem? hplaced)
    unfold GraphNode.isPlaceholder at hx
    rw [hdx.invalid] at hx
    exact hx
  have hfunctions : (ofData registry data s).1.functions = [] := by
    rw [ofData_eq, hlocal]
    rfl
  have hreport : data.validate registry conversions = ofNetwork registry conversions data := by
    obtain ⟨name, nodes, vars, groups, functions⟩ := data
    cases hlocal
    unfold GraphData.validate GraphData.validateFunctions
    rw [List.append_nil]
  rw [hreport, circular_mem_ofNetwork_iff,
    compile_error_iff _ conversions t _ (ofData_fresh registry data s).paths hfunctions,
    hfaithful.dependencies_eq conversions]

/-- Two sums that need each other, and a literal that the first of them needs. -/
def circular : GraphData where
  name := "circular"
  nodes := [
    { guid := "one", type := "Ceres.Values.Literal", genericArguments := ["int"],
      ports := [{ name := "value", connections := [⟨"x", "b", 0⟩] }] },
    { guid := "x", type := "Ceres.Math.Add",
      ports := [{ name := "result", connections := [⟨"y", "a", 0⟩] }] },
    { guid := "y", type := "Ceres.Math.Add",
      ports := [{ name := "result", connections := [⟨"x", "a", 0⟩] }] }]

theorem reports_cycle_iff_circular :
    circular.functions = [] ∧ (circular.nodes.map (·.guid)).Nodup ∧
      (∀ d ∈ circular.nodes, d.guid ≠ "") ∧
      (∀ d ∈ circular.nodes, ∀ r ∈ d.ports, r.index < maxArraySlots ∧
        ∀ c ∈ r.connections, c.portIndex < maxArraySlots) ∧
      (∀ e ∈ (ofData Registry.builtin circular default).1.placed, e.2.isPlaceholder = false) ∧
      Registry.builtin.WellFormed ∧
      .circularDependency ["x", "y", "x"] ∈ circular.validate Registry.builtin .standard ∧
      ((ofData Registry.builtin circular default).1.compile .standard default).1.2
        = .error (.circularDependency ["x", "y", "x"]) := by
  have hbelow : ∀ d ∈ circular.nodes, ∀ r ∈ d.ports, r.index < maxArraySlots ∧
      ∀ c ∈ r.connections, c.portIndex < maxArraySlots := by decide +kernel
  have hlive : ∀ e ∈ (ofData Registry.builtin circular default).1.placed,
      e.2.isPlaceholder = false := by decide +kernel
  have hreported : .circularDependency ["x", "y", "x"]
      ∈ circular.validate Registry.builtin .standard := by decide +kernel
  refine ⟨rfl, by decide, by decide, hbelow, hlive, Registry.builtin_wellFormed, hreported, ?_⟩
  exact (reports_cycle_iff Registry.builtin .standard circular default default rfl (by decide)
    (by decide) hbelow hlive Registry.builtin_wellFormed _).mp hreported

end Graph
end FlowGraph
