import FlowGraph.Proofs.Reordering.Execution

/-! # Dependency paths under other names

    The path of a node lists what the node needs and nothing else
    (`Network.reaches_of_mem_dependencyPath`).  So the paths of a node in two alike networks list the
    same nodes, in whatever order (`Network.PathsAlike.perm`).

    Both orders put a node behind what it needs, and then every output of the path has the
    value that recursion along the links gives for it (`Pulled`).  Recursion does not depend
    on the order (`Pulled.alike`), which is why states are alike again once the paths have
    been executed (`Frame.Alike.path`).  Their traces differ, but only in nodes of the paths. -/

namespace FlowGraph

open Relation

variable {ren : Renaming}

/-! ## Section 1: What a path lists -/

/-- A path lists nothing but what the node needs, directly or through others. -/
theorem Network.reaches_of_mem_dependencyPath (n : Network) (hn : n.Sound) (hc : n.Coherent)
    (h : NodeHandle) (x : GraphNode) (hx : n.node? h = some x) (path : List NodeHandle)
    (hpath : n.dependencyPath h = .ok path) (m : NodeHandle) (hm : m ∈ path) :
    TransGen n.NeedsNode h m := by
  obtain ⟨ps, hps, hpaths⟩ := hc
  obtain ⟨i, hi, hget⟩ := n.exists_indexOf hn h x hx
  have hlt : i < n.dependencies.size := by
    rw [n.dependencies_size hn]
    exact (List.getElem?_eq_some_iff.mp hget).1
  obtain ⟨p, hp, hpathFor⟩ := Dependencies.pathFor_of_paths n.dependencies ps hpaths i hlt
  unfold dependencyPath at hpath
  rw [hps, hi] at hpath
  cases hpath
  simp only [hp, Option.getD_some] at hm
  obtain ⟨j, hj, hjm⟩ := List.mem_filterMap.mp hm
  have hreach := (Dependencies.mem_pathFor_iff n.dependencies i p (n.dependencies_inRange hn) hlt
    hpathFor j).mp hj
  obtain ⟨k, hk, hreach⟩ := n.transGen_needsNode hn h i j hget hreach
  have hsame : some m = some k := hjm.symm.trans hk
  cases hsame
  exact hreach

/-- What is reached along a relation is reached on the other side, if each step is. -/
theorem transGen_of_related {α β : Type} {R : α → α → Prop} {S : β → β → Prop}
    {N : α → β → Prop} (htotal : ∀ a c, R a c → ∃ d, N c d)
    (hstep : ∀ a b c d, N a b → N c d → R a c → S b d) {a c : α} {b d : β} (hab : N a b)
    (hcd : N c d) (h : TransGen R a c) : TransGen S b d := by
  induction h generalizing d with
  | single hac => exact .single (hstep _ _ _ _ hab hcd hac)
  | @tail u c _ huc ih =>
    obtain ⟨v, huv⟩ : ∃ v, N u v := by
      rename_i hau
      cases hau with
      | single h => exact htotal _ _ h
      | tail _ h => exact htotal _ _ h
    exact (ih huv).tail (hstep _ _ _ _ huv hcd huc)

namespace Network.PathsAlike

variable {n m : Network} (h : n.PathsAlike ren m)

include h

theorem reaches_iff {a c b d : NodeHandle} (hab : ren.node a b) (hcd : ren.node c d) :
    TransGen n.NeedsNode a c ↔ TransGen m.NeedsNode b d := by
  constructor
  · exact transGen_of_related (fun _ c ⟨_, y, _, _, hy, _⟩ => h.total.1 c y hy)
      (fun a b c d hab hcd hac => (h.needs a b c d hab hcd).mp hac) hab hcd
  · exact transGen_of_related (N := fun b a => ren.node a b)
      (fun _ d ⟨_, y, _, _, hy, _⟩ => h.total.2 d y hy)
      (fun b a d c hab hcd hbd => (h.needs a b c d hab hcd).mpr hbd) hab hcd

/-- The paths of a node list the same nodes. -/
theorem perm {a b : NodeHandle} (hab : ren.node a b) (x y : GraphNode) (hx : n.node? a = some x)
    (hy : m.node? b = some y) : ∃ path twins path', n.dependencyPath a = .ok path ∧
      n.IsPath a path ∧ m.dependencyPath b = .ok path' ∧ m.IsPath b path' ∧
      List.Forall₂ ren.node path twins ∧ twins.Perm path' := by
  have hsound := h.consistent.1.sound
  have hsound' := h.consistent.2.sound
  obtain ⟨path, hpath, hispath⟩ := n.dependencyPath_isPath hsound h.coherent.1 a x hx
  obtain ⟨path', hpath', hispath'⟩ := m.dependencyPath_isPath hsound' h.coherent.2 b y hy
  -- every node of the path has a twin
  have htwins : ∀ l : List NodeHandle, (∀ c ∈ l, c ∈ path) →
      ∃ l', List.Forall₂ ren.node l l' := by
    intro l
    induction l with
    | nil => exact fun _ => ⟨[], .nil⟩
    | cons c rest ih =>
      intro hl
      obtain ⟨z, hz, _⟩ := hispath.onDemand c (hl c List.mem_cons_self)
      obtain ⟨d, hcd⟩ := h.total.1 c z hz
      obtain ⟨rest', hrest⟩ := ih fun e he => hl e (List.mem_cons_of_mem c he)
      exact ⟨d :: rest', .cons hcd hrest⟩
  obtain ⟨twins, hforall⟩ := htwins path fun _ hc => hc
  refine ⟨path, twins, path', hpath, hispath, hpath', hispath', hforall, ?_⟩
  have hnodup : twins.Nodup := (List.rel_nodup ren.node_unique hforall).mp hispath.nodup
  refine (List.perm_ext_iff_of_nodup hnodup hispath'.nodup).mpr fun d => ?_
  -- membership is being reached, on both sides
  have hmem : ∀ c, c ∈ path ↔ TransGen n.NeedsNode a c := fun c =>
    ⟨n.reaches_of_mem_dependencyPath hsound h.coherent.1 a x hx path hpath c, hispath.complete c⟩
  have hmem' : ∀ d, d ∈ path' ↔ TransGen m.NeedsNode b d := fun d =>
    ⟨m.reaches_of_mem_dependencyPath hsound' h.coherent.2 b y hy path' hpath' d,
      hispath'.complete d⟩
  constructor
  · intro hd
    obtain ⟨i, hi⟩ := List.mem_iff_getElem?.mp hd
    have hget := rel_getElem? hforall i
    rw [hi] at hget
    generalize hc : path[i]? = c at hget
    cases hget with
    | some hcd =>
      have hreach := (hmem _).mp (List.mem_of_getElem? hc)
      exact (hmem' d).mpr ((h.reaches_iff hab hcd).mp hreach)
  · intro hd
    obtain ⟨z, hz, _⟩ := hispath'.onDemand d hd
    obtain ⟨c, hcd⟩ := h.total.2 d z hz
    have hc := (hmem c).mpr ((h.reaches_iff hab hcd).mpr ((hmem' d).mp hd))
    exact (List.rel_mem ren.node_unique hcd hforall).mp hc

end Network.PathsAlike

/-! ## Section 2: Values by recursion -/

theorem Network.Renamed.slot {n m : Network} (h : n.Renamed ren m) {a b : PortAddress}
    (hab : ren.SlotIn n.id a b) (p : Port) (hp : n.port? a = some p) :
    ∃ q, m.port? b = some q ∧ p.Matches (ren.nodeIn n.id) q := by
  have hport := h.port? hab
  rw [hp] at hport
  generalize hq : m.port? b = q at hport
  cases hport with
  | some hpq => exact ⟨_, rfl, hpq⟩

/-- What a node on demand computes is the same, from the same inputs. -/
theorem Site.Alike.results {site site' : Site} (hsite : site.Alike ren site') {s t : Store}
    (hst : s.Alike ren t) (input : String → Value) (b : Behavior) :
    site'.results t input b = site.results s input b := by
  cases b with
  | getVariable =>
    unfold Site.results
    rw [hsite.variableValue hst]
  | describeTarget =>
    have hchosen : ∀ v, site'.chosen t v = site.chosen s v := by
      intro v
      unfold Site.chosen
      rw [hsite.triggerFor hst, hst.objects]
    unfold Site.results
    rw [hchosen]
  | _ => rfl

/-- Recursion gives related slots the same value. -/
theorem Pulled.alike {frame frame' : Frame} (hframe : frame.Alike ren frame') {s t : Store}
    (hst : s.Alike ren t) {a b : PortAddress} {v : Value} (h : Pulled frame s a v)
    (hab : ren.SlotIn frame.graph.id a b) : Pulled frame' t b v := by
  have hgraph := hframe.graph.toRenamed
  have hcell : ∀ {a b}, ren.SlotIn frame.graph.id a b →
      s.cell frame.graph.id a = t.cell frame'.graph.id b := by
    intro a b hab
    rw [hgraph.id, hst.cell _ a b hab]
  -- a link that is matched comes from a related slot of a node of the same kind
  have hlinked : ∀ {p q : Port} {link : PortLink}, p.Matches (ren.nodeIn frame.graph.id) q →
      p.link = some link → ∃ link', q.link = some link' ∧
        ren.SlotIn frame.graph.id link.source link'.source ∧
        link'.compatibility = link.compatibility := by
    intro p q link hpq hlink
    have hrel := hpq.link
    rw [hlink] at hrel
    generalize hq : q.link = l at hrel
    cases hrel with
    | some hll => exact ⟨_, rfl, ⟨hll.node, hll.port⟩, hll.compatibility⟩
  have howner : ∀ {a b c d : NodeHandle}, ren.nodeIn frame.graph.id a b →
      ren.nodeIn frame.graph.id c d → (a = c ↔ b = d) := fun hab hcd =>
    Relator.rel_eq (Renaming.nodeIn_unique _) hab hcd
  induction h generalizing b with
  | unlinked a p hp hdirection hlink =>
    obtain ⟨q, hq, hpq⟩ := hgraph.slot hab p hp
    rw [hcell hab]
    refine .unlinked b q hq ((hpq.same Port.direction fun _ => rfl).trans hdirection) ?_
    have hrel := hpq.link
    rw [hlink] at hrel
    generalize q.link = l at hrel ⊢
    cases hrel with
    | none => rfl
  | own a p link hp hdirection hlink hnode =>
    obtain ⟨q, hq, hpq⟩ := hgraph.slot hab p hp
    obtain ⟨link', hlink', hsource, hcompatibility⟩ := hlinked hpq hlink
    rw [hcell hsource, ← hst.objects, ← hcompatibility]
    exact .own b q link' hq ((hpq.same Port.direction fun _ => rfl).trans hdirection) hlink'
      ((howner hsource.node hab.node).mp hnode)
  | linked a p link v hp hdirection hlink hother _ ih =>
    obtain ⟨q, hq, hpq⟩ := hgraph.slot hab p hp
    obtain ⟨link', hlink', hsource, hcompatibility⟩ := hlinked hpq hlink
    rw [← hst.objects, ← hcompatibility]
    exact .linked b q link' v hq ((hpq.same Port.direction fun _ => rfl).trans hdirection) hlink'
      (mt (howner hsource.node hab.node).mpr hother) (ih hsource)
  | stored a p x hp hdirection hx hpath =>
    obtain ⟨q, hq, hpq⟩ := hgraph.slot hab p hp
    obtain ⟨y, hy, hxy⟩ := hgraph.found hab.node x hx
    rw [hcell hab]
    exact .stored b q y hq ((hpq.same Port.direction fun _ => rfl).trans hdirection) hy
      (hxy.descriptor ▸ hpath)
  | computed a p x input v hp hdirection hx hpath _ hv ih =>
    obtain ⟨q, hq, hpq⟩ := hgraph.slot hab p hp
    obtain ⟨y, hy, hxy⟩ := hgraph.found hab.node x hx
    have hsite : (Site.mk frame a.node).Alike ren ⟨frame', b.node⟩ := ⟨hframe, hab.node⟩
    refine .computed b q y input v hq ((hpq.same Port.direction fun _ => rfl).trans hdirection) hy
      (hxy.descriptor ▸ hpath) ?_ ?_
    · -- the inputs of the nodes stand at the same positions
      intro i r hr hinput
      have hget := rel_getElem? hxy.ports i
      rw [hr] at hget
      generalize ho : x.ports[i]? = o at hget
      cases hget with
      | some hor =>
        rw [hor.same Port.name fun _ => rfl]
        exact ih i _ ho ((hor.same Port.direction fun _ => rfl).symm.trans hinput)
          ⟨hab.node, rfl⟩
    · rw [hxy.behavior, hsite.results hst, hpq.same Port.name fun _ => rfl]
      exact hv

/-! ## Section 3: What a path leaves alone -/

/-- Only cells of a graph and events differ. -/
structure Store.CellsOnly (g : GraphId) (s t : Store) : Prop where
  own : t = { s with graphs := t.graphs, events := t.events }
  size : t.graphs.size = s.graphs.size
  others : ∀ k, k ≠ g → t.graphs[k]? = s.graphs[k]?
  disposed : t.isDisposed g = s.isDisposed g

namespace Store.CellsOnly

variable {g : GraphId} {s t u : Store}

theorem refl (g : GraphId) (s : Store) (events : Array GraphEvent) :
    s.CellsOnly g { s with events } :=
  ⟨rfl, rfl, fun _ _ => rfl, rfl⟩

theorem trans (hst : s.CellsOnly g t) (htu : t.CellsOnly g u) : s.CellsOnly g u := by
  refine ⟨?_, htu.size.trans hst.size, fun k hk => (htu.others k hk).trans (hst.others k hk),
    htu.disposed.trans hst.disposed⟩
  rw [htu.own, hst.own]

theorem outputs (site : Site) (values : List (String × Value)) (s : Store) :
    s.CellsOnly site.frame.graph.id (site.outputs values s) := by
  induction values generalizing s with
  | nil => exact .refl _ s s.events
  | cons r rest ih =>
    have hfirst : s.CellsOnly site.frame.graph.id (site.output r.1 0 r.2 s) := by
      rcases site.output_cases r.1 r.2 s with heq | ⟨x, i, _, _, heq⟩
      · rw [heq]
        exact .refl _ s s.events
      · rw [heq]
        refine ⟨rfl, Array.size_modify, fun k hk => ?_, s.isDisposed_writeCell _ _ _ _⟩
        unfold Store.writeCell
        rw [Array.getElem?_modify, if_neg (Ne.symm hk)]
    exact hfirst.trans (ih _)

end Store.CellsOnly

/-- What executing nodes on demand leaves alone, and what it counts. -/
structure DispatchState.Onward (g : GraphId) (s t : DispatchState) (guids : List String) :
    Prop where
  store : s.store.CellsOnly g t.store
  steps : t.steps = s.steps + guids.length
  trace : t.trace.toList = s.trace.toList ++ guids
  next : t.next = s.next
  returned : t.returned = s.returned

/-- The nodes of a path are traced and counted; of the store they change cells only. -/
theorem Frame.onward (frame : Frame) (chain : Chain) (path : List NodeHandle)
    (st st' : DispatchState)
    (hpath : ∀ m ∈ path, ∃ x signature, frame.graph.node? m = some x ∧
      x.behavior.signature = some signature)
    (hrun : Exec.forEach path (frame.invoke chain) st = .done (.ok ()) st') :
    ∃ guids, List.Forall₂ (fun m guid => ∃ x, frame.graph.node? m = some x ∧ x.guid = guid)
      path guids ∧ st.Onward frame.graph.id st' guids := by
  induction path generalizing st with
  | nil =>
    cases hrun
    exact ⟨[], .nil, .refl _ _ _, rfl, (List.append_nil _).symm, rfl, rfl⟩
  | cons m rest ih =>
    obtain ⟨_, u, hfirst, hrest⟩ := Exec.bind_eq_done _ _ _ _ _ hrun
    obtain ⟨x, signature, hx, hsignature⟩ := hpath m List.mem_cons_self
    obtain ⟨guids, hguids, honward⟩ := ih u (fun k hk => hpath k (List.mem_cons_of_mem m hk)) hrest
    rcases frame.invoke_onDemand chain m st x hx signature hsignature with
      ⟨started, ended, hok⟩ | ⟨_, _, _, _, herror⟩
    · rw [hok] at hfirst
      cases hfirst
      refine ⟨x.guid :: guids, .cons ⟨x, hx, rfl⟩ hguids, ?_, ?_, ?_, honward.next,
        honward.returned⟩
      · -- events are reported around the writes
        refine (Store.CellsOnly.refl _ _ started).trans (.trans ?_ honward.store)
        exact (Store.CellsOnly.outputs ⟨frame, m⟩ _ _).trans (.refl _ _ ended)
      · rw [honward.steps, List.length_cons]
        dsimp only
        omega
      · rw [honward.trace, Array.toList_push, List.append_assoc, List.singleton_append]
    · rw [herror] at hfirst
      cases hfirst

/-! ## Section 4: Executing paths -/

theorem Network.Renamed.isOutput_iff {n m : Network} (h : n.Renamed ren m) {a b : PortAddress}
    (hab : ren.SlotIn n.id a b) : n.IsOutput a ↔ m.IsOutput b := by
  have hport := h.port? hab
  unfold Network.IsOutput
  generalize n.port? a = p, m.port? b = q at hport
  cases hport with
  | none => simp
  | some hpq => simp [hpq.same Port.direction fun _ => rfl]

/-- There is a cell for every slot of both networks. -/
theorem Network.PathsAlike.ready {n m : Network} (h : n.PathsAlike ren m) (hnm : n.Renamed ren m)
    (hid : n.id = ren.graph) {s t : Store} (hst : s.Alike ren t) (a : NodeHandle) (x : GraphNode)
    (hx : n.node? a = some x) : n.Ready s ∧ m.Ready t := by
  have hnode : ren.nodeIn n.id = ren.node := by
    rw [hid]
    exact Renaming.nodeIn_graph
  have hheld : ∀ c z, n.node? c = some z → s.rowSize n.id c.index = some z.ports.length := by
    intro c z hz
    obtain ⟨d, hcd⟩ := h.total.1 c z hz
    rw [hid, hst.held c d hcd, h.width c d z hcd hz]
  have hheld' : ∀ d z, m.node? d = some z → t.rowSize m.id d.index = some z.ports.length := by
    intro d z hz
    obtain ⟨c, hcd⟩ := h.total.2 d z hz
    have hcd' : ren.nodeIn n.id c d := by rw [hnode]; exact hcd
    cases hnm.node c d hcd' with
    | found u v hu hv huv =>
      have hvz : some v = some z := hv.symm.trans hz
      cases hvz
      rw [hnm.id, hst.rowSize n.id c d hcd', hheld c u hu, huv.ports.length_eq]
    | missing _ _ hnone =>
      have hzero : none = some z := hnone.symm.trans hz
      cases hzero
  have hknown : n.id < s.graphs.size := by
    obtain ⟨state, _, hstate, _⟩ := (s.rowSize_eq_some_iff n.id a.index _).mp (hheld a x hx)
    exact (Array.getElem?_eq_some_iff.mp hstate).1
  have hknown' : m.id < t.graphs.size := by
    rw [hnm.id, hst.graphs]
    exact hknown
  exact ⟨⟨⟨h.consistent.1, hknown, h.fits.1, hheld⟩, h.coherent.1, h.sourced.1⟩,
    ⟨⟨h.consistent.2, hknown', h.fits.2, hheld'⟩, h.coherent.2, h.sourced.2⟩⟩

section Run

variable {frame frame' : Frame} (hframe : frame.Alike ren frame')
  (hid : frame.graph.id = ren.graph) {s t s' t' : Store} (hst : s.Alike ren t)
  {path twins path' : List NodeHandle} (htwins : List.Forall₂ ren.node path twins)
  (hperm : twins.Perm path') (hran : Progress frame s s' path) (hran' : Progress frame' t t' path')

include hframe hid hst htwins hperm hran hran'

/-- Whatever the order was, the cells are alike again. -/
theorem Frame.Alike.cell_behind (a b : PortAddress) (hab : ren.node a.node b.node)
    (hsame : b.port = a.port) : t'.cell ren.graph b = s'.cell ren.graph a := by
  have hgraph := hframe.graph.toRenamed
  have hpaths := hframe.graph.paths hid
  have hslot : ∀ {c d : NodeHandle} {i : Nat}, ren.node c d →
      ren.SlotIn frame.graph.id ⟨c, i⟩ ⟨d, i⟩ := by
    intro c d i hcd
    refine ⟨?_, rfl⟩
    rw [hid, Renaming.nodeIn_graph]
    exact hcd
  rw [← hid]
  by_cases hwritten : ∃ c ∈ path, c.index = a.node.index ∧ frame.graph.IsOutput ⟨c, a.port⟩
  · -- the output has the value that recursion gives for it
    obtain ⟨c, hc, hindex, houtput⟩ := hwritten
    obtain ⟨i, hi⟩ := List.mem_iff_getElem?.mp hc
    obtain ⟨d, hd, hcd⟩ := exists_right_of_forall₂ htwins i c hi
    have hindex' : d.index = b.node.index := (ren.index_iff _ _ _ _ hcd hab).mp hindex
    have hvalue := (hran.pulled c hc a.port houtput).alike hframe hst (hslot hcd)
    have hvalue' := hran'.pulled d (hperm.mem_iff.mp (List.mem_of_getElem? hd)) a.port
      ((hgraph.isOutput_iff (hslot hcd)).mp houtput)
    have hunique := pulled_unique frame' t hpaths.fits.2 _ _ _ hvalue hvalue'
    have hcell : s'.cell frame.graph.id a = s'.cell frame.graph.id ⟨c, a.port⟩ := by
      unfold Store.cell
      rw [hindex]
    have hcell' : t'.cell frame.graph.id b = t'.cell frame'.graph.id ⟨d, a.port⟩ := by
      unfold Store.cell
      rw [hindex', hsame, hgraph.id]
    rw [hcell, hcell', hunique]
  · -- neither side has changed the cell
    have hkept : s'.cell frame.graph.id a = s.cell frame.graph.id a := by
      by_contra hne
      exact hwritten (hran.changed _ a hne).2
    have hkept' : t'.cell frame.graph.id b = t.cell frame.graph.id b := by
      by_contra hne
      obtain ⟨_, d, hd, hindex, houtput⟩ := hran'.changed _ b hne
      obtain ⟨y, hy, _⟩ := hran'.onDemand d hd
      obtain ⟨c, hcd⟩ := hpaths.total.2 d y hy
      rw [hsame] at houtput
      exact hwritten ⟨c, (List.rel_mem ren.node_unique hcd htwins).mpr (hperm.mem_iff.mpr hd),
        (ren.index_iff _ _ _ _ hcd hab).mpr hindex, (hgraph.isOutput_iff (hslot hcd)).mpr houtput⟩
    rw [hkept, hkept', hid, hst.cellThere a b hab hsame]

/-- So are the stores. -/
theorem Frame.Alike.store_behind (hs : s.CellsOnly ren.graph s') (ht : t.CellsOnly ren.graph t') : s'.Alike ren t' := by
  have hown := hs.own
  have hown' := ht.own
  refine ⟨?_, ?_, ?_, ?_, ?_, ?_, ?_, ?_, ?_, ?_, ?_, ?_⟩
  · rw [hran.objects, hran'.objects, hst.objects]
  · rw [hown, hown']
    exact hst.globals
  · rw [hown, hown']
    exact hst.scheduler
  · rw [hown, hown']
    exact hst.guidsMade
  · rw [hown, hown']
    exact hst.dispatchesMade
  · rw [hran.vars, hran'.vars]
    exact hst.vars
  · rw [hs.size, ht.size, hst.graphs]
  · intro k hk
    rw [hs.others k hk, ht.others k hk, hst.others k hk]
  · rw [hs.disposed, ht.disposed, hst.disposedThere]
  · intro a b hab
    rw [hran.rows.row _ trivial, hran'.rows.row _ trivial, hst.rowThere a b hab]
  · exact hframe.cell_behind hid hst htwins hperm hran hran'
  · intro a b hab
    rw [hran.rows.row _ trivial, hst.held a b hab]

end Run

/-- Executing the path of a node. -/
def Frame.runPath (frame : Frame) (chain : Chain) (h : NodeHandle) : Exec Unit := do
  let path ← Exec.ofResult (frame.graph.dependencyPath h)
  Exec.forEach path (frame.invoke chain)

/-- Without a limit on steps a path is executed to the end. -/
theorem Frame.runPath_ends (frame : Frame) (chain : Chain) (h : NodeHandle)
    (path : List NodeHandle) (hpath : frame.graph.dependencyPath h = .ok path)
    (hispath : frame.graph.IsPath h path) (hunlimited : frame.engine.config.maxChainSteps = none)
    (s : DispatchState) (hready : frame.graph.toNetwork.Ready s.store) :
    ∃ s' guids, frame.runPath chain h s = .done (.ok ()) s' ∧
      Progress frame s.store s'.store path ∧ s.Onward frame.graph.id s' guids ∧ guids.length = path.length ∧
      ∀ guid ∈ guids, ∃ m x, frame.graph.node? m = some x ∧
        x.descriptor.path = .dependency ∧ x.guid = guid := by
  have hsteps : frame.runPath chain h s = Exec.forEach path (frame.invoke chain) s := by
    unfold runPath
    rw [hpath]
    rfl
  obtain ⟨s', hrun⟩ : ∃ s', Exec.forEach path (frame.invoke chain) s = .done (.ok ()) s' := by
    rcases hispath.ends frame chain s.store h path s hready with hok | ⟨_, _, hlimit, _⟩
    · exact hok
    · rw [hunlimited] at hlimit
      cases hlimit
  have hsignatures : ∀ m ∈ path, ∃ x signature, frame.graph.node? m = some x ∧
      x.behavior.signature = some signature := by
    intro m hm
    obtain ⟨z, hz, hdemand⟩ := hispath.onDemand m hm
    obtain ⟨signature, hsignature⟩ := (hready.housed.fits m z hz).hasSignature hdemand
    exact ⟨z, signature, hz, hsignature.behavior⟩
  obtain ⟨guids, hguids, honward⟩ := frame.onward chain path s s' hsignatures hrun
  have hprogress := progress_run frame chain s.store h path [] path s s' hready hispath rfl
    (progress_start frame s.store) hrun
  refine ⟨s', guids, hsteps.trans hrun, hprogress, honward, hguids.length_eq.symm, ?_⟩
  intro guid hguid
  obtain ⟨i, hi⟩ := List.mem_iff_getElem?.mp hguid
  have hget := rel_getElem? hguids i
  rw [hi] at hget
  generalize hm : path[i]? = m at hget
  cases hget with
  | some htraced =>
    obtain ⟨x, hx, hxguid⟩ := htraced
    obtain ⟨z, hz, hdemand⟩ := hispath.onDemand _ (List.mem_of_getElem? hm)
    rw [hx] at hz
    cases hz
    exact ⟨_, x, hx, hdemand, hxguid⟩

/-- The guids of nodes on demand are left aside, on both sides. -/
theorem Network.PathsAlike.aside_right {n m : Network} (h : n.PathsAlike ren m)
    (hnm : n.Renamed ren m) (hid : n.id = ren.graph) (b : NodeHandle) (y : GraphNode)
    (hy : m.node? b = some y) (hpath : y.descriptor.path = .dependency) : ren.aside y.guid := by
  obtain ⟨a, hab⟩ := h.total.2 b y hy
  have hnode := hnm.node a b (by rw [hid, Renaming.nodeIn_graph]; exact hab)
  cases hnode with
  | found x z hx hz hxz =>
    rw [hy] at hz
    cases hz
    rw [hxz.guid]
    exact h.aside a x hx (hxz.descriptor ▸ hpath)
  | missing _ _ hnone =>
    rw [hy] at hnone
    cases hnone

/-- Where there is no node, there is no path. -/
theorem Network.dependencyPath_missing (n : Network) (hn : n.Sound) (hc : n.Coherent)
    (h : NodeHandle) (hnone : n.node? h = none) :
    n.dependencyPath h = .error (.unknownNode h.text) := by
  obtain ⟨ps, hps, _⟩ := hc
  have hindex : n.indexOf h = none := by
    cases hi : n.indexOf h with
    | none => rfl
    | some i =>
      have hmem := List.mem_of_getElem? ((n.indexOf_eq_some_iff hn h i).mp hi)
      obtain ⟨x, hx⟩ := (hn.mem_order_iff h).mp hmem
      rw [hnone] at hx
      cases hx
  unfold dependencyPath
  rw [hps, hindex]

/-- The states are alike again behind the paths of related nodes, whatever their order is. -/
theorem Frame.Alike.path {frame frame' : Frame} (hframe : frame.Alike ren frame')
    (hid : frame.graph.id = ren.graph) (chain chain' : Chain) {h k : NodeHandle}
    (hhk : frame.nodeIn ren h k) :
    Exec.Alike ren (frame.nodeIn ren) Eq (frame.runPath chain h) (frame'.runPath chain' k) := by
  have hgraph := hframe.graph.toRenamed
  have hpaths := hframe.graph.paths hid
  intro s t hst
  cases hgraph.node h k hhk with
  | found x y hx hy hxy =>
    have hnode : ren.node h k := by
      have hrelated : ren.nodeIn frame.graph.id h k := hhk
      rw [hid, Renaming.nodeIn_graph] at hrelated
      exact hrelated
    obtain ⟨path, twins, path', hpath, hispath, hpath', hispath', htwins, hperm⟩ :=
      hpaths.perm hnode x y hx hy
    obtain ⟨hready, hready'⟩ := hpaths.ready hgraph hid hst.store h x hx
    obtain ⟨s', guids, hrun, hran, honward, hlength, hguids⟩ :=
      frame.runPath_ends chain h path hpath hispath hframe.unlimited s hready
    obtain ⟨t', guids', hrun', hran', honward', hlength', hguids'⟩ :=
      frame'.runPath_ends chain' k path' hpath' hispath' (hframe.engine ▸ hframe.unlimited) t hready'
    rw [hrun, hrun']
    refine .done _ _ _ _ (.ok () () rfl) ⟨⟨?_, ?_, ?_, ?_⟩, ?_⟩
    · exact hframe.store_behind hid hst.store htwins hperm hran hran' (hid ▸ honward.store)
        (hgraph.id.trans hid ▸ honward'.store)
    · rw [honward.steps, honward'.steps, hst.steps, hlength, hlength', htwins.length_eq,
        hperm.length_eq]
    · -- what is traced are nodes on demand
      intro keep hkeep
      have hnone : guids.filter keep = [] := by
        refine List.filter_eq_nil_iff.mpr fun guid hguid => ?_
        obtain ⟨m, z, hz, hdemand, rfl⟩ := hguids guid hguid
        simp [hkeep _ (hpaths.aside m z hz hdemand)]
      have hnone' : guids'.filter keep = [] := by
        refine List.filter_eq_nil_iff.mpr fun guid hguid => ?_
        obtain ⟨m, z, hz, hdemand, rfl⟩ := hguids' guid hguid
        simp [hkeep _ (hpaths.aside_right hgraph hid m z hz hdemand)]
      rw [honward.trace, honward'.trace, List.filter_append, List.filter_append, hnone, hnone',
        hst.trace keep hkeep]
    · rw [honward.returned, honward'.returned, hst.returned]
    · rw [honward.next, honward'.next]
      exact hst.next
  | missing hsame hn hm =>
    have hsound := hpaths.consistent
    unfold Frame.runPath
    rw [frame.graph.dependencyPath_missing hsound.1.sound hpaths.coherent.1 h hn,
      frame'.graph.dependencyPath_missing hsound.2.sound hpaths.coherent.2 k hm, hsame]
    exact .done _ _ _ _ (.error _) hst

end FlowGraph
