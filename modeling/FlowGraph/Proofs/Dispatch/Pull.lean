import FlowGraph.Proofs.Dispatch.Slots

/-! # Pulling values through dependency paths

    Before a node is executed its dependency path is, node by node, and every node reads
    what the ones before it wrote.  `Pulled` says without any order what the values
    ought to be: a node on demand applies its function to its own pulled inputs, and all
    else counts as it was stored when the path started.

    The invariant of the path (`Progress`) is that the nodes executed so far hold pulled
    values at their outputs and that no other cell has changed.  Paths list what a node
    needs before the node, so each step preserves it (`progress_invoke`).

    Main statement: in a graph that was built, a node whose path was executed reads the
    pulled values of its inputs, and only the limit on steps can keep the path from being
    executed. -/

namespace FlowGraph

/-! ## Section 1: Values by recursion -/

/-- The value of a slot by recursion along links, from the cells of a store. -/
inductive Pulled (frame : Frame) (s : Store) : PortAddress → Value → Prop where
  /-- An input without a link has its stored value. -/
  | unlinked (a : PortAddress) (p : Port) (hp : frame.graph.port? a = some p)
      (hdirection : p.direction = .input) (hlink : p.link = none) :
      Pulled frame s a (s.cell frame.graph.id a)
  /-- A link of a node to itself carries the stored value of the output. -/
  | own (a : PortAddress) (p : Port) (link : PortLink) (hp : frame.graph.port? a = some p)
      (hdirection : p.direction = .input) (hlink : p.link = some link)
      (howner : link.source.node = a.node) :
      Pulled frame s a (link.compatibility.convert s.objects (s.cell frame.graph.id link.source))
  /-- A link from another node carries the value of the output, converted. -/
  | linked (a : PortAddress) (p : Port) (link : PortLink) (v : Value)
      (hp : frame.graph.port? a = some p) (hdirection : p.direction = .input)
      (hlink : p.link = some link) (hother : link.source.node ≠ a.node)
      (hsource : Pulled frame s link.source v) :
      Pulled frame s a (link.compatibility.convert s.objects v)
  /-- An output of a forward node has its stored value. -/
  | stored (a : PortAddress) (p : Port) (x : GraphNode) (hp : frame.graph.port? a = some p)
      (hdirection : p.direction = .output) (hx : frame.graph.node? a.node = some x)
      (hpath : x.descriptor.path = .forward) : Pulled frame s a (s.cell frame.graph.id a)
  /-- An output of a node on demand is what the node computes from its pulled inputs. -/
  | computed (a : PortAddress) (p : Port) (x : GraphNode) (input : String → Value) (v : Value)
      (hp : frame.graph.port? a = some p) (hdirection : p.direction = .output)
      (hx : frame.graph.node? a.node = some x) (hpath : x.descriptor.path = .dependency)
      (hinputs : ∀ i q, x.ports[i]? = some q → q.direction = .input →
        Pulled frame s ⟨a.node, i⟩ (input q.name))
      (hv : (p.name, v) ∈ (Site.mk frame a.node).results s input x.behavior) : Pulled frame s a v

/-- What the value of an input is. -/
theorem pulled_input_cases (frame : Frame) (s : Store) (a : PortAddress) (p : Port) (v : Value)
    (hp : frame.graph.port? a = some p) (hdirection : p.direction = .input)
    (h : Pulled frame s a v) :
    (p.link = none ∧ v = s.cell frame.graph.id a) ∨
      (∃ link, p.link = some link ∧ link.source.node = a.node ∧
        v = link.compatibility.convert s.objects (s.cell frame.graph.id link.source)) ∨
      ∃ link u, p.link = some link ∧ link.source.node ≠ a.node ∧ Pulled frame s link.source u ∧
        v = link.compatibility.convert s.objects u := by
  cases h with
  | unlinked _ q hq _ hlink =>
    rw [hp] at hq
    cases hq
    exact .inl ⟨hlink, rfl⟩
  | own _ q link hq _ hlink howner =>
    rw [hp] at hq
    cases hq
    exact .inr (.inl ⟨link, hlink, howner, rfl⟩)
  | linked _ q link u hq _ hlink hother hsource =>
    rw [hp] at hq
    cases hq
    exact .inr (.inr ⟨link, u, hlink, hother, hsource, rfl⟩)
  | stored _ q x hq houtput =>
    rw [hp] at hq
    cases hq
    rw [hdirection] at houtput
    cases houtput
  | computed _ q x input v hq houtput =>
    rw [hp] at hq
    cases hq
    rw [hdirection] at houtput
    cases houtput

/-- What the value of an output is. -/
theorem pulled_output_cases (frame : Frame) (s : Store) (a : PortAddress) (p : Port) (v : Value)
    (x : GraphNode) (hp : frame.graph.port? a = some p) (hdirection : p.direction = .output)
    (hx : frame.graph.node? a.node = some x) (h : Pulled frame s a v) :
    (x.descriptor.path = .forward ∧ v = s.cell frame.graph.id a) ∨
      (x.descriptor.path = .dependency ∧ ∃ input : String → Value,
        (∀ i q, x.ports[i]? = some q → q.direction = .input →
          Pulled frame s ⟨a.node, i⟩ (input q.name)) ∧
        (p.name, v) ∈ (Site.mk frame a.node).results s input x.behavior) := by
  cases h with
  | unlinked _ q hq hinput =>
    rw [hp] at hq
    cases hq
    rw [hdirection] at hinput
    cases hinput
  | own _ q link hq hinput =>
    rw [hp] at hq
    cases hq
    rw [hdirection] at hinput
    cases hinput
  | linked _ q link u hq hinput =>
    rw [hp] at hq
    cases hq
    rw [hdirection] at hinput
    cases hinput
  | stored _ q y hq _ hy hpath =>
    rw [hx] at hy
    cases hy
    exact .inl ⟨hpath, rfl⟩
  | computed _ q y input v hq _ hy hpath hinputs hv =>
    rw [hp] at hq
    cases hq
    rw [hx] at hy
    cases hy
    exact .inr ⟨hpath, input, hinputs, hv⟩

/-- A slot has one value at most. -/
theorem pulled_unique (frame : Frame) (s : Store)
    (hfits : ∀ h x, frame.graph.node? h = some x → x.Fits) (a : PortAddress) (v w : Value)
    (hv : Pulled frame s a v) (hw : Pulled frame s a w) : v = w := by
  induction hv generalizing w with
  | unlinked a p hp hdirection hlink =>
    rcases pulled_input_cases frame s a p w hp hdirection hw with
      ⟨_, rfl⟩ | ⟨_, hsome, _⟩ | ⟨_, _, hsome, _⟩
    · rfl
    · simp [hlink] at hsome
    · simp [hlink] at hsome
  | own a p link hp hdirection hlink howner =>
    rcases pulled_input_cases frame s a p w hp hdirection hw with
      ⟨hnone, _⟩ | ⟨_, hsame, _, rfl⟩ | ⟨_, _, hsame, hother, _⟩
    · simp [hlink] at hnone
    · rw [hlink] at hsame
      cases hsame
      rfl
    · rw [hlink] at hsame
      cases hsame
      exact absurd howner hother
  | linked a p link v hp hdirection hlink hother _ ih =>
    rcases pulled_input_cases frame s a p w hp hdirection hw with
      ⟨hnone, _⟩ | ⟨_, hsame, howner, _⟩ | ⟨_, u, hsame, _, hsource, rfl⟩
    · simp [hlink] at hnone
    · rw [hlink] at hsame
      cases hsame
      exact absurd howner hother
    · rw [hlink] at hsame
      cases hsame
      rw [ih u hsource]
  | stored a p x hp hdirection hx hpath =>
    rcases pulled_output_cases frame s a p w x hp hdirection hx hw with ⟨_, rfl⟩ | ⟨hother, _⟩
    · rfl
    · rw [hpath] at hother
      cases hother
  | computed a p x input v hp hdirection hx hpath _ hv ih =>
    rcases pulled_output_cases frame s a p w x hp hdirection hx hw with
      ⟨hother, _⟩ | ⟨_, input', hinputs', hw⟩
    · rw [hpath] at hother
      cases hother
    · obtain ⟨signature, hsignature⟩ := (hfits a.node x hx).hasSignature hpath
      -- both derivations apply the node to the same inputs, and it has one result a name
      have hinput : ∀ name, (name, .input) ∈ signature → input' name = input name := by
        intro name hmem
        obtain ⟨i, q, hq, rfl, hinput⟩ := hsignature.exists_slot name .input hmem
        exact (ih i q hq hinput _ (hinputs' i q hq hinput)).symm
      rw [Site.results_congr _ s s input input' x.behavior signature hsignature.behavior rfl rfl
        hinput] at hw
      have hnodup := (Site.results_outputs ⟨frame, a.node⟩ s input x.behavior signature
        hsignature.behavior).1
      exact congrArg Prod.snd (List.inj_on_of_nodup_map hnodup hv hw rfl)

/-! ## Section 2: The invariant of a path -/

/-- What the nodes that ran since the store was `s` have done. -/
structure Progress (frame : Frame) (s t : Store) (ran : List NodeHandle) : Prop where
  objects : t.objects = s.objects
  vars : t.vars = s.vars
  rows : Store.RowsKept (fun _ => True) s t
  onDemand : ∀ m ∈ ran, ∃ x, frame.graph.node? m = some x ∧ x.descriptor.path = .dependency
  /-- Only outputs of these nodes have changed. -/
  changed : ∀ k a, t.cell k a ≠ s.cell k a → k = frame.graph.id ∧
    ∃ m ∈ ran, m.index = a.node.index ∧ frame.graph.IsOutput ⟨m, a.port⟩
  /-- Each of their outputs has its value. -/
  pulled : ∀ m ∈ ran, ∀ i, frame.graph.IsOutput ⟨m, i⟩ →
    Pulled frame s ⟨m, i⟩ (t.cell frame.graph.id ⟨m, i⟩)

theorem progress_start (frame : Frame) (s : Store) : Progress frame s s [] := by
  refine ⟨rfl, rfl, .of_graphs _ rfl, ?_, fun k a h => absurd rfl h, ?_⟩
  · intro m hm
    cases hm
  · intro m hm
    cases hm

/-- Events do not matter. -/
theorem progress_events (frame : Frame) (s t : Store) (ran : List NodeHandle)
    (events : Array GraphEvent) (h : Progress frame s t ran) :
    Progress frame s { t with events := events } ran :=
  ⟨h.objects, h.vars, h.rows.trans (.of_graphs _ rfl), h.onDemand, h.changed, h.pulled⟩

/-- A node that did not run has the values that it had. -/
theorem cell_of_not_ran (frame : Frame) (s t : Store) (ran : List NodeHandle)
    (h : Progress frame s t ran) (m : NodeHandle) (x : GraphNode)
    (hx : frame.graph.node? m = some x) (hm : m ∉ ran) (i : Nat) :
    t.cell frame.graph.id ⟨m, i⟩ = s.cell frame.graph.id ⟨m, i⟩ := by
  by_contra hchanged
  obtain ⟨_, m', hm', hindex, _⟩ := h.changed _ _ hchanged
  obtain ⟨y, hy, _⟩ := h.onDemand m' hm'
  have hsame : m' = m := Arena.eq_of_index_eq frame.graph.nodes m' m y x hy hx hindex
  exact hm (hsame ▸ hm')

/-- Nor does an input ever change. -/
theorem cell_of_input (frame : Frame) (s t : Store) (ran : List NodeHandle)
    (h : Progress frame s t ran) (a : PortAddress) (p : Port)
    (hp : frame.graph.port? a = some p) (hdirection : p.direction = .input) :
    t.cell frame.graph.id a = s.cell frame.graph.id a := by
  by_contra hchanged
  obtain ⟨_, m, hm, hindex, q, hq, houtput⟩ := h.changed _ _ hchanged
  obtain ⟨x, hx, _⟩ := (frame.graph.port?_eq_some_iff a p).mp hp
  obtain ⟨y, hy, _⟩ := h.onDemand m hm
  obtain rfl : m = a.node := Arena.eq_of_index_eq frame.graph.nodes m a.node y x hy hx hindex
  rw [hp] at hq
  cases hq
  rw [hdirection] at houtput
  cases houtput

/-- When all that a node needs has run, what it reads are the values of its inputs. -/
theorem pulled_input (frame : Frame) (s t : Store) (ran : List NodeHandle)
    (hready : frame.graph.toNetwork.Ready s) (h : Progress frame s t ran) (m : NodeHandle)
    (hm : m ∉ ran) (hneeds : ∀ k, frame.graph.NeedsNode m k → k ∈ ran) (i : Nat) (p : Port)
    (hp : frame.graph.port? ⟨m, i⟩ = some p) (hdirection : p.direction = .input) :
    Pulled frame s ⟨m, i⟩ (frame.graph.readPort t ⟨m, i⟩) := by
  obtain ⟨x, hx, hget⟩ := (frame.graph.port?_eq_some_iff _ p).mp hp
  have hmem : p ∈ x.ports := List.mem_of_getElem? hget
  cases hlink : p.link with
  | none =>
    rw [frame.graph.readPort_unlinked t ⟨m, i⟩ p hp hlink,
      cell_of_input frame s t ran h ⟨m, i⟩ p hp hdirection]
    exact .unlinked _ p hp hdirection hlink
  | some link =>
    obtain ⟨q, hq, houtput⟩ := hready.sourced m x hx p hmem link hlink
    obtain ⟨y, hy, _⟩ := (frame.graph.port?_eq_some_iff _ q).mp hq
    rw [frame.graph.readPort_linked t ⟨m, i⟩ p q link hp hlink hq, h.objects]
    by_cases howner : link.source.node = m
    · -- the node itself did not run yet
      have hkept : t.cell frame.graph.id link.source = s.cell frame.graph.id link.source :=
        cell_of_not_ran frame s t ran h link.source.node y hy (howner ▸ hm) link.source.port
      rw [hkept]
      exact .own _ p link hp hdirection hlink howner
    · refine .linked _ p link _ hp hdirection hlink howner ?_
      cases hpath : y.descriptor.path with
      | dependency =>
        -- what is linked and runs on demand is needed, so it ran
        have hneed : frame.graph.NeedsNode m link.source.node := by
          have hrecorded := hready.housed.consistent.recorded m x hx p hmem link hlink
          exact ⟨x, y, hx, hrecorded.resolve_left howner, hy, hpath⟩
        exact h.pulled link.source.node (hneeds _ hneed) link.source.port ⟨q, hq, houtput⟩
      | forward =>
        -- forward nodes are on no path
        have hout : link.source.node ∉ ran := by
          intro hin
          obtain ⟨z, hz, hdemand⟩ := h.onDemand _ hin
          rw [hy] at hz
          cases hz
          rw [hpath] at hdemand
          cases hdemand
        have hkept : t.cell frame.graph.id link.source = s.cell frame.graph.id link.source :=
          cell_of_not_ran frame s t ran h link.source.node y hy hout link.source.port
        rw [hkept]
        exact .stored _ q y hq houtput hy hpath

/-- What a node computes from what it reads are the values of its outputs. -/
theorem pulled_output (frame : Frame) (s t : Store) (ran : List NodeHandle)
    (hready : frame.graph.toNetwork.Ready s) (h : Progress frame s t ran) (m : NodeHandle)
    (x : GraphNode) (hx : frame.graph.node? m = some x) (hpath : x.descriptor.path = .dependency)
    (hm : m ∉ ran) (hneeds : ∀ k, frame.graph.NeedsNode m k → k ∈ ran) (i : Nat) (p : Port)
    (hp : x.ports[i]? = some p) (hdirection : p.direction = .output) (v : Value)
    (hv : (p.name, v) ∈ (Site.mk frame m).results t ((Site.mk frame m).current t) x.behavior) :
    Pulled frame s ⟨m, i⟩ v := by
  obtain ⟨signature, hsignature⟩ := (hready.housed.fits m x hx).hasSignature hpath
  -- variables and objects are as at the start, so are the results for the same inputs
  have hsame := (Site.mk frame m).results_congr s t ((Site.mk frame m).current t) _ x.behavior
    signature hsignature.behavior h.vars h.objects fun _ _ => rfl
  rw [hsame] at hv
  have hslot : ∀ j q, x.ports[j]? = some q → frame.graph.port? ⟨m, j⟩ = some q :=
    fun j q hq => (frame.graph.port?_eq_some_iff ⟨m, j⟩ q).mpr ⟨x, hx, hq⟩
  refine .computed ⟨m, i⟩ p x _ v (hslot i p hp) hdirection hx hpath ?_ hv
  intro j q hq hinput
  have hindex := hsignature.portIndex_of_slot j q hq
  have hread : (Site.mk frame m).current t q.name = frame.graph.readPort t ⟨m, j⟩ := by
    unfold Site.current Site.input
    rw [(Site.mk frame m).address?_of_portIndex x hx q.name j hindex]
  rw [hread]
  exact pulled_input frame s t ran hready h m hm hneeds j q (hslot j q hq) hinput

/-- Writing what a node computes preserves the invariant. -/
theorem progress_written (frame : Frame) (s t : Store) (ran : List NodeHandle)
    (hready : frame.graph.toNetwork.Ready s) (h : Progress frame s t ran) (m : NodeHandle)
    (x : GraphNode) (hx : frame.graph.node? m = some x) (hpath : x.descriptor.path = .dependency)
    (hm : m ∉ ran) (hneeds : ∀ k, frame.graph.NeedsNode m k → k ∈ ran) :
    Progress frame s ((Site.mk frame m).written x.behavior t) (ran ++ [m]) := by
  obtain ⟨signature, hsignature⟩ := (hready.housed.fits m x hx).hasSignature hpath
  obtain ⟨hobjects, hvars, hrows⟩ := (Site.mk frame m).outputs_frame
    ((Site.mk frame m).results t ((Site.mk frame m).current t) x.behavior) t
  have hchanged := (Site.mk frame m).changed_written t x hx signature hsignature
  refine ⟨hobjects.trans h.objects, hvars.trans h.vars, h.rows.trans hrows, ?_, ?_, ?_⟩
  · intro k hk
    rcases List.mem_append.mp hk with hk | hk
    · exact h.onDemand k hk
    · cases List.mem_singleton.mp hk
      exact ⟨x, hx, hpath⟩
  · intro k a hne
    by_cases hstep : ((Site.mk frame m).written x.behavior t).cell k a = t.cell k a
    · -- the change was made before
      rw [hstep] at hne
      obtain ⟨hk, m', hm', hold⟩ := h.changed k a hne
      exact ⟨hk, m', List.mem_append_left _ hm', hold⟩
    · obtain ⟨hk, hindex, houtput⟩ := hchanged k a hstep
      exact ⟨hk, m, List.mem_append_right _ (List.mem_singleton_self m), hindex.symm, houtput⟩
  · intro k hk i houtput
    rcases List.mem_append.mp hk with hk | hk
    · -- the cells of other nodes stay
      have hkept : ((Site.mk frame m).written x.behavior t).cell frame.graph.id ⟨k, i⟩
          = t.cell frame.graph.id ⟨k, i⟩ := by
        by_contra hne
        obtain ⟨_, hindex, _⟩ := hchanged _ _ hne
        obtain ⟨y, hy, _⟩ := h.onDemand k hk
        have hsame : k = m := Arena.eq_of_index_eq frame.graph.nodes k m y x hy hx hindex
        exact hm (hsame ▸ hk)
      rw [hkept]
      exact h.pulled k hk i houtput
    · cases List.mem_singleton.mp hk
      obtain ⟨q, hq, hdirection⟩ := houtput
      obtain ⟨y, hy, hget⟩ := (frame.graph.port?_eq_some_iff _ q).mp hq
      have hyx : some y = some x := hy.symm.trans hx
      cases hyx
      have hrow := (h.rows.row frame.graph.id trivial m.index).trans (hready.housed.held m x hx)
      exact pulled_output frame s t ran hready h m x hx hpath hm hneeds i q hget hdirection _
        ((Site.mk frame m).cell_written t x hx signature hsignature hrow i q hget hdirection)

/-- A node of the path that ends without an error preserves the invariant. -/
theorem progress_invoke (frame : Frame) (chain : Chain) (s : Store) (st st' : DispatchState)
    (ran : List NodeHandle) (hready : frame.graph.toNetwork.Ready s)
    (h : Progress frame s st.store ran) (m : NodeHandle) (x : GraphNode)
    (hx : frame.graph.node? m = some x) (hpath : x.descriptor.path = .dependency) (hm : m ∉ ran)
    (hneeds : ∀ k, frame.graph.NeedsNode m k → k ∈ ran)
    (hrun : frame.invoke chain m st = .done (.ok ()) st') :
    Progress frame s st'.store (ran ++ [m]) := by
  obtain ⟨signature, hsignature⟩ := (hready.housed.fits m x hx).hasSignature hpath
  rcases frame.invoke_onDemand chain m st x hx signature hsignature.behavior with
    ⟨started, ended, hok⟩ | ⟨_, u, _, _, herror⟩
  · rw [hok] at hrun
    cases hrun
    have hstarted := progress_events frame s st.store ran started h
    exact progress_events _ _ _ _ ended
      (progress_written frame s _ ran hready hstarted m x hx hpath hm hneeds)
  · rw [herror] at hrun
    cases hrun

/-- So does the rest of the path. -/
theorem progress_run (frame : Frame) (chain : Chain) (s : Store) (start : NodeHandle)
    (path ran rest : List NodeHandle) (st st' : DispatchState)
    (hready : frame.graph.toNetwork.Ready s) (hpath : frame.graph.IsPath start path)
    (hsplit : path = ran ++ rest) (h : Progress frame s st.store ran)
    (hrun : Exec.forEach rest (frame.invoke chain) st = .done (.ok ()) st') :
    Progress frame s st'.store path := by
  induction rest generalizing ran st with
  | nil =>
    cases hrun
    rw [hsplit, List.append_nil]
    exact h
  | cons m rest ih =>
    obtain ⟨_, st₁, hfirst, hrest⟩ := Exec.bind_eq_done _ _ _ _ _ hrun
    obtain ⟨x, hx, hdemand⟩ := hpath.onDemand m (by simp [hsplit])
    -- the path has no repetition, and lists before `m` what `m` needs
    have hm : m ∉ ran := by
      have hnodup := hpath.nodup
      rw [hsplit] at hnodup
      exact fun hin => (List.nodup_append.mp hnodup).2.2 m hin m List.mem_cons_self rfl
    have hneeds := hpath.ordered ran m rest hsplit
    have hstep := progress_invoke frame chain s st st₁ ran hready h m x hx hdemand hm hneeds hfirst
    exact ih (ran ++ [m]) st₁ (by simp [hsplit]) hstep hrest

/-! ## Section 3: Graphs that are built -/

/-- Values and variables do not matter for being ready. -/
theorem Network.Ready.of_rowSize {n : Network} {s t : Store} (hn : n.Ready s) (h : NodeHandle)
    (x : GraphNode) (hx : n.node? h = some x)
    (hrows : ∀ i, t.rowSize n.id i = s.rowSize n.id i) : n.Ready t := by
  have hheld : ∀ k y, n.node? k = some y → t.rowSize n.id k.index = some y.ports.length :=
    fun k y hy => (hrows k.index).trans (hn.housed.held k y hy)
  obtain ⟨state, _, hstate, _⟩ := (t.rowSize_eq_some_iff n.id h.index _).mp (hheld h x hx)
  have hknown : n.id < t.graphs.size := (Array.getElem?_eq_some_iff.mp hstate).1
  exact ⟨⟨hn.housed.consistent, hknown, hn.housed.fits, hheld⟩, hn.coherent, hn.sourced⟩

/-- The nodes of a path run to the end, unless there are too many. -/
theorem Network.IsPath.ends (frame : Frame) (chain : Chain) (s : Store) (h : NodeHandle)
    (path : List NodeHandle) (st : DispatchState) (hready : frame.graph.toNetwork.Ready s)
    (hpath : frame.graph.IsPath h path) :
    (∃ st', Exec.forEach path (frame.invoke chain) st = .done (.ok ()) st') ∨
      ∃ limit st', frame.engine.config.maxChainSteps = some limit ∧
        limit < st.steps + path.length ∧
        Exec.forEach path (frame.invoke chain) st
          = .done (.error (.stepLimitExceeded limit)) st' := by
  have hsignatures : ∀ m ∈ path, ∃ x signature, frame.graph.node? m = some x ∧
      x.behavior.signature = some signature := by
    intro m hm
    obtain ⟨x, hx, hdemand⟩ := hpath.onDemand m hm
    obtain ⟨signature, hsignature⟩ := (hready.housed.fits m x hx).hasSignature hdemand
    exact ⟨x, signature, hx, hsignature.behavior⟩
  rcases frame.forEach_onDemand chain path st hsignatures with ⟨st', hok, _⟩ | hexceeded
  · exact .inl ⟨st', hok⟩
  · exact .inr hexceeded

/-- In a graph that was built, every node has a dependency path.  Whatever the cells and
    variables hold, the path is executed without an error unless it exceeds the limit on
    steps.  Then the node reads at its inputs the values that recursion along the links
    gives for them, and no others; and only outputs of the path have changed. -/
theorem build_pulls (conversions : Conversions) (data : GraphData) (s₀ s₁ : Store) (frame : Frame)
    (hbuild : Graph.build Registry.builtin conversions data s₀ = (.ok frame.graph, s₁))
    (h : NodeHandle) (x : GraphNode) (hx : frame.graph.node? h = some x) :
    ∃ path, frame.graph.dependencyPath h = .ok path ∧
      ∀ (chain : Chain) (st : DispatchState),
        (∀ i, st.store.rowSize frame.graph.id i = s₁.rowSize frame.graph.id i) →
        (∃ st', Exec.forEach path (frame.invoke chain) st = .done (.ok ()) st' ∧
          (∀ i p, x.ports[i]? = some p → p.direction = .input → ∀ v,
            Pulled frame st.store ⟨h, i⟩ v ↔ v = frame.graph.readPort st'.store ⟨h, i⟩) ∧
          (∀ k a, st'.store.cell k a ≠ st.store.cell k a → k = frame.graph.id ∧
            ∃ m ∈ path, m.index = a.node.index ∧ frame.graph.IsOutput ⟨m, a.port⟩) ∧
          st'.store.vars = st.store.vars) ∨
        ∃ limit st', frame.engine.config.maxChainSteps = some limit ∧
          limit < st.steps + path.length ∧
          Exec.forEach path (frame.invoke chain) st
            = .done (.error (.stepLimitExceeded limit)) st' := by
  have hbuilt := Graph.build_ready conversions data s₀ s₁ frame.graph hbuild
  obtain ⟨path, hpath, hispath⟩ := frame.graph.dependencyPath_isPath
    hbuilt.housed.consistent.sound hbuilt.coherent h x hx
  refine ⟨path, hpath, fun chain st hrows => ?_⟩
  have hready := hbuilt.of_rowSize h x hx hrows
  refine (hispath.ends frame chain st.store h path st hready).imp_left ?_
  rintro ⟨st', hrun⟩
  have hprogress := progress_run frame chain st.store h path [] path st st' hready hispath rfl
    (progress_start frame st.store) hrun
  refine ⟨st', hrun, fun i p hp hdirection v => ?_, hprogress.changed, hprogress.vars⟩
  have hport : frame.graph.port? ⟨h, i⟩ = some p :=
    (frame.graph.port?_eq_some_iff ⟨h, i⟩ p).mpr ⟨x, hx, hp⟩
  have hread := pulled_input frame st.store st'.store path hready hprogress h hispath.not_mem
    (fun k hk => hispath.complete k (.single hk)) i p hport hdirection
  constructor
  · intro hv
    exact pulled_unique frame st.store hready.housed.fits ⟨h, i⟩ v _ hv hread
  · rintro rfl
    exact hread

/-- A message with the kind of the object that triggered the dispatch; the integer at the
    target stands for no object. -/
def kindMessage : GraphData where
  name := "kindMessage"
  nodes := [
    { guid := "seven", type := "Ceres.Values.Literal", genericArguments := ["int"],
      serializedData := "\x7b\"value\": 7\x7d",
      ports := [{ name := "value", connections := [⟨"target", "target", 0⟩] }] },
    { guid := "target", type := "Ceres.Objects.DescribeTarget",
      ports := [{ name := "kind", connections := [⟨"log", "message", 0⟩] }] },
    { guid := "log", type := "Ceres.Flow.Log" }]

/-- It is built where there is one unit. -/
def kindBuilt : Except GraphError Graph × Store :=
  Graph.build Registry.builtin .standard kindMessage { objects := [⟨"hero", "unit", true⟩] }

/-- The unit triggers a dispatch of a graph. -/
def unitFrame (g : Graph) : Frame := ⟨{}, "", g, some ⟨"unit", 0⟩, ⟨"", []⟩, 0⟩

/-- The kind is pulled through the description of the target. -/
theorem build_pulls_kindMessage :
    ∃ g s st', kindBuilt = (.ok g, s) ∧
      g.dependencyPath ⟨2, 0⟩ = .ok [⟨0, 0⟩, ⟨1, 0⟩] ∧
      Exec.forEach [⟨0, 0⟩, ⟨1, 0⟩] ((unitFrame g).invoke (Frame.runChain 0)) { store := s }
        = .done (.ok ()) st' ∧
      ∀ v, Pulled (unitFrame g) s ⟨⟨2, 0⟩, 1⟩ v ↔ v = .string "unit" := by
  have hnodes : (kindBuilt.1.toOption.bind fun g => (g.dependencyPath ⟨2, 0⟩).toOption)
      = some [⟨0, 0⟩, ⟨1, 0⟩] := by decide +kernel
  have hdirection : (kindBuilt.1.toOption.bind fun g => (g.port? ⟨⟨2, 0⟩, 1⟩).map (·.direction))
      = some .input := by decide +kernel
  have hread : (kindBuilt.1.toOption.map fun g => g.readPort (Exec.forEach [⟨0, 0⟩, ⟨1, 0⟩]
      ((unitFrame g).invoke (Frame.runChain 0)) { store := kindBuilt.2 }).state.store ⟨⟨2, 0⟩, 1⟩)
        = some (.string "unit") := by decide +kernel
  obtain ⟨result, s, hbuilt⟩ : ∃ result s, kindBuilt = (result, s) :=
    ⟨kindBuilt.1, kindBuilt.2, Prod.mk.eta.symm⟩
  rw [hbuilt] at hnodes hdirection hread
  cases result with
  | error e => cases hnodes
  | ok g =>
    obtain ⟨p, hp, hinput⟩ := Option.map_eq_some_iff.mp hdirection
    obtain ⟨x, hx, hget⟩ := (g.port?_eq_some_iff _ p).mp hp
    obtain ⟨path, hpath, hpulls⟩ := build_pulls .standard kindMessage _ s (unitFrame g) hbuilt _ x hx
    have hlisted : (g.dependencyPath ⟨2, 0⟩).toOption = some path := congrArg Except.toOption hpath
    obtain rfl : [⟨0, 0⟩, ⟨1, 0⟩] = path := Option.some.inj (hnodes.symm.trans hlisted)
    rcases hpulls (Frame.runChain 0) { store := s } fun _ => rfl with
      ⟨st', hsteps, hinputs, _⟩ | ⟨_, _, hlimit, _⟩
    · have hvalue := Option.some.inj hread
      simp only [hsteps] at hvalue
      refine ⟨g, s, st', hbuilt, hpath, hsteps, fun v => ?_⟩
      rw [← hvalue]
      exact hinputs 1 p hget hinput v
    · cases hlimit

end FlowGraph
