import FlowGraph.Proofs.Dispatch.Calls
import FlowGraph.Proofs.Graph.Marks
import FlowGraph.Proofs.Graph.Outputs

/-! # What a chain may change

    Between two waits a chain of library nodes only appends to the trace, counts steps, writes
    output slots of nodes that it started, gives variables values, and reports (`Stretch`).
    While it waits, others may change the store; then a new stretch begins
    (`Process.Framed`).  This holds of a chain at any nesting and whichever way it ends
    (`Frame.runChain_framed`). -/

namespace FlowGraph

variable {α β : Type}

/-! ## Section 1: Stores -/

/-- The store with values given to variables, one after the other. -/
def Variables.assigned (vs : Variables) (writes : List (VarId × Value)) : Variables :=
  writes.foldl (fun vs w => vs.set w.1 w.2) vs

/-- What nodes at these sites may change of the store; what is scheduled is left open. -/
structure Store.Framed (sites : List Site) (s t : Store) : Prop where
  objects : t.objects = s.objects
  globals : t.globals = s.globals
  made : t.guidsMade = s.guidsMade ∧ t.dispatchesMade = s.dispatchesMade
  /-- No graph is disposed or compiled. -/
  marks : t.marks = s.marks
  rows : RowsKept (fun _ => True) s t
  /-- Variables get values, and keep what they are bound to. -/
  vars : ∃ writes, t.vars = s.vars.assigned writes
  /-- Of all slots only outputs of the sites are written. -/
  cells : ∀ k a, t.cell k a ≠ s.cell k a → ∃ site ∈ sites, k = site.frame.graph.id ∧
    a.node.index = site.node.index ∧ site.frame.graph.IsOutput ⟨site.node, a.port⟩
  events : s.events.toList <+: t.events.toList
  log : s.log.toList <+: t.log.toList

namespace Store

variable {sites : List Site} {s t u : Store}

/-- The cells and the marks stay as they are. -/
theorem Framed.of_graphs (hgraphs : t.graphs = s.graphs) (hobjects : t.objects = s.objects)
    (hglobals : t.globals = s.globals)
    (hmade : t.guidsMade = s.guidsMade ∧ t.dispatchesMade = s.dispatchesMade)
    (hvars : ∃ writes, t.vars = s.vars.assigned writes)
    (hevents : s.events.toList <+: t.events.toList) (hlog : s.log.toList <+: t.log.toList) :
    s.Framed sites t := by
  refine ⟨hobjects, hglobals, hmade, ?_, .of_graphs _ hgraphs, hvars, ?_, hevents, hlog⟩
  · unfold Store.marks
    rw [hgraphs]
  · intro k a hchanged
    unfold cell at hchanged
    rw [hgraphs] at hchanged
    exact absurd rfl hchanged

theorem Framed.refl (s : Store) : s.Framed sites s :=
  .of_graphs rfl rfl rfl ⟨rfl, rfl⟩ ⟨[], rfl⟩ List.prefix_rfl List.prefix_rfl

theorem Framed.emit (s : Store) (event : GraphEvent) : s.Framed sites (s.emit event) := by
  refine .of_graphs rfl rfl rfl ⟨rfl, rfl⟩ ⟨[], rfl⟩ ?_ List.prefix_rfl
  exact ⟨[event], Array.toList_push.symm⟩

theorem Framed.report (s : Store) (level : LogLevel) (text : String) :
    s.Framed sites (s.report level text) := by
  refine .of_graphs rfl rfl rfl ⟨rfl, rfl⟩ ⟨[], rfl⟩ List.prefix_rfl ?_
  exact ⟨[⟨level, text⟩], Array.toList_push.symm⟩

theorem Framed.schedule (s : Store) (scheduler : Scheduler) :
    s.Framed sites { s with scheduler } :=
  .of_graphs rfl rfl rfl ⟨rfl, rfl⟩ ⟨[], rfl⟩ List.prefix_rfl List.prefix_rfl

theorem Framed.assign (s : Store) (v : VarId) (value : Value) :
    s.Framed sites { s with vars := s.vars.set v value } :=
  .of_graphs rfl rfl rfl ⟨rfl, rfl⟩ ⟨[(v, value)], rfl⟩ List.prefix_rfl List.prefix_rfl

theorem Framed.mono {sites' : List Site} (h : s.Framed sites t) (hsub : sites ⊆ sites') :
    s.Framed sites' t := by
  refine ⟨h.objects, h.globals, h.made, h.marks, h.rows, h.vars, fun k a hchanged => ?_,
    h.events, h.log⟩
  obtain ⟨site, hsite, hslot⟩ := h.cells k a hchanged
  exact ⟨site, hsub hsite, hslot⟩

theorem Framed.trans (hst : s.Framed sites t) (htu : t.Framed sites u) : s.Framed sites u := by
  refine ⟨htu.objects.trans hst.objects, htu.globals.trans hst.globals,
    ⟨htu.made.1.trans hst.made.1, htu.made.2.trans hst.made.2⟩, htu.marks.trans hst.marks,
    hst.rows.trans htu.rows, ?_, fun k a hchanged => ?_, hst.events.trans htu.events,
    hst.log.trans htu.log⟩
  · obtain ⟨first, hfirst⟩ := hst.vars
    obtain ⟨later, hlater⟩ := htu.vars
    refine ⟨first ++ later, ?_⟩
    rw [hlater, hfirst]
    exact List.foldl_append.symm
  · by_cases hlater : u.cell k a = t.cell k a
    · rw [hlater] at hchanged
      exact hst.cells k a hchanged
    · exact htu.cells k a hlater

end Store

namespace Site

/-- The slots that the node finds by a name are outputs. -/
def Exports (site : Site) (name : String) : Prop :=
  ∀ index a, site.address? name index = some a → site.frame.graph.IsOutput a

variable {sites : List Site} {site : Site}

theorem framed_output (hsite : site ∈ sites) (name : String) (hname : site.Exports name)
    (index : Nat) (v : Value) (s : Store) : s.Framed sites (site.output name index v s) := by
  cases ha : site.address? name index with
  | none =>
    have hsame : site.output name index v s = s := by
      unfold output
      rw [ha]
    rw [hsame]
    exact .refl s
  | some a =>
    have htouches := site.touches_output name index v s
    have hnode := (site.node_of_address? name index a ha).1
    rw [site.output_of_address? name index a ha] at htouches ⊢
    refine ⟨rfl, rfl, ⟨rfl, rfl⟩, s.marks_writeCell _ _ _, htouches.rows, ⟨[], rfl⟩, ?_,
      List.prefix_rfl, List.prefix_rfl⟩
    intro k b hchanged
    obtain ⟨rfl, hindex⟩ := htouches.cells k b hchanged
    refine ⟨site, hsite, rfl, hindex, ?_⟩
    -- another port of the node has another cell
    have hport : a.port = b.port := by
      by_contra hport
      exact hchanged (s.cell_writeCell_of_ne _ a b v (.inr hport))
    have houtput := hname index a ha
    rw [← hport, ← hnode]
    exact houtput

theorem framed_outputs (hsite : site ∈ sites) (values : List (String × Value))
    (hnames : ∀ r ∈ values, site.Exports r.1) (s : Store) :
    s.Framed sites (site.outputs values s) := by
  induction values generalizing s with
  | nil => exact .refl s
  | cons r rest ih =>
    have hfirst := framed_output hsite r.1 (hnames r List.mem_cons_self) 0 r.2 s
    exact hfirst.trans (ih (fun q hq => hnames q (List.mem_cons_of_mem r hq)) _)

theorem framed_publishedIn (hsite : site ∈ sites) (hname : site.Exports "args")
    (indices : List Nat) (s : Store) : s.Framed sites (site.publishedIn indices s) := by
  induction indices generalizing s with
  | nil => exact .refl s
  | cons index rest ih => exact (framed_output hsite "args" hname index _ s).trans (ih _)

/-- Nodes of the library's types export what they write. -/
theorem exports_of_typed (site : Site) (x : GraphNode) (hx : site.node? = some x) (htyped : x.Typed)
    (hslotted : x.Slotted) (name : String) (hname : name ∈ x.behavior.writes) :
    site.Exports name := by
  intro index a ha
  obtain ⟨hnode, y, hy, hindex⟩ := site.node_of_address? name index a ha
  rw [hx] at hy
  cases hy
  obtain ⟨q, hq, hdirection⟩ :=
    htyped.direction_of_portIndex hslotted name hname index a.port hindex
  refine ⟨q, (Network.port?_eq_some_iff _ _ q).mpr ⟨x, ?_, hq⟩, hdirection⟩
  rw [hnode]
  exact hx

end Site

/-! ## Section 2: Stretches -/

/-- These nodes were started, one after the other. -/
structure Advance (root : Frame) (sites : List Site) (s t : DispatchState) : Prop where
  /-- The nodes are there, in frames of this chain. -/
  started : ∀ site ∈ sites, root.Spawns site.frame ∧ site.node?.isSome = true
  trace : t.trace.toList = s.trace.toList ++ sites.map Site.guid
  steps : s.steps + sites.length ≤ t.steps

/-- A stretch of a chain in which `sites` were started, behind those that were started before. -/
structure Stretch (root : Frame) (before sites : List Site) (s t : DispatchState) : Prop
    extends Advance root sites s t where
  store : s.store.Framed (before ++ sites) t.store

variable {root : Frame} {before : List Site} {s t u : DispatchState}

theorem Advance.trans {v w : List Site} (hst : Advance root v s t) (htu : Advance root w t u) :
    Advance root (v ++ w) s u := by
  refine ⟨fun site hsite => ?_, ?_, ?_⟩
  · rcases List.mem_append.mp hsite with h | h
    · exact hst.started site h
    · exact htu.started site h
  · rw [htu.trace, hst.trace, List.map_append, List.append_assoc]
  · have hfirst := hst.steps
    have hlater := htu.steps
    rw [List.length_append]
    omega

/-- No node is started. -/
theorem Stretch.still (htrace : t.trace = s.trace) (hsteps : s.steps ≤ t.steps)
    (hstore : s.store.Framed before t.store) : Stretch root before [] s t := by
  refine ⟨⟨List.forall_mem_nil _, ?_, hsteps⟩, ?_⟩
  · rw [htrace, List.map_nil, List.append_nil]
  · rw [List.append_nil]
    exact hstore

theorem Stretch.refl (s : DispatchState) : Stretch root before [] s s :=
  .still rfl le_rfl (.refl _)

theorem Stretch.trans {v w : List Site} (hst : Stretch root before v s t)
    (htu : Stretch root (before ++ v) w t u) : Stretch root before (v ++ w) s u := by
  refine ⟨hst.toAdvance.trans htu.toAdvance, ?_⟩
  rw [← List.append_assoc]
  exact (hst.store.mono (List.subset_append_left _ w)).trans htu.store

namespace Process

/-- From a wait on, and up to the first one, the process is a stretch. -/
def Framed (root : Frame) : Process α → List Site → DispatchState → Prop
  | .done _ t, before, s => ∃ sites, Stretch root before sites s t
  | .waiting _ t resume, before, s => ∃ sites, Stretch root before sites s t ∧
      ∀ result store, (resume result store).Framed root (before ++ sites) { t with store := store }
  | .exhausted t, before, s => ∃ sites, Stretch root before sites s t

/-- A stretch comes before the process. -/
theorem Framed.behind {p : Process α} {sites : List Site} (hst : Stretch root before sites s t)
    (h : p.Framed root (before ++ sites) t) : p.Framed root before s := by
  cases p with
  | done result u =>
    obtain ⟨later, hlater⟩ := h
    exact ⟨sites ++ later, hst.trans hlater⟩
  | waiting key u resume =>
    obtain ⟨later, hlater, hresume⟩ := h
    refine ⟨sites ++ later, hst.trans hlater, fun result store => ?_⟩
    rw [← List.append_assoc]
    exact hresume result store
  | exhausted u =>
    obtain ⟨later, hlater⟩ := h
    exact ⟨sites ++ later, hst.trans hlater⟩

theorem Framed.bind {p : Process α} {f : α → DispatchState → Process β}
    (h : p.Framed root before s)
    (hf : ∀ a t sites, (f a t).Framed root (before ++ sites) t) :
    (p.bind f).Framed root before s := by
  induction p generalizing before s with
  | done result t =>
    obtain ⟨sites, hst⟩ := h
    cases result with
    | ok a => exact (hf a t sites).behind hst
    | error e => exact ⟨sites, hst⟩
  | waiting key t resume ih =>
    obtain ⟨sites, hst, hresume⟩ := h
    refine ⟨sites, hst, fun result store => ?_⟩
    refine ih result store (hresume result store) fun a u later => ?_
    rw [List.append_assoc]
    exact hf a u (sites ++ later)
  | exhausted t => exact h

theorem Framed.attempt {p : Process α} (h : p.Framed root before s) :
    p.attempt.Framed root before s := by
  induction p generalizing before s with
  | done result t => exact h
  | waiting key t resume ih =>
    obtain ⟨sites, hst, hresume⟩ := h
    exact ⟨sites, hst, fun result store => ih result store (hresume result store)⟩
  | exhausted t => exact h

/-- However the waits are answered, the trace and the count of steps only grow. -/
theorem Framed.resumed {p : Process α} (h : p.Framed root before s) (answers : List Answer) :
    ∃ sites, Advance root sites s (p.resumed answers).state := by
  induction p generalizing before s answers with
  | done result t =>
    obtain ⟨sites, hst⟩ := h
    exact ⟨sites, hst.toAdvance⟩
  | exhausted t =>
    obtain ⟨sites, hst⟩ := h
    exact ⟨sites, hst.toAdvance⟩
  | waiting key t resume ih =>
    obtain ⟨sites, hst, hresume⟩ := h
    cases answers with
    | nil => exact ⟨sites, hst.toAdvance⟩
    | cons answer rest =>
      -- whoever answers changes the store, and neither the trace nor the count
      obtain ⟨later, hstarted, htrace, hsteps⟩ :=
        ih answer.1 answer.2 (hresume answer.1 answer.2) rest
      have hlater : Advance root later t ((resume answer.1 answer.2).resumed rest).state :=
        ⟨hstarted, htrace, hsteps⟩
      exact ⟨sites ++ later, hst.toAdvance.trans hlater⟩

end Process

/-! ## Section 3: Steps -/

namespace Exec

/-- From every state, where these sites have started, the computation is made of stretches. -/
def Framed (root : Frame) (own : List Site) (x : Exec α) : Prop :=
  ∀ before s, own ⊆ before → (x s).Framed root before s

variable {own : List Site}

theorem Framed.pure (a : α) : Framed root own (Pure.pure a) := fun _ s _ => ⟨[], .refl s⟩

theorem Framed.fail (e : GraphError) : Framed root own (Exec.fail e : Exec α) :=
  fun _ s _ => ⟨[], .refl s⟩

theorem Framed.read (f : DispatchState → α) : Framed root own (Exec.read f) :=
  fun _ s _ => ⟨[], .refl s⟩

/-- The pending successor and the return box may change. -/
theorem Framed.modify {f : DispatchState → DispatchState} (htrace : ∀ s, (f s).trace = s.trace)
    (hsteps : ∀ s, (f s).steps = s.steps)
    (hstore : ∀ s : DispatchState, s.store.Framed own (f s).store) :
    Framed root own (Exec.modify f) := by
  intro before s hown
  exact ⟨[], .still (htrace s) (hsteps s).ge ((hstore s).mono hown)⟩

theorem Framed.update {f : Store → Store} (hf : ∀ s : Store, s.Framed own (f s)) :
    Framed root own (Exec.update f) := by
  show Framed root own (Exec.modify fun s => { s with store := f s.store })
  exact .modify (fun _ => rfl) (fun _ => rfl) fun s => hf s.store

theorem Framed.bind {x : Exec α} {f : α → Exec β} (hx : Framed root own x)
    (hf : ∀ a, Framed root own (f a)) : Framed root own (x >>= f) := by
  intro before s hown
  refine (hx before s hown).bind fun a t sites => hf a (before ++ sites) t ?_
  exact List.subset_append_of_subset_left _ hown

theorem Framed.attempt {x : Exec α} (hx : Framed root own x) : Framed root own x.attempt :=
  fun before s hown => (hx before s hown).attempt

theorem Framed.ofResult (result : Except GraphError α) :
    Framed root own (Exec.ofResult result) := by
  cases result with
  | ok a => exact .pure a
  | error e => exact .fail e

theorem Framed.forEach (xs : List β) {f : β → Exec Unit} (hf : ∀ x ∈ xs, Framed root own (f x)) :
    Framed root own (Exec.forEach xs f) := by
  induction xs with
  | nil => exact .pure ()
  | cons x rest ih =>
    refine .bind (hf x List.mem_cons_self) fun _ => ?_
    exact ih fun y hy => hf y (List.mem_cons_of_mem x hy)

theorem Framed.await (key : WaitKey) : Framed root own (Exec.await key) := by
  intro before s _
  have hscheduled : ∀ (t : DispatchState) (scheduler : Scheduler), Stretch root before [] t
      { t with store := { t.store with scheduler } } :=
    fun t scheduler => .still rfl le_rfl (.schedule _ _)
  unfold Exec.await
  dsimp only
  cases (s.store.scheduler.start key).1 with
  | some result => exact ⟨[], hscheduled s _⟩
  | none =>
    refine ⟨[], hscheduled s _, fun result store => ⟨[], ?_⟩⟩
    -- the release is the first step of the next stretch
    rw [List.append_nil]
    exact hscheduled { s with store := store } _

/-- A computation that needs fewer sites. -/
theorem Framed.of_nil {x : Exec α} (hx : Framed root [] x) : Framed root own x :=
  fun before s _ => hx before s (List.nil_subset _)

/-- A node that is listed has started. -/
theorem Framed.listed {x : Exec α} (site : Site) (hsite : root.Spawns site.frame)
    (hnode : site.node?.isSome = true) (s : DispatchState) (hx : Framed root [site] x) :
    (x { s with steps := s.steps + 1, trace := s.trace.push site.guid }).Framed root before s := by
  have hstart : Stretch root before [site] s
      { s with steps := s.steps + 1, trace := s.trace.push site.guid } := by
    refine ⟨⟨?_, Array.toList_push, le_rfl⟩, .refl _⟩
    intro other hother
    rw [List.mem_singleton.mp hother]
    exact ⟨hsite, hnode⟩
  exact (hx _ _ (List.subset_append_right before [site])).behind hstart

end Exec

/-! ## Section 4: Nodes -/

namespace Site

section Library

variable {chain : Chain} {site : Site}
  (hchain : ∀ frame h, site.Reaches frame → (chain frame h).Framed root [])

include hchain

omit hchain in
theorem framed_enclosed (part : DispatchState → β) (restore : β → DispatchState → DispatchState)
    (hrestore : ∀ kept s, (restore kept s).trace = s.trace ∧ (restore kept s).steps = s.steps ∧
      (restore kept s).store = s.store) {own : List Site} {x : Exec α} (hx : x.Framed root own) :
    (enclosed part restore x).Framed root own := by
  refine .bind (.read part) fun kept => .bind hx.attempt fun result => ?_
  refine .bind (.modify (fun s => (hrestore kept s).1) (fun s => (hrestore kept s).2.1) ?_) ?_
  · intro s
    rw [(hrestore kept s).2.2]
    exact .refl _
  · exact fun _ => .ofResult result

theorem framed_forward (start : NodeHandle) : (site.forward chain start).Framed root [] := by
  unfold forward
  split
  · exact .fail _
  · exact framed_enclosed _ restoreNext (fun _ _ => ⟨rfl, rfl, rfl⟩)
      (hchain site.inner start .inner)

theorem framed_forwardPort (name : String) (index : Nat) :
    (site.forwardPort chain name index).Framed root [] := by
  unfold forwardPort
  cases site.successor name index with
  | none => exact .pure ()
  | some start => exact framed_forward hchain start

theorem framed_call (name : String) (arguments : List Value) :
    (site.call chain name arguments).Framed root [] := by
  intro before s hown
  show Process.Framed root (((Exec.ofResult (site.callee name s.store)) s).bind _) before s
  cases hcallee : site.callee name s.store with
  | error e => exact ⟨[], .refl s⟩
  | ok found =>
    obtain ⟨g, entry⟩ := found
    refine framed_enclosed callerPart restoreCaller (fun _ _ => ⟨rfl, rfl, rfl⟩) ?_ before s hown
    refine .bind (.modify (fun _ => rfl) (fun _ => rfl) fun s => .refl s.store) fun _ => ?_
    refine .bind (hchain _ entry (.call name s.store g entry ⟨name, arguments⟩ hcallee)) fun _ => ?_
    exact .read _

omit hchain in
theorem framed_continueWith (name : String) : (site.continueWith name).Framed root [site] :=
  .modify (fun _ => rfl) (fun _ => rfl) fun s => .refl s.store

omit hchain in
theorem framed_write (name : String) (hname : site.Exports name) (v : Value) :
    (site.write name v).Framed root [site] :=
  .update fun s => framed_output List.mem_cons_self name hname 0 v s

theorem framed_loop (hindex : site.Exports "index") (count : Nat) (index : Int) :
    (site.loop chain count index).Framed root [site] := by
  induction count generalizing index with
  | zero => exact .pure ()
  | succ count ih =>
    refine .bind (framed_write "index" hindex _) fun _ => ?_
    refine .bind (framed_forwardPort hchain "body" 0).of_nil fun _ => ?_
    exact ih (index + 1)

omit hchain in
/-- The results of a node that runs on demand are for the ports that it writes. -/
theorem results_names (site : Site) (s : Store) (input : String → Value) (b : Behavior)
    (hb : b.signature.isSome = true) : (site.results s input b).map Prod.fst = b.writes := by
  cases b with
  | describeTarget =>
    unfold results
    dsimp only
    split
    · rfl
    · rfl
  | literal type raw => rfl
  | add => rfl
  | multiply => rfl
  | compare op => rfl
  | getVariable => rfl
  | _ => cases hb

omit hchain in
theorem framed_onDemand (b : Behavior) (signature : List (String × PortDirection))
    (hsignature : b.signature = some signature) (hwrites : ∀ name ∈ b.writes, site.Exports name) :
    (site.execute chain b).Framed root [site] := by
  intro before s hown
  rw [site.execute_onDemand chain b s signature hsignature]
  refine ⟨[], .still rfl le_rfl ?_⟩
  have hnames := site.results_names s.store (site.current s.store) b (by rw [hsignature]; rfl)
  refine framed_outputs (hown List.mem_cons_self) _ (fun r hr => hwrites r.1 ?_) _
  rw [← hnames]
  exact List.mem_map_of_mem hr

theorem framed_execute (b : Behavior) (hb : b.isBuiltin = true)
    (hwrites : ∀ name ∈ b.writes, site.Exports name) :
    (site.execute chain b).Framed root [site] := by
  have publish : site.Exports "args" → site.publish.Framed root [site] := fun hargs =>
    .update fun s => framed_publishedIn List.mem_cons_self hargs _ s
  have hnext : ∀ name, (site.continueWith name).Framed root [site] := framed_continueWith
  cases hsignature : b.signature with
  | some signature => exact framed_onDemand b signature hsignature hwrites
  | none =>
    cases b with
    | executionEvent name =>
      exact .bind (publish (hwrites "args" List.mem_cons_self)) fun _ => hnext "next"
    | functionInput name =>
      exact .bind (publish (hwrites "args" List.mem_cons_self)) fun _ => hnext "next"
    | branch => exact .bind (.read _) fun _ => hnext _
    | sequence => exact .forEach _ fun index _ => (framed_forwardPort hchain "then" index).of_nil
    | forLoop =>
      refine .bind (.read _) fun first => .bind (.read _) fun last => ?_
      refine .bind (framed_loop hchain (hwrites "index" List.mem_cons_self) _ _) fun _ => ?_
      exact hnext "completed"
    | delay =>
      refine .bind (.read _) fun seconds => ?_
      split
      · exact .fail _
      · refine .bind (.read _) fun wait => ?_
        refine .bind (.update fun s => .schedule s wait.2) fun _ => ?_
        refine .bind (framed_write "handle" (hwrites "handle" List.mem_cons_self) _) fun _ => ?_
        exact .bind (.await wait.1) fun _ => hnext "next"
    | log level =>
      have hmessage : ∀ text, (site.message text).Framed root [site] := fun text =>
        .update fun s => .emit s _
      refine .bind (.read _) fun text => ?_
      dsimp only
      split
      · refine .bind (.update fun s => .report s level _) fun _ => ?_
        exact .bind (hmessage _) fun _ => hnext "next"
      · exact .bind (hmessage _) fun _ => hnext "next"
    | setVariable =>
      refine .bind (.read _) fun value => ?_
      dsimp only
      split
      · exact .bind (.update fun s => .assign s _ value) fun _ => hnext "next"
      · exact .bind (.update fun s => .report s .warn _) fun _ => hnext "next"
    | functionOutput =>
      have hbox : ∀ s : DispatchState, s.store.Framed [site] s.store := fun s => .refl s.store
      refine .bind (.read _) fun value => ?_
      refine .bind (.modify (fun _ => rfl) (fun _ => rfl) hbox) fun _ => ?_
      exact .modify (fun _ => rfl) (fun _ => rfl) hbox
    | invokeFunction name =>
      refine .bind (.read _) fun arguments => ?_
      refine .bind (framed_call hchain name arguments).of_nil fun result => ?_
      refine .bind (framed_write "result" (hwrites "result" List.mem_cons_self) result) fun _ => ?_
      exact hnext "next"
    | placeholder node => exact .pure ()
    | script script => cases hb
    | _ => cases hsignature

end Library

end Site

/-! ## Section 5: Chains -/

namespace Frame

/-- The nodes of the graph and of all functions have types of the library, and their slots. -/
def Typed (frame : Frame) : Prop := frame.All fun n => n.Typed ∧ n.Slotted

/-- In frames of the root the chains are made of stretches. -/
def ChainFramed (root : Frame) (chain : Chain) : Prop :=
  ∀ frame h, root.Spawns frame → (chain frame h).Framed root []

variable {chain : Chain} (hchain : ChainFramed root chain) (htyped : root.Typed) {frame : Frame}
  (hframe : root.Spawns frame)

theorem framed_announce (event : GraphEvent) {own : List Site} :
    (frame.announce event).Framed root own := by
  unfold announce
  split
  · exact .update fun s => .emit s event
  · exact .pure ()

theorem framed_conclude (guid : String) (result : Except GraphError Unit) {own : List Site} :
    (frame.conclude guid result).Framed root own := by
  cases result with
  | ok _ => exact framed_announce _
  | error e =>
    refine .bind (.update fun s => .report s _ _) fun _ => ?_
    exact .bind (.update fun s => .emit s _) fun _ => .fail e

include hchain htyped hframe

theorem invoke_framed (h : NodeHandle) : (frame.invoke chain h).Framed root [] := by
  intro before s _
  unfold invoke
  cases hx : frame.graph.node? h with
  | none => exact ⟨[], .refl s⟩
  | some x =>
    have hguid : (Site.mk frame h).guid = x.guid := by
      unfold Site.guid Site.node?
      dsimp only
      rw [hx]
      rfl
    have hnode := (hframe.all htyped).graph.network
    have hwrites : ∀ name ∈ x.behavior.writes, (Site.mk frame h).Exports name :=
      fun name hname =>
        Site.exports_of_typed ⟨frame, h⟩ x hx (hnode.1 h x hx) (hnode.2 h x hx) name hname
    have hexecute : ((Site.mk frame h).execute chain x.behavior).Framed root [⟨frame, h⟩] := by
      refine Site.framed_execute (fun inner start hreach => ?_) x.behavior
        (hnode.1 h x hx).ofLibrary.1 hwrites
      exact hchain inner start (.deeper ⟨frame, h⟩ inner hframe hreach)
    have hrest : (do
        frame.announce (.nodeStarted frame.dispatchId x.guid x.type)
        let result ← ((Site.mk frame h).execute chain x.behavior).attempt
        frame.conclude x.guid result : Exec Unit).Framed root [⟨frame, h⟩] :=
      .bind (framed_announce _) fun _ => .bind hexecute.attempt fun result =>
        framed_conclude x.guid result
    -- a node that is past the limit is counted and not listed
    show Process.Framed root ((frame.count s).bind _) before s
    rcases frame.count_cases s with hcount | ⟨limit, _, _, hcount⟩
    · rw [hcount, ← hguid]
      rw [← hguid] at hrest
      exact Exec.Framed.listed ⟨frame, h⟩ hframe (by simp [Site.node?, hx]) s hrest
    · rw [hcount]
      exact ⟨[], .still rfl (Nat.le_succ _) (.refl _)⟩

theorem runNode_framed (h : NodeHandle) : (frame.runNode chain h).Framed root [] := by
  have hclear : Frame.clearNext.Framed root [] :=
    .modify (fun _ => rfl) (fun _ => rfl) fun s => .refl s.store
  have hinvoke := invoke_framed hchain htyped hframe
  refine .bind hclear fun _ => .bind (.ofResult _) fun path => ?_
  refine .bind (.forEach path fun m _ => hinvoke m) fun _ => .bind hclear fun _ => ?_
  refine .bind (hinvoke h) fun _ => .bind (.read _) fun next => ?_
  exact .bind hclear fun _ => .pure next

omit hchain hframe in
theorem runChain_framed (fuel : Nat) : ChainFramed root (runChain fuel) := by
  induction fuel with
  | zero => exact fun frame h _ before s _ => ⟨[], .refl s⟩
  | succ fuel ih =>
    intro frame h hframe
    refine .bind (runNode_framed ih htyped hframe h) fun next => ?_
    cases next with
    | none => exact .pure ()
    | some k => exact ih frame k hframe

end Frame
end FlowGraph
