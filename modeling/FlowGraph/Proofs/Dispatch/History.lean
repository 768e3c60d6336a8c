import FlowGraph.Proofs.Dispatch.Plain
import FlowGraph.Proofs.Dispatch.Trace

/-! # Histories of chains

    A history is a word with the states: it lists the visits of nodes in the order in which
    they start, each with the states in which the node starts to execute and has ended.  The
    level of a visit says how many calls are under way between the part and the visit.  So the
    visits of level zero are those of the part's own activation, sub-executions included, and
    what a function does that is called in it has a higher level.

    Every word is that of a history (`Word.history`).  What the return box holds after a part
    is what the last output of its own activation answered with, or else what it held before
    (`History.returned`): outputs of functions that are called fill another box. -/

namespace FlowGraph

/-! ## Section 1: Rules -/

/-- A visit of a node. -/
structure Visit where
  site : Site
  /-- The state in which the node starts to execute. -/
  start : DispatchState
  /-- The state in which it has ended. -/
  finish : DispatchState
  /-- How many calls are under way around it. -/
  level : Nat

/-- The visit as it is seen from outside of one more call. -/
def Visit.deeper (v : Visit) : Visit := { v with level := v.level + 1 }

/-- The histories of a part, with the states before and after it. -/
inductive History : Part → DispatchState → List Visit → DispatchState → Prop where
  | chain (frame : Frame) (h : NodeHandle) (path : List NodeHandle) (s t u v : DispatchState)
      (before own after : List Visit) (hpath : frame.graph.dependencyPath h = .ok path)
      (hbefore : History (.path frame path) { s with next := none } before t)
      (hown : History (.visit frame h) { t with next := none } own u)
      (hafter : History (.rest frame u.next) { u with next := none } after v) :
      History (.chain frame h) s (before ++ (own ++ after)) v
  | stop (frame : Frame) (s : DispatchState) : History (.rest frame none) s [] s
  | follow (frame : Frame) (h : NodeHandle) (s t : DispatchState) (vs : List Visit)
      (hchain : History (.chain frame h) s vs t) : History (.rest frame (some h)) s vs t
  | pathEnd (frame : Frame) (s : DispatchState) : History (.path frame []) s [] s
  | pathNode (frame : Frame) (h : NodeHandle) (rest : List NodeHandle) (s t u : DispatchState)
      (v : Visit) (vs : List Visit) (hvisit : History (.visit frame h) s [v] t)
      (hrest : History (.path frame rest) t vs u) :
      History (.path frame (h :: rest)) s (v :: vs) u
  | visit (frame : Frame) (h : NodeHandle) (x : GraphNode) (s t u : DispatchState)
      (vs : List Visit) (hx : frame.graph.node? h = some x)
      (hinside : History (.inside ⟨frame, h⟩ x.behavior) (frame.started x s) vs t)
      (hended : u = frame.ended x
        { t with next := (Site.mk frame h).selected (frame.started x s).store x.behavior }) :
      History (.visit frame h) s (⟨⟨frame, h⟩, frame.started x s, u, 0⟩ :: vs) u
  | plain (site : Site) (b : Behavior) (s t : DispatchState) (hb : b.startsChains = false)
      (hexecute : (site.execute .idle b).Returns s () t) : History (.inside site b) s [] t
  | sequence (site : Site) (s t : DispatchState) (vs : List Visit)
      (hslots : History (.slots site (List.range (site.portCount "then"))) s vs t) :
      History (.inside site .sequence) s vs t
  | forLoop (site : Site) (s t : DispatchState) (vs : List Visit) (first last : Int)
      (hfirst : (site.input "first" 0 s.store).toInt.toInt = first)
      (hlast : (site.input "last" 0 s.store).toInt.toInt = last)
      (hturns : History (.turns site (last - first).toNat first) s vs t) :
      History (.inside site .forLoop) s vs t
  /-- What the callee does is one call deeper. -/
  | call (site : Site) (name : String) (g : Graph) (entry : NodeHandle) (s t : DispatchState)
      (vs : List Visit) (hcallee : site.callee name s.store = .ok (g, entry))
      (hchain : History (.chain (site.callFrame g ⟨name, site.inputs "args" s.store⟩) entry)
        { s with next := none, returned := none } vs t) :
      History (.inside site (.invokeFunction name)) s (vs.map Visit.deeper)
        { t with
          store := site.output "result" 0 (t.returned.getD .null) t.store
          returned := s.returned }
  | unlinked (site : Site) (name : String) (index : Nat) (s : DispatchState)
      (hsuccessor : site.successor name index = none) : History (.port site name index) s [] s
  | linked (site : Site) (name : String) (index : Nat) (h : NodeHandle) (s t : DispatchState)
      (vs : List Visit) (hsuccessor : site.successor name index = some h)
      (hchain : History (.chain site.inner h) s vs t) :
      History (.port site name index) s vs { t with next := s.next }
  | slotsEnd (site : Site) (s : DispatchState) : History (.slots site []) s [] s
  | slot (site : Site) (index : Nat) (rest : List Nat) (s t u : DispatchState)
      (first later : List Visit) (hfirst : History (.port site "then" index) s first t)
      (hlater : History (.slots site rest) t later u) :
      History (.slots site (index :: rest)) s (first ++ later) u
  | turnsEnd (site : Site) (index : Int) (s : DispatchState) :
      History (.turns site 0 index) s [] s
  | turn (site : Site) (count : Nat) (index : Int) (s t u : DispatchState)
      (first later : List Visit)
      (hfirst : History (.port site "body" 0)
        { s with store := site.output "index" 0 (.int (Int64.ofInt index)) s.store } first t)
      (hlater : History (.turns site count (index + 1)) t later u) :
      History (.turns site (count + 1) index) s (first ++ later) u

/-- The visited nodes, in order. -/
def sites (vs : List Visit) : List Site := vs.map Visit.site

@[simp] theorem sites_append (vs ws : List Visit) : sites (vs ++ ws) = sites vs ++ sites ws :=
  List.map_append

@[simp] theorem sites_deeper (vs : List Visit) : sites (vs.map Visit.deeper) = sites vs :=
  List.map_map

/-- Every word is that of a history. -/
theorem Word.history {part : Part} {s t : DispatchState} {w : List Site} (hw : Word part s w t) :
    ∃ vs, History part s vs t ∧ sites vs = w := by
  induction hw with
  | chain frame h path s t u v before own after hpath _ _ _ ihbefore ihown ihafter =>
    obtain ⟨vs, hvs, rfl⟩ := ihbefore
    obtain ⟨ws, hws, rfl⟩ := ihown
    obtain ⟨us, hus, rfl⟩ := ihafter
    exact ⟨_, .chain frame h path s t u v vs ws us hpath hvs hws hus, by simp⟩
  | stop frame s => exact ⟨[], .stop frame s, rfl⟩
  | follow frame h s t w _ ih =>
    obtain ⟨vs, hvs, rfl⟩ := ih
    exact ⟨vs, .follow frame h s t vs hvs, rfl⟩
  | pathEnd frame s => exact ⟨[], .pathEnd frame s, rfl⟩
  | pathNode frame h rest s t u w _ _ ihvisit ihrest =>
    obtain ⟨vs, hvs, hsite⟩ := ihvisit
    obtain ⟨ws, hws, rfl⟩ := ihrest
    obtain ⟨v, rfl, hv⟩ := List.map_eq_singleton_iff.mp hsite
    exact ⟨_, .pathNode frame h rest s t u v ws hvs hws, by simp [sites, hv]⟩
  | visit frame h x s t w hx _ ih =>
    obtain ⟨vs, hvs, rfl⟩ := ih
    exact ⟨_, .visit frame h x s t _ vs hx hvs rfl, rfl⟩
  | plain site b s t hb hexecute => exact ⟨[], .plain site b s t hb hexecute, rfl⟩
  | sequence site s t w _ ih =>
    obtain ⟨vs, hvs, rfl⟩ := ih
    exact ⟨vs, .sequence site s t vs hvs, rfl⟩
  | forLoop site s t w first last hfirst hlast _ ih =>
    obtain ⟨vs, hvs, rfl⟩ := ih
    exact ⟨vs, .forLoop site s t vs first last hfirst hlast hvs, rfl⟩
  | call site name g entry s t w hcallee _ ih =>
    obtain ⟨vs, hvs, rfl⟩ := ih
    exact ⟨_, .call site name g entry s t vs hcallee hvs, sites_deeper vs⟩
  | unlinked site name index s hsuccessor => exact ⟨[], .unlinked site name index s hsuccessor, rfl⟩
  | linked site name index h s t w hsuccessor _ ih =>
    obtain ⟨vs, hvs, rfl⟩ := ih
    exact ⟨vs, .linked site name index h s t vs hsuccessor hvs, rfl⟩
  | slotsEnd site s => exact ⟨[], .slotsEnd site s, rfl⟩
  | slot site index rest s t u first later _ _ ihfirst ihlater =>
    obtain ⟨vs, hvs, rfl⟩ := ihfirst
    obtain ⟨ws, hws, rfl⟩ := ihlater
    exact ⟨_, .slot site index rest s t u vs ws hvs hws, by simp⟩
  | turnsEnd site index s => exact ⟨[], .turnsEnd site index s, rfl⟩
  | turn site count index s t u first later _ _ ihfirst ihlater =>
    obtain ⟨vs, hvs, rfl⟩ := ihfirst
    obtain ⟨ws, hws, rfl⟩ := ihlater
    exact ⟨_, .turn site count index s t u vs ws hvs hws, by simp⟩

/-- A chain of nodes of the library that returns has a history, which lists what the trace
    grew by. -/
theorem runChain_history (fuel : Nat) (frame : Frame) (h : NodeHandle) (s t : DispatchState)
    (hframe : frame.All Network.Orderly) (hrun : (Frame.runChain fuel frame h).Returns s () t) :
    ∃ vs, History (.chain frame h) s vs t ∧
      t.trace.toList = s.trace.toList ++ (sites vs).map Site.guid := by
  obtain ⟨w, hw⟩ := runChain_worded fuel frame h s t hframe hrun
  obtain ⟨vs, hvs, rfl⟩ := hw.history
  exact ⟨vs, hvs, hw.listed.1⟩

/-! ## Section 2: The last of some visits -/

section Last

variable {α : Type} (f : Visit → Option α)

/-- What the last of those visits gives that give anything. -/
def lastOf (vs : List Visit) : Option α := (vs.filterMap f).getLast?

@[simp] theorem lastOf_nil : lastOf f [] = none := rfl

theorem lastOf_append (vs ws : List Visit) :
    lastOf f (vs ++ ws) = (lastOf f ws).or (lastOf f vs) := by
  unfold lastOf
  rw [List.filterMap_append, List.getLast?_append]

theorem lastOf_cons (v : Visit) (vs : List Visit) :
    lastOf f (v :: vs) = (lastOf f vs).or (f v) := by
  have hsingle : lastOf f [v] = f v := by
    unfold lastOf
    cases hv : f v with
    | none => simp [hv]
    | some a => simp [hv]
  rw [← List.singleton_append, lastOf_append, hsingle]

/-- One call deeper the visits may give other things, or nothing. -/
theorem lastOf_deeper (vs : List Visit) :
    lastOf f (vs.map Visit.deeper) = lastOf (f ∘ Visit.deeper) vs := by
  unfold lastOf
  rw [List.filterMap_map]

theorem lastOf_eq_none (vs : List Visit) (h : ∀ v ∈ vs, f v = none) : lastOf f vs = none := by
  unfold lastOf
  rw [List.filterMap_eq_nil_iff.mpr h]
  rfl

end Last

/-! ## Section 3: The return box -/

/-- What a visit of the part's own activation answers with. -/
def Visit.answer? (v : Visit) : Option Value :=
  if v.level = 0 then v.site.node?.bind fun x => v.site.answered v.start.store x.behavior else none

/-- A node on its own may answer too. -/
def Part.answer? : Part → Store → Option Value
  | .inside site b, s => site.answered s b
  | _, _ => none

/-- The return box holds what the last output of the own activation answered with, or what it
    held before. -/
theorem History.returned {part : Part} {s t : DispatchState} {vs : List Visit}
    (h : History part s vs t) :
    t.returned = ((lastOf Visit.answer? vs).or (part.answer? s.store)).or s.returned := by
  induction h with
  | chain frame h path s t u v before own after _ _ _ _ ihbefore ihown ihafter =>
    rw [lastOf_append, lastOf_append, ihafter]
    dsimp only
    rw [ihown]
    dsimp only
    rw [ihbefore]
    simp [Part.answer?, Option.or_assoc]
  | stop frame s => rfl
  | follow frame h s t vs _ ih => exact ih
  | pathEnd frame s => rfl
  | pathNode frame h rest s t u v vs _ _ ihvisit ihrest =>
    rw [lastOf_cons, ihrest, ihvisit, lastOf_cons]
    simp [Part.answer?, Option.or_assoc]
  | visit frame h x s t u vs hx _ hended ih =>
    have hanswer : Visit.answer? ⟨⟨frame, h⟩, frame.started x s, u, 0⟩
        = (Site.mk frame h).answered (frame.started x s).store x.behavior := by
      unfold Visit.answer? Site.node?
      dsimp only
      rw [if_pos rfl, hx, Option.bind_some]
    rw [lastOf_cons, hanswer, hended]
    show t.returned = _
    rw [ih]
    simp only [Part.answer?, Option.or_none]
    rfl
  | plain site b s t hb hexecute => exact (site.does_plain .idle b hb s t hexecute).returned
  | sequence site s t vs _ ih => exact ih
  | forLoop site s t vs first last _ _ _ ih => exact ih
  | call site name g entry s t vs _ _ _ =>
    -- what the callee answered with was in its own box
    have hnone : lastOf Visit.answer? (vs.map Visit.deeper) = none := by
      rw [lastOf_deeper]
      exact lastOf_eq_none _ _ fun v _ => rfl
    rw [hnone]
    rfl
  | unlinked site name index s _ => rfl
  | linked site name index h s t vs _ _ ih => exact ih
  | slotsEnd site s => rfl
  | slot site index rest s t u first later _ _ ihfirst ihlater =>
    rw [lastOf_append, ihlater, ihfirst]
    simp [Part.answer?, Option.or_assoc]
  | turnsEnd site index s => rfl
  | turn site count index s t u first later _ _ ihfirst ihlater =>
    rw [lastOf_append, ihlater, ihfirst]
    simp [Part.answer?, Option.or_assoc]

/-! ## Section 4: What others do meanwhile -/

/-- While the node waited, if it did, others left a cell alone. -/
def Visit.Spares (k : GraphId) (a : PortAddress) (v : Visit) : Prop :=
  ∀ x, v.site.node? = some x → x.behavior = .delay →
    v.finish.store.rowSize k a.node.index = v.start.store.rowSize k a.node.index ∧
      v.finish.store.cell k a = v.start.store.cell k a

/-- The part is not just the wait of a node. -/
def Part.Proceeds : Part → Prop
  | .inside _ b => b ≠ .delay
  | _ => True

theorem Frame.announced_graphs (frame : Frame) (event : GraphEvent) (s : Store) :
    (frame.announced event s).graphs = s.graphs := by
  unfold announced
  split
  · rfl
  · rfl

theorem Store.rowSize_of_graphs {s t : Store} (h : t.graphs = s.graphs) (k : GraphId) (i : Nat) :
    t.rowSize k i = s.rowSize k i :=
  (Store.RowsKept.of_graphs (fun _ => True) h).row k trivial i

theorem Store.cell_of_graphs {s t : Store} (h : t.graphs = s.graphs) (k : GraphId)
    (a : PortAddress) : t.cell k a = s.cell k a := by
  unfold cell
  rw [h]

theorem spares_deeper {k : GraphId} {a : PortAddress} {vs : List Visit}
    (h : ∀ v ∈ vs.map Visit.deeper, v.Spares k a) : ∀ v ∈ vs, v.Spares k a :=
  fun v hv => h v.deeper (List.mem_map_of_mem hv)

/-- Rows keep their sizes, unless others change them. -/
theorem History.rowSize {part : Part} {s t : DispatchState} {vs : List Visit}
    (h : History part s vs t) (k : GraphId) (a : PortAddress) (hpart : part.Proceeds)
    (hvs : ∀ v ∈ vs, v.Spares k a) :
    t.store.rowSize k a.node.index = s.store.rowSize k a.node.index := by
  induction h with
  | chain frame h path s t u v before own after _ _ _ _ ihbefore ihown ihafter =>
    simp only [List.forall_mem_append] at hvs
    exact (ihafter trivial hvs.2.2).trans ((ihown trivial hvs.2.1).trans (ihbefore trivial hvs.1))
  | stop frame s => rfl
  | follow frame h s t vs _ ih => exact ih trivial hvs
  | pathEnd frame s => rfl
  | pathNode frame h rest s t u v vs _ _ ihvisit ihrest =>
    obtain ⟨hv, hvs⟩ := List.forall_mem_cons.mp hvs
    exact (ihrest trivial hvs).trans (ihvisit trivial (List.forall_mem_singleton.mpr hv))
  | visit frame h x s t u vs hx _ hended ih =>
    obtain ⟨hv, hvs⟩ := List.forall_mem_cons.mp hvs
    have hstarted : (frame.started x s).store.rowSize k a.node.index
        = s.store.rowSize k a.node.index :=
      Store.rowSize_of_graphs (frame.announced_graphs _ _) k _
    by_cases hb : x.behavior = .delay
    · exact (hv x hx hb).1.trans hstarted
    · have hfinish : u.store.rowSize k a.node.index = t.store.rowSize k a.node.index := by
        rw [hended]
        exact Store.rowSize_of_graphs (frame.announced_graphs _ _) k _
      exact hfinish.trans ((ih hb hvs).trans hstarted)
  | plain site b s t hb hexecute =>
    exact ((site.does_plain .idle b hb s t hexecute).touches hpart).rows.row k trivial _
  | sequence site s t vs _ ih => exact ih trivial hvs
  | forLoop site s t vs first last _ _ _ ih => exact ih trivial hvs
  | call site name g entry s t vs _ _ ih =>
    have hwritten := (site.touches_output "result" 0 (t.returned.getD .null) t.store).rows.row k
      trivial a.node.index
    exact hwritten.trans (ih trivial (spares_deeper hvs))
  | unlinked site name index s _ => rfl
  | linked site name index h s t vs _ _ ih => exact ih trivial hvs
  | slotsEnd site s => rfl
  | slot site index rest s t u first later _ _ ihfirst ihlater =>
    obtain ⟨hfirst, hlater⟩ := List.forall_mem_append.mp hvs
    exact (ihlater trivial hlater).trans (ihfirst trivial hfirst)
  | turnsEnd site index s => rfl
  | turn site count index s t u first later _ _ ihfirst ihlater =>
    obtain ⟨hfirst, hlater⟩ := List.forall_mem_append.mp hvs
    have hwritten := (site.touches_output "index" 0 (.int (Int64.ofInt index)) s.store).rows.row k
      trivial a.node.index
    exact (ihlater trivial hlater).trans ((ihfirst trivial hfirst).trans hwritten)

/-! ## Section 5: Entries -/

/-- The visits of a path are those of its nodes. -/
theorem History.path_sites {frame : Frame} {hs : List NodeHandle} {s t : DispatchState}
    {vs : List Visit} (h : History (.path frame hs) s vs t) :
    sites vs = hs.map (Site.mk frame) := by
  induction hs generalizing s vs with
  | nil =>
    cases h
    rfl
  | cons first rest ih =>
    cases h with
    | pathNode _ _ _ _ _ _ v vs hvisit hrest =>
      have hsite : v.site = ⟨frame, first⟩ := by
        cases hvisit
        rfl
      show v.site :: sites vs = _
      rw [hsite, ih hrest]
      rfl

/-- The dependency path of a node has no waits. -/
theorem Frame.All.spares {frame : Frame} (hframe : frame.All Network.Orderly) (h : NodeHandle)
    (path : List NodeHandle) (hpath : frame.graph.dependencyPath h = .ok path) {vs : List Visit}
    (hvs : sites vs = path.map (Site.mk frame)) (k : GraphId) (a : PortAddress) :
    ∀ v ∈ vs, v.Spares k a := by
  intro v hv x hx hdelay
  have hsite : v.site ∈ path.map (Site.mk frame) := hvs ▸ List.mem_map_of_mem hv
  obtain ⟨m, hm, hmv⟩ := List.mem_map.mp hsite
  obtain ⟨y, hy, _, hsignature⟩ := hframe.onDemand h path hpath m hm
  rw [← hmv] at hx
  have hsame : some y = some x := hy.symm.trans hx
  cases hsame
  rw [hdelay] at hsignature
  cases hsignature

/-- The chain of a function starts with the dependency path of its entry, and then the entry
    publishes the arguments of the call, one in each slot and `null` behind the last one. -/
theorem History.entered {frame : Frame} {entry : NodeHandle} {s t : DispatchState}
    {vs : List Visit} (h : History (.chain frame entry) s vs t)
    (hframe : frame.All Network.Orderly) (x : GraphNode)
    (hx : frame.graph.node? entry = some x) (name : String) (hb : x.behavior = .functionInput name)
    (hslotted : x.Slotted) :
    ∃ before v after, vs = before ++ v :: after ∧ v.site = ⟨frame, entry⟩ ∧ v.level = 0 ∧
      v.site.RunsPath (sites before) ∧
      (s.store.rowSize frame.graph.id entry.index = some x.ports.length →
        ∀ index a, v.site.address? "args" index = some a →
          v.finish.store.cell frame.graph.id a = frame.call.argument index) := by
  cases h with
  | chain _ _ path _ u w _ before own after hpath hbefore hown hafter =>
    cases hown with
    | visit _ _ y _ r _ inner hy hinside hended =>
      rw [hx] at hy
      cases hy
      have hsites := hbefore.path_sites
      refine ⟨before, _, inner ++ after, rfl, rfl, rfl, ⟨path, hpath, hsites⟩, fun hrow index a ha => ?_⟩
      rw [hb] at hinside
      cases hinside with
      | plain _ _ _ _ _ hexecute =>
        obtain ⟨_, rfl⟩ := (Process.ends_done_iff _ _ _ _).mp hexecute
        -- the path and the announcement change no row
        have hpathRow := hbefore.rowSize frame.graph.id ⟨entry, 0⟩ trivial
          (hframe.spares entry path hpath hsites _ _)
        have hstarted : (frame.started x { u with next := none }).store.rowSize frame.graph.id
            entry.index = some x.ports.length :=
          (Store.rowSize_of_graphs (frame.announced_graphs _ _) _ _).trans (hpathRow.trans hrow)
        have hcell := (Site.mk frame entry).cell_published x hx hslotted _ hstarted index a ha
        rw [hended]
        exact (Store.cell_of_graphs (frame.announced_graphs _ _) _ _).trans hcell

end FlowGraph
