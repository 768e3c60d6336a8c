import FlowGraph.Proofs.Dispatch.Reach
import FlowGraph.Proofs.Dispatch.Returning

/-! # Words of chains

    The word of a chain lists the visits of nodes in the order in which they start: the
    dependency path, the node, what runs inside of it, and the chain of the successor that
    it selects.  `Word` gives the words by rules, with the states in between, since a branch
    and a loop look at values.

    Main statements: the trace grows by the guids of the word (`Word.listed`); every visit of
    a forward node stands right behind the path of the node, and apart from the first one such
    a node is visited because an earlier one leads to it (`Word.accounted`). -/

namespace FlowGraph

/-! ## Section 1: Rules -/

/-- A part of a dispatch. -/
inductive Part where
  /-- The chain that starts at a node. -/
  | chain (frame : Frame) (h : NodeHandle)
  /-- The chain that goes on with a successor, if there is one. -/
  | rest (frame : Frame) (next : Option NodeHandle)
  /-- Nodes of a dependency path. -/
  | path (frame : Frame) (hs : List NodeHandle)
  /-- One node. -/
  | visit (frame : Frame) (h : NodeHandle)
  /-- The sub-executions of a node. -/
  | inside (site : Site) (b : Behavior)
  /-- The chain at a control output. -/
  | port (site : Site) (name : String) (index : Nat)
  /-- The chains at slots of a sequence. -/
  | slots (site : Site) (indices : List Nat)
  /-- The last turns of a loop. -/
  | turns (site : Site) (count : Nat) (index : Int)

/-- The meaning of a chain for nodes that run none. -/
def Chain.idle : Chain := fun _ _ => pure ()

/-- The words of a part, with the states before and after it. -/
inductive Word : Part → DispatchState → List Site → DispatchState → Prop where
  | chain (frame : Frame) (h : NodeHandle) (path : List NodeHandle) (s t u v : DispatchState)
      (before own after : List Site) (hpath : frame.graph.dependencyPath h = .ok path)
      (hbefore : Word (.path frame path) { s with next := none } before t)
      (hown : Word (.visit frame h) { t with next := none } own u)
      (hafter : Word (.rest frame u.next) { u with next := none } after v) :
      Word (.chain frame h) s (before ++ (own ++ after)) v
  | stop (frame : Frame) (s : DispatchState) : Word (.rest frame none) s [] s
  | follow (frame : Frame) (h : NodeHandle) (s t : DispatchState) (w : List Site)
      (hchain : Word (.chain frame h) s w t) : Word (.rest frame (some h)) s w t
  | pathEnd (frame : Frame) (s : DispatchState) : Word (.path frame []) s [] s
  | pathNode (frame : Frame) (h : NodeHandle) (rest : List NodeHandle) (s t u : DispatchState)
      (w : List Site) (hvisit : Word (.visit frame h) s [⟨frame, h⟩] t)
      (hrest : Word (.path frame rest) t w u) : Word (.path frame (h :: rest)) s (⟨frame, h⟩ :: w) u
  | visit (frame : Frame) (h : NodeHandle) (x : GraphNode) (s t : DispatchState) (w : List Site)
      (hx : frame.graph.node? h = some x)
      (hinside : Word (.inside ⟨frame, h⟩ x.behavior) (frame.started x s) w t) :
      Word (.visit frame h) s (⟨frame, h⟩ :: w) (frame.ended x
        { t with next := (Site.mk frame h).selected (frame.started x s).store x.behavior })
  /-- Most nodes run nothing inside. -/
  | plain (site : Site) (b : Behavior) (s t : DispatchState) (hb : b.startsChains = false)
      (hexecute : (site.execute .idle b).Returns s () t) : Word (.inside site b) s [] t
  /-- A sequence runs the chains at its slots, in order. -/
  | sequence (site : Site) (s t : DispatchState) (w : List Site)
      (hslots : Word (.slots site (List.range (site.portCount "then"))) s w t) :
      Word (.inside site .sequence) s w t
  /-- A loop runs its body from the first index up to the last one, which is left out. -/
  | forLoop (site : Site) (s t : DispatchState) (w : List Site) (first last : Int)
      (hfirst : (site.input "first" 0 s.store).toInt.toInt = first)
      (hlast : (site.input "last" 0 s.store).toInt.toInt = last)
      (hturns : Word (.turns site (last - first).toNat first) s w t) :
      Word (.inside site .forLoop) s w t
  /-- A call runs the chain of the callee's entry in the graph of the callee. -/
  | call (site : Site) (name : String) (g : Graph) (entry : NodeHandle) (s t : DispatchState)
      (w : List Site) (hcallee : site.callee name s.store = .ok (g, entry))
      (hchain : Word (.chain (site.callFrame g ⟨name, site.inputs "args" s.store⟩) entry)
        { s with next := none, returned := none } w t) :
      Word (.inside site (.invokeFunction name)) s w
        { t with
          store := site.output "result" 0 (t.returned.getD .null) t.store
          returned := s.returned }
  | unlinked (site : Site) (name : String) (index : Nat) (s : DispatchState)
      (hsuccessor : site.successor name index = none) : Word (.port site name index) s [] s
  | linked (site : Site) (name : String) (index : Nat) (h : NodeHandle) (s t : DispatchState)
      (w : List Site) (hsuccessor : site.successor name index = some h)
      (hchain : Word (.chain site.inner h) s w t) :
      Word (.port site name index) s w { t with next := s.next }
  | slotsEnd (site : Site) (s : DispatchState) : Word (.slots site []) s [] s
  | slot (site : Site) (index : Nat) (rest : List Nat) (s t u : DispatchState)
      (first later : List Site) (hfirst : Word (.port site "then" index) s first t)
      (hlater : Word (.slots site rest) t later u) :
      Word (.slots site (index :: rest)) s (first ++ later) u
  | turnsEnd (site : Site) (index : Int) (s : DispatchState) : Word (.turns site 0 index) s [] s
  | turn (site : Site) (count : Nat) (index : Int) (s t u : DispatchState)
      (first later : List Site)
      (hfirst : Word (.port site "body" 0)
        { s with store := site.output "index" 0 (.int (Int64.ofInt index)) s.store } first t)
      (hlater : Word (.turns site count (index + 1)) t later u) :
      Word (.turns site (count + 1) index) s (first ++ later) u

/-! ## Section 2: Trace and count -/

/-- The trace grew by the guids of the visited nodes, and every visit was counted. -/
def Listed (s : DispatchState) (w : List Site) (t : DispatchState) : Prop :=
  t.trace.toList = s.trace.toList ++ w.map Site.guid ∧ t.steps = s.steps + w.length

theorem listed_nil (s : DispatchState) : Listed s [] s := by simp [Listed]

theorem Listed.append {s t u : DispatchState} {w v : List Site} (hw : Listed s w t)
    (hv : Listed t v u) : Listed s (w ++ v) u := by
  refine ⟨?_, ?_⟩
  · rw [hv.1, hw.1, List.map_append, List.append_assoc]
  · rw [hv.2, hw.2, List.length_append, Nat.add_assoc]

/-- A node that starts is listed with its guid. -/
theorem listed_started (frame : Frame) (h : NodeHandle) (x : GraphNode)
    (hx : frame.graph.node? h = some x) (s : DispatchState) :
    Listed s [⟨frame, h⟩] (frame.started x s) := by
  have hguid : (Site.mk frame h).guid = x.guid := by
    unfold Site.guid Site.node?
    rw [hx]
    rfl
  simp [Listed, Frame.started, hguid]

theorem Word.listed {part : Part} {s t : DispatchState} {w : List Site} (hw : Word part s w t) :
    Listed s w t := by
  induction hw with
  | chain frame h path s t u v before own after _ _ _ _ ihbefore ihown ihafter =>
    have hown : Listed t own u := ihown
    have hafter : Listed u after v := ihafter
    exact Listed.append ihbefore (hown.append hafter)
  | stop frame s => exact listed_nil s
  | follow frame h s t w _ ih => exact ih
  | pathEnd frame s => exact listed_nil s
  | pathNode frame h rest s t u w _ _ ihvisit ihrest => exact ihvisit.append ihrest
  | visit frame h x s t w hx _ ih => exact (listed_started frame h x hx s).append ih
  | plain site b s t hb hexecute =>
    obtain ⟨store, returned, next, rfl, _⟩ := site.returns_plain .idle b hb s t hexecute
    exact listed_nil s
  | sequence site s t w _ ih => exact ih
  | forLoop site s t w first last _ _ _ ih => exact ih
  | call site name g entry s t w _ _ ih => exact ih
  | unlinked site name index s _ => exact listed_nil s
  | linked site name index h s t w _ _ ih => exact ih
  | slotsEnd site s => exact listed_nil s
  | slot site index rest s t u first later _ _ ihfirst ihlater => exact ihfirst.append ihlater
  | turnsEnd site index s => exact listed_nil s
  | turn site count index s t u first later _ _ ihfirst ihlater => exact Listed.append ihfirst ihlater

/-! ## Section 3: Graphs that words are made of -/

/-- What the words rely on: cached paths list nodes on demand, and all nodes are of the
    library. -/
structure Network.Orderly (n : Network) : Prop where
  consistent : n.Consistent
  pathsOnDemand : n.PathsOnDemand
  ofLibrary : n.OfLibrary

theorem Graph.Hosted.orderly {g : Graph} (hg : Graph.Hosted g) (hnodes : g.All Network.OfLibrary) :
    g.All Network.Orderly := by
  have hpaths := hg.pathsOnDemand
  clear hg
  induction hpaths with
  | intro g network functions ih =>
    refine .intro g ⟨network.1, network.2, hnodes.network⟩ fun f hf => ?_
    exact ih f hf (hnodes.functions f hf)

/-- The nodes of a path run on demand. -/
theorem Frame.All.onDemand {frame : Frame} (hframe : frame.All Network.Orderly) (h : NodeHandle)
    (path : List NodeHandle) (hpath : frame.graph.dependencyPath h = .ok path) (m : NodeHandle)
    (hm : m ∈ path) : ∃ x, frame.graph.node? m = some x ∧ x.descriptor.path = .dependency ∧
      x.behavior.signature.isSome = true := by
  have hnetwork := hframe.graph.network
  obtain ⟨x, hx, hdemand⟩ := frame.graph.onDemand_of_dependencyPath hnetwork.consistent.sound
    hnetwork.pathsOnDemand h path hpath m hm
  exact ⟨x, hx, hdemand, (hnetwork.ofLibrary m x hx).2 hdemand⟩

/-! ## Section 4: Forward nodes -/

namespace Site

/-- The visited node is a forward node. -/
def IsForward (v : Site) : Prop := ∃ x, v.node? = some x ∧ x.descriptor.path = .forward

/-- A node is linked to another one at a control output, or calls the function that starts
    there. -/
inductive LeadsTo (u v : Site) : Prop where
  | link (name : String) (index : Nat) (hgraph : v.frame.graph = u.frame.graph)
      (hsuccessor : u.successor name index = some v.node)
  | call (x : GraphNode) (name : String) (s : Store) (hx : u.node? = some x)
      (hcall : x.behavior = .invokeFunction name)
      (hcallee : u.callee name s = .ok (v.frame.graph, v.node))

/-- The dependency path of the node, in its own frame. -/
def RunsPath (v : Site) (w : List Site) : Prop :=
  ∃ path, v.frame.graph.dependencyPath v.node = .ok path ∧ w = path.map (Site.mk v.frame)

/-- The whole dependency path of the node was run right before it. -/
def Preceded (v : Site) (before : List Site) : Prop := ∃ w, v.RunsPath w ∧ w <:+ before

theorem Preceded.append {v : Site} {before : List Site} (h : v.Preceded before)
    (earlier : List Site) : v.Preceded (earlier ++ before) := by
  obtain ⟨w, hw, hsuffix⟩ := h
  exact ⟨w, hw, hsuffix.trans (List.suffix_append earlier before)⟩

/-- An earlier visit leads to the node, and its path was run since. -/
def Continues (v : Site) (before : List Site) : Prop :=
  v.Preceded before ∧ ∃ u ∈ before, u.LeadsTo v

theorem Continues.append {v : Site} {before : List Site} (h : v.Continues before)
    (earlier : List Site) : v.Continues (earlier ++ before) := by
  obtain ⟨hpath, u, hu, hleads⟩ := h
  exact ⟨hpath.append earlier, u, List.mem_append_right earlier hu, hleads⟩

/-- The node leads to this one, whose path was just run. -/
def Starts (site : Site) (before : List Site) (v : Site) : Prop :=
  site.LeadsTo v ∧ v.Preceded before

end Site

namespace Part

/-- How a part starts with a forward node. -/
def Starts : Part → List Site → Site → Prop
  | .chain frame h, before, v => v = ⟨frame, h⟩ ∧ v.RunsPath before
  | .rest frame next, before, v => ∃ h, next = some h ∧ v = ⟨frame, h⟩ ∧ v.RunsPath before
  | .path _ _, _, _ => True
  | .visit frame h, before, v => v = ⟨frame, h⟩ ∧ before = []
  | .inside site _, before, v => site.Starts before v
  | .port site _ _, before, v => site.Starts before v
  | .slots site _, before, v => site.Starts before v
  | .turns site _ _, before, v => site.Starts before v

/-- The part belongs to an orderly graph, and sub-executions to their node. -/
def Orderly : Part → Prop
  | .chain frame _ => frame.All Network.Orderly
  | .rest frame _ => frame.All Network.Orderly
  | .path frame _ => frame.All Network.Orderly
  | .visit frame _ => frame.All Network.Orderly
  | .inside site b => site.frame.All Network.Orderly ∧ ∃ x, site.node? = some x ∧ x.behavior = b
  | .port site _ _ => site.frame.All Network.Orderly
  | .slots site _ => site.frame.All Network.Orderly
  | .turns site _ _ => site.frame.All Network.Orderly

end Part

/-- A position in two words in a row is one in the first or one in the second. -/
theorem split_append {α : Type} (first later before after : List α) (v : α)
    (h : first ++ later = before ++ v :: after) :
    (∃ rest, first = before ++ v :: rest) ∨
      ∃ rest, before = first ++ rest ∧ later = rest ++ v :: after := by
  rcases List.append_eq_append_iff.mp h with ⟨rest, hbefore, hlater⟩ | ⟨rest, hfirst, hv⟩
  · exact .inr ⟨rest, hbefore, hlater⟩
  · cases rest with
    | nil =>
      rw [List.append_nil] at hfirst
      exact .inr ⟨[], by rw [hfirst, List.append_nil], hv.symm⟩
    | cons a rest =>
      cases hv
      exact .inl ⟨rest, hfirst⟩

/-- Every forward node of a word starts it or continues what was visited before. -/
def Accounted (starts : List Site → Site → Prop) (w : List Site) : Prop :=
  ∀ before after v, w = before ++ v :: after → v.IsForward → starts before v ∨ v.Continues before

theorem accounted_nil (starts : List Site → Site → Prop) : Accounted starts [] := by
  intro before after v hsplit _
  simp at hsplit

/-- Several chains that one node starts. -/
theorem Accounted.append {site : Site} {first later : List Site}
    (hfirst : Accounted site.Starts first) (hlater : Accounted site.Starts later) :
    Accounted site.Starts (first ++ later) := by
  intro before after v hsplit hv
  rcases split_append first later before after v hsplit with ⟨rest, heq⟩ | ⟨rest, rfl, heq⟩
  · exact hfirst before rest v heq hv
  · rcases hlater rest after v heq hv with ⟨hleads, hpath⟩ | hcontinues
    · exact .inl ⟨hleads, hpath.append first⟩
    · exact .inr (hcontinues.append first)

/-- A chain starts with the node that another one leads to. -/
theorem Accounted.of_chain {site : Site} {frame : Frame} {h : NodeHandle} {w : List Site}
    (hleads : site.LeadsTo ⟨frame, h⟩) (hw : Accounted (Part.chain frame h).Starts w) :
    Accounted site.Starts w := by
  intro before after v hsplit hv
  rcases hw before after v hsplit hv with ⟨rfl, hpath⟩ | hcontinues
  · exact .inl ⟨hleads, before, hpath, List.suffix_refl before⟩
  · exact .inr hcontinues

/-- A visit of a node, and what runs inside of it. -/
theorem Accounted.visit {frame : Frame} {h : NodeHandle} {w : List Site}
    (hw : Accounted (Site.mk frame h).Starts w) :
    Accounted (Part.visit frame h).Starts (⟨frame, h⟩ :: w) := by
  intro before after v hsplit hv
  cases before with
  | nil =>
    cases hsplit
    exact .inl ⟨rfl, rfl⟩
  | cons first rest =>
    obtain ⟨rfl, heq⟩ := List.cons.inj hsplit
    right
    rcases hw rest after v heq hv with ⟨hleads, hpath⟩ | hcontinues
    · exact ⟨hpath.append [⟨frame, h⟩], ⟨frame, h⟩, List.mem_cons_self, hleads⟩
    · exact hcontinues.append [⟨frame, h⟩]

theorem Word.path_eq {frame : Frame} {hs : List NodeHandle} {s t : DispatchState} {w : List Site}
    (hw : Word (.path frame hs) s w t) : w = hs.map (Site.mk frame) := by
  induction hs generalizing s w with
  | nil =>
    cases hw
    rfl
  | cons h rest ih =>
    cases hw with
    | pathNode _ _ _ _ _ _ w _ hrest => rw [ih hrest, List.map_cons]

/-- What a node selects is linked to it. -/
theorem Word.visit_leads {frame : Frame} {h k : NodeHandle} {s t : DispatchState} {w : List Site}
    (hw : Word (.visit frame h) s w t) (hnext : t.next = some k) :
    (Site.mk frame h) ∈ w ∧ (Site.mk frame h).LeadsTo ⟨frame, k⟩ := by
  cases hw with
  | visit _ _ x _ u w hx _ =>
    obtain ⟨name, hsuccessor⟩ := Site.successor_of_selected _ _ _ k hnext
    exact ⟨List.mem_cons_self, .link name 0 rfl hsuccessor⟩

/-- A dependency path, a visit and the chain of the successor in a row. -/
theorem Accounted.chain {frame : Frame} {h : NodeHandle} {path : List NodeHandle}
    {own after : List Site} {next : Option NodeHandle} (hframe : frame.All Network.Orderly)
    (hpath : frame.graph.dependencyPath h = .ok path)
    (hown : Accounted (Part.visit frame h).Starts own)
    (hleads : ∀ k, next = some k → ⟨frame, h⟩ ∈ own ∧ (Site.mk frame h).LeadsTo ⟨frame, k⟩)
    (hafter : Accounted (Part.rest frame next).Starts after) :
    Accounted (Part.chain frame h).Starts (path.map (Site.mk frame) ++ (own ++ after)) := by
  intro before later v hsplit hv
  rcases split_append _ _ before later v hsplit with ⟨rest, heq⟩ | ⟨rest, rfl, heq⟩
  · -- nodes of the path are no forward nodes
    have hmem : v ∈ path.map (Site.mk frame) := by
      rw [heq]
      exact List.mem_append_right before List.mem_cons_self
    obtain ⟨m, hm, rfl⟩ := List.mem_map.mp hmem
    obtain ⟨x, hx, hdemand, _⟩ := hframe.onDemand h path hpath m hm
    obtain ⟨y, hy, hforward⟩ := hv
    have hsame : some x = some y := hx.symm.trans hy
    cases hsame
    rw [hdemand] at hforward
    cases hforward
  · rcases split_append _ _ rest later v heq with ⟨rest', heq'⟩ | ⟨rest', rfl, heq'⟩
    · rcases hown rest rest' v heq' hv with ⟨rfl, rfl⟩ | hcontinues
      · exact .inl ⟨rfl, path, hpath, List.append_nil _⟩
      · exact .inr (hcontinues.append _)
    · rcases hafter rest' later v heq' hv with ⟨k, hnext, rfl, hruns⟩ | hcontinues
      · -- the node selected this one
        obtain ⟨hmem, hleads⟩ := hleads k hnext
        refine .inr ⟨⟨rest', hruns, ?_⟩, _, ?_, hleads⟩
        · exact (List.suffix_append own rest').trans (List.suffix_append _ _)
        · exact List.mem_append_right _ (List.mem_append_left rest' hmem)
      · exact .inr ((hcontinues.append own).append _)

/-- In the word of a part, every forward node that the part does not start with continues
    what was visited before. -/
theorem Word.accounted {part : Part} {s t : DispatchState} {w : List Site} (hw : Word part s w t)
    (hpart : part.Orderly) : Accounted part.Starts w := by
  induction hw with
  | chain frame h path s t u x first own later hpath hbefore hown _ _ ihown ihafter =>
    rw [hbefore.path_eq]
    exact .chain hpart hpath (ihown hpart) (fun k hk => hown.visit_leads hk) (ihafter hpart)
  | stop frame s => exact accounted_nil _
  | follow frame h s t w _ ih =>
    intro before after v hsplit hv
    exact (ih hpart before after v hsplit hv).imp_left fun hstarts => ⟨h, rfl, hstarts⟩
  | pathEnd frame s => exact accounted_nil _
  | pathNode frame h rest s t u w _ _ _ _ => exact fun _ _ _ _ _ => .inl trivial
  | visit frame h x s t w hx _ ih => exact .visit (ih ⟨hpart, x, hx, rfl⟩)
  | plain site b s t _ _ => exact accounted_nil _
  | sequence site s t w _ ih => exact ih hpart.1
  | forLoop site s t w first last _ _ _ ih => exact ih hpart.1
  | call site name g entry s t w hcallee _ ih =>
    obtain ⟨hframe, x, hx, hcall⟩ := hpart
    have hchain := ih (hframe.callFrame name s.store g entry _ hcallee)
    exact .of_chain (.call x name s.store hx hcall hcallee) hchain
  | unlinked site name index s _ => exact accounted_nil _
  | linked site name index h s t w hsuccessor _ ih =>
    have hleads : site.LeadsTo ⟨site.inner, h⟩ := .link name index rfl hsuccessor
    exact .of_chain hleads (ih hpart.inner)
  | slotsEnd site s => exact accounted_nil _
  | slot site index rest s t u first later _ _ ihfirst ihlater =>
    exact Accounted.append (ihfirst hpart) (ihlater hpart)
  | turnsEnd site index s => exact accounted_nil _
  | turn site count index s t u first later _ _ ihfirst ihlater =>
    exact Accounted.append (ihfirst hpart) (ihlater hpart)

end FlowGraph
