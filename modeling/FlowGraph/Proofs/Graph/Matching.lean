import FlowGraph.Proofs.Graph.Linked
import FlowGraph.Proofs.Graph.Loading

/-! # Networks that match

    Two networks match if their nodes do, one by one in the order in which they were added:
    the same guids, types, records and slots, with links that lead to matching nodes.  Their
    handles may differ.  `R` relates the handles of nodes that match.

    Linking looks at guids, slots and records only, so that matching networks are linked
    alike (`Network.Matches.link`), and have the same dependencies. -/

namespace FlowGraph

/-! ## Section 1: Matching nodes -/

variable {R : NodeHandle → NodeHandle → Prop}

/-- Two links start at the same slot of matching nodes. -/
structure PortLink.Matches (R : NodeHandle → NodeHandle → Prop) (l l' : PortLink) : Prop where
  node : R l.source.node l'.source.node
  port : l'.source.port = l.source.port
  compatibility : l'.compatibility = l.compatibility

/-- Two slots are the same up to links, and their links match. -/
structure Port.Matches (R : NodeHandle → NodeHandle → Prop) (p q : Port) : Prop where
  slot : q.unlinked = p.unlinked
  link : Option.Rel (PortLink.Matches R) p.link q.link
  target : Option.Rel R p.target q.target

/-- Two nodes have the same guid, type and records, and their slots match. -/
structure GraphNode.Matches (R : NodeHandle → NodeHandle → Prop) (x y : GraphNode) : Prop where
  guid : y.guid = x.guid
  descriptor : y.descriptor = x.descriptor
  records : y.records = x.records
  ports : List.Forall₂ (Port.Matches R) x.ports y.ports
  dependencies : List.Forall₂ R x.dependencies y.dependencies

/-- Two networks have matching nodes, in the order in which they were added. -/
def Network.Matches (R : NodeHandle → NodeHandle → Prop) (n m : Network) : Prop :=
  List.Forall₂ (fun e f => R e.1 f.1 ∧ e.2.Matches R f.2) n.placed m.placed

/-- Two new links join the same slots of matching nodes. -/
inductive NewLink.Matches (R : NodeHandle → NodeHandle → Prop) : NewLink → NewLink → Prop where
  | data (target target' : PortAddress) (link link' : PortLink)
      (node : R target.node target'.node) (port : target'.port = target.port)
      (source : link.Matches R link') : Matches R (.data target link) (.data target' link')
  | control (source source' : PortAddress) (target target' : NodeHandle)
      (node : R source.node source'.node) (port : source'.port = source.port)
      (successor : R target target') : Matches R (.control source target) (.control source' target')

/-- Two connections were checked alike. -/
inductive CheckedAlike (R : NodeHandle → NodeHandle → Prop) :
    Except LinkProblem NewLink → Except LinkProblem NewLink → Prop where
  | ok (l l' : NewLink) (links : l.Matches R l') : CheckedAlike R (.ok l) (.ok l')
  | error (e e' : LinkProblem) : CheckedAlike R (.error e) (.error e')

/-- What has one position in two related lists is related. -/
theorem rel_getElem? {α β : Type} {S : α → β → Prop} {xs : List α} {ys : List β}
    (h : List.Forall₂ S xs ys) (i : Nat) : Option.Rel S xs[i]? ys[i]? := by
  induction h generalizing i with
  | nil => exact .none
  | cons hxy _ ih =>
    cases i with
    | zero => exact .some hxy
    | succ i => exact ih i

/-- A slot is found at the same position. -/
theorem GraphNode.portIndex_matches {x y : GraphNode}
    (h : List.Forall₂ (Port.Matches R) x.ports y.ports) (name : String) (index : Nat) :
    y.portIndex name index = x.portIndex name index := by
  have hports : x.ports.map Port.unlinked = y.ports.map Port.unlinked :=
    map_eq_of_forall₂ (h.imp fun p q hpq => hpq.slot.symm)
  rw [← Network.portIndex_unlinked y, ← Network.portIndex_unlinked x]
  unfold GraphNode.portIndex GraphNode.unlinked
  rw [hports]

namespace Port.Matches

variable {p q : Port}

/-- What does not depend on links is the same. -/
theorem same {α : Type} (h : p.Matches R q) (f : Port → α) (hf : ∀ p : Port, f p.unlinked = f p) :
    f q = f p := by
  rw [← hf q, h.slot, hf p]

/-- Two slots go together if matching ones do. -/
theorem checkLink {p' q' : Port} (hp : p.Matches R p') (hq : q.Matches R q')
    (conversions : Conversions) :
    Port.checkLink p' q' conversions = Port.checkLink p q conversions := by
  rw [hp.same (Port.checkLink · q' conversions) fun _ => rfl,
    hq.same (Port.checkLink p · conversions) fun _ => rfl]

end Port.Matches

/-! ## Section 2: Checking records -/

namespace Network

variable {n m : Network}

/-- Guids and handles lead to nodes whose slots match. -/
structure FindsAlike (R : NodeHandle → NodeHandle → Prop) (n m : Network) : Prop where
  handle : ∀ guid, Option.Rel R (n.handleOf guid) (m.handleOf guid)
  node : ∀ h k, R h k → ∃ x y, n.node? h = some x ∧ m.node? k = some y ∧
    List.Forall₂ (Port.Matches R) x.ports y.ports

theorem checkConnection_matches (hfinds : n.FindsAlike R m) (conversions : Conversions)
    (x y : GraphNode) (a b : PortAddress) (hnode : R a.node b.node) (hport : b.port = a.port)
    (p q : Port) (hpq : p.Matches R q) (c : PortConnection) :
    Option.Rel (CheckedAlike R) (n.checkConnection conversions x a p c)
      (m.checkConnection conversions y b q c) := by
  have hkind := hpq.same Port.isControl fun _ => rfl
  unfold checkConnection
  obtain ⟨found, hn⟩ : ∃ found, n.handleOf c.nodeGuid = found := ⟨_, rfl⟩
  obtain ⟨found', hm⟩ : ∃ found', m.handleOf c.nodeGuid = found' := ⟨_, rfl⟩
  have hhandle := hfinds.handle c.nodeGuid
  rw [hn, hm] at hhandle ⊢
  cases hhandle with
  | none => exact .some (.error _ _)
  | @some h k hhk =>
    obtain ⟨x', y', hx', hy', hmatch⟩ := hfinds.node h k hhk
    simp only [hx', hy', Option.map_some, GraphNode.portIndex_matches hmatch]
    refine .some ?_
    cases x'.portIndex c.portName c.portIndex with
    | none => exact .error _ _
    | some i =>
      -- the target is at one position in both nodes
      have hget := rel_getElem? hmatch i
      dsimp only
      generalize x'.ports[i]? = input, y'.ports[i]? = input' at hget
      cases hget with
      | none => exact .error _ _
      | some hinput =>
        simp only [hpq.checkLink hinput, hkind]
        split
        · exact .error _ _
        · split
          · exact .ok _ _ (.control _ _ _ _ hnode hport hhk)
          · exact .ok _ _ (.data _ _ _ _ hhk rfl ⟨hnode, hport, rfl⟩)

theorem checkRecord_matches (hfinds : n.FindsAlike R m) (conversions : Conversions)
    (h k : NodeHandle) (hhk : R h k) (x y : GraphNode)
    (hxy : List.Forall₂ (Port.Matches R) x.ports y.ports) (r : PortData) :
    List.Forall₂ (CheckedAlike R) (n.checkRecord conversions h x r)
      (m.checkRecord conversions k y r) := by
  unfold checkRecord
  rw [GraphNode.portIndex_matches hxy]
  split
  · exact .nil
  · cases x.portIndex r.name r.index with
    | none => exact .cons (.error _ _) .nil
    | some i =>
      have hget := rel_getElem? hxy i
      dsimp only
      generalize x.ports[i]? = output, y.ports[i]? = output' at hget
      cases hget with
      | none => exact .cons (.error _ _) .nil
      | @some p q hpq =>
        have hdirection := hpq.same Port.direction fun _ => rfl
        have hcounted := hpq.same (countedConnections · r) fun _ => rfl
        simp only [hdirection, hcounted]
        split
        · exact .cons (.error _ _) .nil
        · refine List.rel_filterMap (R := Eq) ?_ (List.forall₂_refl _)
          rintro c _ rfl
          exact checkConnection_matches hfinds conversions x y ⟨h, i⟩ ⟨k, i⟩ hhk rfl p q hpq c

/-- All connections are checked alike. -/
theorem checkAll_matches (hnodes : n.Matches R m) (hfinds : n.FindsAlike R m)
    (conversions : Conversions) :
    List.Forall₂ (CheckedAlike R) (n.checkAll conversions) (m.checkAll conversions) := by
  refine List.rel_flatMap hnodes ?_
  rintro e f ⟨hhk, hxy⟩
  dsimp only
  rw [hxy.records]
  refine List.rel_flatMap (R := Eq) (List.forall₂_refl _) ?_
  rintro r _ rfl
  exact checkRecord_matches hfinds conversions e.1 f.1 hhk e.2 f.2 hxy.ports r

theorem validLinks_matches {checked checked' : List (Except LinkProblem NewLink)}
    (h : List.Forall₂ (CheckedAlike R) checked checked') :
    List.Forall₂ (NewLink.Matches R) (validLinks checked) (validLinks checked') := by
  refine List.rel_filterMap ?_ h
  rintro _ _ (⟨l, l', hl⟩ | ⟨e, e'⟩)
  · exact .some hl
  · exact .none

/-! ## Section 3: Making links -/

theorem rel_modify {α β : Type} {S : α → β → Prop} {xs : List α} {ys : List β}
    (h : List.Forall₂ S xs ys) (i : Nat) (f : α → α) (g : β → β)
    (hfg : ∀ x y, S x y → S (f x) (g y)) : List.Forall₂ S (xs.modify i f) (ys.modify i g) := by
  induction h generalizing i with
  | nil => cases i <;> exact .nil
  | cons hxy hrest ih =>
    cases i with
    | zero => exact .cons (hfg _ _ hxy) hrest
    | succ i => exact .cons hxy (ih i)

theorem linkInput_matches (hR : Relator.BiUnique R) {target target' : PortAddress}
    {link link' : PortLink} {x y : GraphNode} (hnode : R target.node target'.node)
    (hport : target'.port = target.port) (hlink : link.Matches R link') (hxy : x.Matches R y) :
    (linkInput target link x).Matches R (linkInput target' link' y) := by
  have hports : List.Forall₂ (Port.Matches R)
      (x.ports.modify target.port fun p => { p with link := some link })
      (y.ports.modify target'.port fun p => { p with link := some link' }) := by
    rw [hport]
    exact rel_modify hxy.ports _ _ _ fun p q hpq => ⟨hpq.slot, .some hlink, hpq.target⟩
  -- whether the source is listed already does not depend on the handles
  have hlisted : (link'.source.node = target'.node ∨ link'.source.node ∈ y.dependencies) ↔
      (link.source.node = target.node ∨ link.source.node ∈ x.dependencies) :=
    or_congr (Relator.rel_eq hR hlink.node hnode).symm
      (List.rel_mem hR hlink.node hxy.dependencies).symm
  unfold linkInput GraphNode.modifyPort
  simp only [Bool.or_eq_true, decide_eq_true_eq, List.contains_iff_mem]
  by_cases h : link.source.node = target.node ∨ link.source.node ∈ x.dependencies
  · rw [if_pos h, if_pos (hlisted.mpr h)]
    exact ⟨hxy.guid, hxy.descriptor, hxy.records, hports, hxy.dependencies⟩
  · rw [if_neg h, if_neg (mt hlisted.mp h)]
    exact ⟨hxy.guid, hxy.descriptor, hxy.records, hports,
      List.rel_append hxy.dependencies (.cons hlink.node .nil)⟩

/-- Changing the nodes of two matching handles alike. -/
theorem modify_matches (hR : Relator.BiUnique R) (h : n.Matches R m) (a b : NodeHandle)
    (hab : R a b) (f g : GraphNode → GraphNode)
    (hfg : ∀ x y, x.Matches R y → (f x).Matches R (g y)) :
    Matches R { n with nodes := n.nodes.modify a f } { m with nodes := m.nodes.modify b g } := by
  unfold Matches
  rw [(n.differs_modify a f).placed, (m.differs_modify b g).placed, List.forall₂_map_left_iff,
    List.forall₂_map_right_iff]
  refine h.imp fun e e' he => ⟨he.1, ?_⟩
  have hsame : e.1 = a ↔ e'.1 = b := Relator.rel_eq hR he.1 hab
  by_cases hea : e.1 = a
  · rw [if_pos hea, if_pos (hsame.mp hea)]
    exact hfg _ _ he.2
  · rw [if_neg hea, if_neg (mt hsame.mpr hea)]
    exact he.2

theorem makeLink_matches (hR : Relator.BiUnique R) {l l' : NewLink} (hl : l.Matches R l')
    (h : n.Matches R m) : (n.makeLink l).Matches R (m.makeLink l') := by
  cases hl with
  | data target target' link link' hnode hport hlink =>
    exact modify_matches hR h _ _ hnode _ _ fun _ _ => linkInput_matches hR hnode hport hlink
  | control source source' target target' hnode hport hsuccessor =>
    refine modify_matches hR h _ _ hnode _ _ fun x y hxy => ?_
    refine ⟨hxy.guid, hxy.descriptor, hxy.records, ?_, hxy.dependencies⟩
    rw [hport]
    exact rel_modify hxy.ports _ _ _ fun p q hpq => ⟨hpq.slot, hpq.link, .some hsuccessor⟩

theorem makeLinks_matches (hR : Relator.BiUnique R) {links links' : List NewLink}
    (hlinks : List.Forall₂ (NewLink.Matches R) links links') (h : n.Matches R m) :
    (n.makeLinks links).1.Matches R (m.makeLinks links').1 := by
  induction hlinks generalizing n m with
  | nil => exact h
  | cons hl _ ih => exact ih (makeLink_matches hR hl h)

/-! ## Section 4: Handles of one position -/

/-- Two handles have the same position in the orders of two networks. -/
def Twins (n m : Network) (h k : NodeHandle) : Prop :=
  ∃ i : Nat, n.order[i]? = some h ∧ m.order[i]? = some k

theorem twins_biUnique (hn : n.Sound) (hm : m.Sound) : Relator.BiUnique (n.Twins m) := by
  have hposition : ∀ {l : Network}, l.Sound → ∀ (i j : Nat) (h : NodeHandle), l.order[i]? = some h →
      l.order[j]? = some h → i = j := by
    intro l hl i j h hi hj
    exact (List.getElem?_inj (List.getElem?_eq_some_iff.mp hi).1 hl.nodup_order).mp (hi.trans hj.symm)
  constructor
  · rintro h h' k ⟨i, hi, hk⟩ ⟨j, hj, hk'⟩
    rw [hposition hm j i k hk' hk, hi] at hj
    exact Option.some.inj hj
  · rintro h k k' ⟨i, hh, hi⟩ ⟨j, hh', hj⟩
    rw [hposition hn j i h hh' hh, hi] at hj
    exact Option.some.inj hj

/-- The matching node of a live one. -/
theorem Matches.node (h : n.Matches R m) (hn : n.Sound) (hm : m.Sound) (a b : NodeHandle)
    (hab : n.Twins m a b) :
    ∃ x y, n.node? a = some x ∧ m.node? b = some y ∧ x.Matches R y := by
  obtain ⟨i, ha, hb⟩ := hab
  obtain ⟨x, hx⟩ := (hn.mem_order_iff a).mp (List.mem_of_getElem? ha)
  obtain ⟨y, hy⟩ := (hm.mem_order_iff b).mp (List.mem_of_getElem? hb)
  obtain ⟨e, he, _, hxe⟩ := exists_right_of_forall₂ h i _ (n.placed_getElem? hn i a x ha hx)
  rw [m.placed_getElem? hm i b y hb hy] at he
  cases he
  exact ⟨x, y, hx, hy, hxe⟩

/-- Guids that are found in one network are found in the other one. -/
theorem Matches.findsAlike (h : n.Matches (n.Twins m) m) (hn : n.Sound) (hm : m.Sound)
    (hdistinct : n.Distinct) (hdistinct' : m.Distinct) : n.FindsAlike (n.Twins m) m := by
  have hnode : ∀ a b, n.Twins m a b → ∃ x y, n.node? a = some x ∧ m.node? b = some y ∧
      List.Forall₂ (Port.Matches (n.Twins m)) x.ports y.ports := by
    intro a b hab
    obtain ⟨x, y, hx, hy, hxy⟩ := h.node hn hm a b hab
    exact ⟨x, y, hx, hy, hxy.ports⟩
  refine ⟨fun guid => ?_, hnode⟩
  cases ha : n.handleOf guid with
  | some a =>
    obtain ⟨x, hx, rfl⟩ := n.exists_of_handleOf guid a ha
    obtain ⟨i, hi⟩ := List.mem_iff_getElem?.mp ((n.mem_placed_iff hn a x).mpr hx)
    obtain ⟨⟨b, y⟩, hj, hab, hxy⟩ := exists_right_of_forall₂ h i (a, x) hi
    have hy := m.node?_of_mem_placed b y (List.mem_of_getElem? hj)
    rw [← hxy.guid, hdistinct'.handleOf b y hy]
    exact .some hab
  | none =>
    cases hb : m.handleOf guid with
    | none => exact .none
    | some b =>
      obtain ⟨y, hy, rfl⟩ := m.exists_of_handleOf guid b hb
      obtain ⟨i, hi⟩ := List.mem_iff_getElem?.mp ((m.mem_placed_iff hm b y).mpr hy)
      obtain ⟨⟨a, x⟩, hj, hab, hxy⟩ := exists_left_of_forall₂ h i (b, y) hi
      have hx := n.node?_of_mem_placed a x (List.mem_of_getElem? hj)
      rw [hxy.guid, hdistinct.handleOf a x hx] at ha
      cases ha

/-- Matching networks are linked alike. -/
theorem Matches.link (h : n.unlinked.Matches (n.Twins m) m.unlinked) (hn : n.unlinked.Sound)
    (hm : m.unlinked.Sound) (hdistinct : n.unlinked.Distinct) (hdistinct' : m.unlinked.Distinct)
    (conversions : Conversions) :
    (n.link conversions).1.Matches (n.Twins m) (m.link conversions).1 := by
  have hfinds : n.unlinked.FindsAlike (n.Twins m) m.unlinked :=
    Matches.findsAlike h hn hm hdistinct hdistinct'
  exact makeLinks_matches (twins_biUnique hn hm)
    (validLinks_matches (checkAll_matches h hfinds conversions)) h

theorem indexOf_twins (hn : n.Sound) (hm : m.Sound) (a b : NodeHandle) (hab : n.Twins m a b) :
    m.indexOf b = n.indexOf a := by
  obtain ⟨i, ha, hb⟩ := hab
  rw [(n.indexOf_eq_some_iff hn a i).mpr ha, (m.indexOf_eq_some_iff hm b i).mpr hb]

/-- Matching networks have the same dependencies. -/
theorem Matches.dependencies (h : n.Matches (n.Twins m) m) (hn : n.Sound) (hm : m.Sound) :
    m.dependencies = n.dependencies := by
  have hedges : n.placed.map (fun e => e.2.dependencies.filterMap n.indexOf)
      = m.placed.map fun e => e.2.dependencies.filterMap m.indexOf := by
    refine map_eq_of_forall₂ (h.imp fun e f hef => ?_)
    rw [← List.forall₂_eq_eq_eq]
    refine List.rel_filterMap (fun a b hab => ?_) hef.2.dependencies
    rw [indexOf_twins hn hm a b hab]
    cases n.indexOf a with
    | none => exact .none
    | some i => exact .some rfl
  have hforward : n.placed.map (fun e => decide (e.2.descriptor.path = .forward))
      = m.placed.map fun e => decide (e.2.descriptor.path = .forward) :=
    map_eq_of_forall₂ (h.imp fun e f hef => by rw [hef.2.descriptor])
  have hnames : n.placed.map (fun e => e.2.guid) = m.placed.map fun e => e.2.guid :=
    map_eq_of_forall₂ (h.imp fun e f hef => hef.2.guid.symm)
  unfold Network.dependencies
  rw [hedges, hforward, hnames]

end Network

end FlowGraph
