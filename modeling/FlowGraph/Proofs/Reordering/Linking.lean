import FlowGraph.Proofs.Reordering.Paths
import FlowGraph.Proofs.Validation.Cycles

/-! # Linking under other names

    Links are made one after the other, so that of several into one slot the last one stays
    (`port?_makeLinks`).  Which links are made does not depend on the order of the nodes, but
    the order of the links does.  It does not matter where no input slot has two of them; the
    links from an output slot are all recorded at one node, in the order of its records.

    So networks with the same nodes in another order (`Network.Reordered`) are linked alike
    (`Reordered.link`), and depend on the same nodes (`Reordered.needs`). -/

namespace FlowGraph

open Relation

/-! ## Section 1: The last link stays -/

namespace NewLink

/-- The slot whose node records the connection. -/
def source : NewLink → PortAddress
  | .data _ link => link.source
  | .control source _ => source

/-- The link that is made into a slot. -/
def into (a : PortAddress) : NewLink → Option PortLink
  | .data target link => if target = a then some link else none
  | .control _ _ => none

/-- The successor that a slot is given. -/
def successor (a : PortAddress) : NewLink → Option NodeHandle
  | .data _ _ => none
  | .control source target => if source = a then some target else none

@[simp] theorem into_data (a target : PortAddress) (link : PortLink) :
    (data target link).into a = if target = a then some link else none := rfl

@[simp] theorem into_control (a source : PortAddress) (target : NodeHandle) :
    (control source target).into a = none := rfl

@[simp] theorem successor_data (a target : PortAddress) (link : PortLink) :
    (data target link).successor a = none := rfl

@[simp] theorem successor_control (a source : PortAddress) (target : NodeHandle) :
    (control source target).successor a = if source = a then some target else none := rfl

theorem into_eq_some_iff (a : PortAddress) (new : NewLink) (l : PortLink) :
    new.into a = some l ↔ new = .data a l := by
  cases new with
  | data target link =>
    by_cases h : target = a
    · simp [h]
    · simp [h]
  | control source target => simp

theorem source_of_successor (a : PortAddress) (new : NewLink) (k : NodeHandle)
    (h : new.successor a = some k) : new.source = a := by
  cases new with
  | data target link => cases h
  | control source target =>
    by_cases hsource : source = a
    · exact hsource
    · rw [successor_control, if_neg hsource] at h
      cases h

end NewLink

namespace Network

theorem port?_makeLink (n : Network) (new : NewLink) (a : PortAddress) :
    (n.makeLink new).port? a = (n.port? a).map fun p =>
      { p with link := (new.into a).or p.link, target := (new.successor a).or p.target } := by
  cases new with
  | control source target =>
    rw [port?_modify n _ source _ _ rfl fun _ => rfl]
    by_cases h : a = source
    · simp [h]
    · simp [h, Ne.symm h]
  | data target link =>
    rw [port?_modify n _ target _ _ rfl (ports_linkInput target link)]
    by_cases h : a = target
    · simp [h]
    · simp [h, Ne.symm h]

theorem getLast?_filterMap_cons {α β : Type} (f : α → Option β) (x : α) (xs : List α) (o : Option β) :
    ((x :: xs).filterMap f).getLast?.or o = (xs.filterMap f).getLast?.or ((f x).or o) := by
  cases hx : f x with
  | none => rw [List.filterMap_cons_none hx, Option.none_or]
  | some y =>
    rw [List.filterMap_cons_some hx, List.getLast?_cons]
    cases (xs.filterMap f).getLast? <;> rfl

/-- Of the links of a slot the last one stays. -/
theorem port?_makeLinks (n : Network) (links : List NewLink) (a : PortAddress) :
    (n.makeLinks links).1.port? a = (n.port? a).map fun p =>
      { p with
        link := (links.filterMap (NewLink.into a)).getLast?.or p.link
        target := (links.filterMap (NewLink.successor a)).getLast?.or p.target } := by
  induction links generalizing n with
  | nil =>
    show n.port? a = _
    cases n.port? a <;> rfl
  | cons new rest ih =>
    show ((n.makeLink new).makeLinks rest).1.port? a = _
    rw [ih, port?_makeLink, Option.map_map]
    refine congrArg (Option.map · (n.port? a)) (funext fun p => ?_)
    rw [getLast?_filterMap_cons, getLast?_filterMap_cons]
    rfl

/-- A node depends on the other nodes with a data link into it. -/
theorem mem_foldl_gather (h k : NodeHandle) (links : List NewLink) (found : List NodeHandle) :
    k ∈ links.foldl (gather h) found ↔ k ∈ found ∨
      ∃ target l, NewLink.data target l ∈ links ∧ target.node = h ∧ l.source.node = k ∧ k ≠ h := by
  induction links generalizing found with
  | nil => simp
  | cons new rest ih =>
    rw [List.foldl_cons, ih]
    cases new with
    | control source target => simp [gather]
    | data target link =>
      have hfirst : k ∈ gather h found (.data target link) ↔
          k ∈ found ∨ (target.node = h ∧ link.source.node = k ∧ k ≠ h) := by
        rw [gather_data]
        split <;> grind
      rw [hfirst, or_assoc]
      refine or_congr_right ?_
      constructor
      · rintro (hhere | ⟨target', l, hl, hrest⟩)
        · exact ⟨target, link, List.mem_cons_self, hhere⟩
        · exact ⟨target', l, List.mem_cons_of_mem _ hl, hrest⟩
      · rintro ⟨target', l, hl, hrest⟩
        rcases List.mem_cons.mp hl with heq | hl
        · cases heq
          exact .inl hrest
        · exact .inr ⟨target', l, hl, hrest⟩

/-! ## Section 2: The records of a node -/

theorem mem_checkAll_iff {n : Network} (hn : n.Sound) (conversions : Conversions)
    (r : Except LinkProblem NewLink) : r ∈ n.checkAll conversions ↔
      ∃ h x, n.node? h = some x ∧ r ∈ x.records.flatMap (n.checkRecord conversions h x) := by
  unfold checkAll
  rw [List.mem_flatMap]
  constructor
  · rintro ⟨⟨h, x⟩, hx, hr⟩
    exact ⟨h, x, n.node?_of_mem_placed h x hx, hr⟩
  · rintro ⟨h, x, hx, hr⟩
    exact ⟨(h, x), (n.mem_placed_iff hn h x).mpr hx, hr⟩

/-- A valid connection is recorded at the node of its source. -/
theorem source_of_mem_checkRecord (n : Network) (conversions : Conversions) (h : NodeHandle)
    (x : GraphNode) (r : PortData) (new : NewLink)
    (hmem : .ok new ∈ n.checkRecord conversions h x r) : new.source.node = h := by
  unfold checkRecord at hmem
  split at hmem
  · cases hmem
  · split at hmem
    · cases List.mem_singleton.mp hmem
    · split at hmem
      · cases List.mem_singleton.mp hmem
      · split at hmem
        · cases List.mem_singleton.mp hmem
        · obtain ⟨c, _, hc⟩ := List.mem_filterMap.mp hmem
          obtain ⟨_, _, rfl | ⟨_, rfl⟩⟩ := n.checkConnection_ok conversions x _ _ c new hc
          · rfl
          · rfl

/-- Records without connections and constants do not matter. -/
theorem flatMap_checkRecord_connected (n : Network) (conversions : Conversions) (h : NodeHandle)
    (x : GraphNode) (records : List PortData) :
    records.flatMap (n.checkRecord conversions h x)
      = (connected records).flatMap (n.checkRecord conversions h x) := by
  induction records with
  | nil => rfl
  | cons r rest ih =>
    rw [List.flatMap_cons, ih]
    unfold connected
    by_cases hr : r.connections.isEmpty = true
    · rw [checkRecord_empty n conversions h x r hr, List.filter_cons_of_neg (by simp [hr])]
      rfl
    · rw [List.filter_cons_of_pos (by simp [hr]), List.map_cons, List.flatMap_cons]
      rfl

/-- Where keys are distinct, only one entry has something for a key. -/
theorem flatMap_eq_of_key {α β γ : Type} {xs : List (α × β)} (hnodup : (xs.map Prod.fst).Nodup)
    (e : α × β) (he : e ∈ xs) (f : α × β → List γ) (hf : ∀ e', e'.1 ≠ e.1 → f e' = []) :
    xs.flatMap f = f e := by
  induction xs with
  | nil => cases he
  | cons first rest ih =>
    rw [List.map_cons, List.nodup_cons] at hnodup
    rw [List.flatMap_cons]
    rcases List.mem_cons.mp he with rfl | hrest
    · have hnone : rest.flatMap f = [] := by
        refine List.flatMap_eq_nil_iff.mpr fun e' he' => hf e' fun heq => hnodup.1 ?_
        rw [← heq]
        exact List.mem_map_of_mem he'
      rw [hnone, List.append_nil]
    · have hfirst : first.1 ≠ e.1 := fun heq => hnodup.1 (heq ▸ List.mem_map_of_mem hrest)
      rw [hf first hfirst, List.nil_append]
      exact ih hnodup.2 hrest

/-- All successors of a slot come from the records of its node. -/
theorem successors_eq {n : Network} (hn : n.Sound) (conversions : Conversions) (a : PortAddress)
    (x : GraphNode) (hx : n.node? a.node = some x) :
    (validLinks (n.checkAll conversions)).filterMap (NewLink.successor a)
      = (validLinks (x.records.flatMap (n.checkRecord conversions a.node x))).filterMap
          (NewLink.successor a) := by
  have hsplit : ∀ blocks : List (List (Except LinkProblem NewLink)),
      (validLinks blocks.flatten).filterMap (NewLink.successor a)
        = blocks.flatMap fun block => (validLinks block).filterMap (NewLink.successor a) := by
    intro blocks
    unfold validLinks
    rw [List.filterMap_flatten, List.filterMap_flatten, List.map_map]
    rfl
  unfold checkAll
  rw [List.flatMap_def, hsplit, List.flatMap_map]
  refine flatMap_eq_of_key (e := (a.node, x)) ?_ ((n.mem_placed_iff hn _ _).mpr hx) _ ?_
  · rw [n.map_fst_placed hn]
    exact hn.nodup_order
  · -- links from other slots are none from this one
    rintro ⟨h, y⟩ hne
    refine List.filterMap_eq_nil_iff.mpr fun new hnew => ?_
    obtain ⟨r, _, hr⟩ := List.mem_flatMap.mp ((mem_validLinks _ new).mp hnew)
    by_contra hsome
    obtain ⟨k, hk⟩ := Option.ne_none_iff_exists'.mp hsome
    have hsource := n.source_of_mem_checkRecord conversions h y r new hr
    rw [new.source_of_successor a k hk] at hsource
    exact hne hsource.symm

end Network

/-! ## Section 3: The same nodes in another order -/

variable {ren : Renaming} {n m : Network}

/-- Two networks have the same nodes, with the same connections, under related names. -/
structure Network.Reordered (ren : Renaming) (n m : Network) : Prop where
  sound : n.Sound ∧ m.Sound
  total : (∀ h x, n.node? h = some x → ∃ k, ren.node h k) ∧
    ∀ k y, m.node? k = some y → ∃ h, ren.node h k
  node : ∀ h k, ren.node h k → ∃ x y, n.node? h = some x ∧ m.node? k = some y ∧
    x.Alike ren ren.node y ∧ connected y.records = connected x.records
  handle : ∀ guid, Option.Rel ren.node (n.handleOf guid) (m.handleOf guid)

/-- No slot has two data links into it. -/
def Network.Single (n : Network) (conversions : Conversions) : Prop :=
  ∀ a l l', .ok (.data a l) ∈ n.checkAll conversions → .ok (.data a l') ∈ n.checkAll conversions →
    l = l'

namespace Network.Reordered

theorem finds (h : n.Reordered ren m) : n.FindsAlike ren.node m := by
  refine ⟨h.handle, fun a b hab => ?_⟩
  obtain ⟨x, y, hx, hy, hxy, _⟩ := h.node a b hab
  exact ⟨x, y, hx, hy, hxy.ports⟩

/-- The records of namesakes are checked alike. -/
theorem checked (h : n.Reordered ren m) (conversions : Conversions) {a b : NodeHandle}
    (hab : ren.node a b) {x y : GraphNode} (hx : n.node? a = some x) (hy : m.node? b = some y) :
    List.Forall₂ (CheckedAlike ren.node) (x.records.flatMap (n.checkRecord conversions a x))
      (y.records.flatMap (m.checkRecord conversions b y)) := by
  obtain ⟨x', y', hx', hy', hxy, hconnected⟩ := h.node a b hab
  obtain rfl : x' = x := Option.some.inj (hx'.symm.trans hx)
  obtain rfl : y' = y := Option.some.inj (hy'.symm.trans hy)
  rw [n.flatMap_checkRecord_connected, m.flatMap_checkRecord_connected, hconnected]
  refine List.rel_flatMap (R := Eq) (List.forall₂_refl _) ?_
  rintro r _ rfl
  exact checkRecord_matches h.finds conversions a b hab x' y' hxy.ports r

/-- A valid connection of the one network is one of the other. -/
theorem exists_matching (h : n.Reordered ren m) (conversions : Conversions) :
    (∀ new, .ok new ∈ n.checkAll conversions →
      ∃ new', new.Matches ren.node new' ∧ .ok new' ∈ m.checkAll conversions) ∧
    ∀ new', .ok new' ∈ m.checkAll conversions →
      ∃ new, new.Matches ren.node new' ∧ .ok new ∈ n.checkAll conversions := by
  constructor
  · intro new hnew
    obtain ⟨a, x, hx, hmem⟩ := (mem_checkAll_iff h.sound.1 conversions _).mp hnew
    obtain ⟨b, hab⟩ := h.total.1 a x hx
    obtain ⟨_, y, _, hy, _⟩ := h.node a b hab
    obtain ⟨i, hi⟩ := List.mem_iff_getElem?.mp hmem
    obtain ⟨r, hr, hrel⟩ := exists_right_of_forall₂ (h.checked conversions hab hx hy) i _ hi
    cases hrel with
    | ok _ new' hlinks =>
      exact ⟨new', hlinks, (mem_checkAll_iff h.sound.2 conversions _).mpr
        ⟨b, y, hy, List.mem_of_getElem? hr⟩⟩
  · intro new' hnew'
    obtain ⟨b, y, hy, hmem⟩ := (mem_checkAll_iff h.sound.2 conversions _).mp hnew'
    obtain ⟨a, hab⟩ := h.total.2 b y hy
    obtain ⟨x, _, hx, _⟩ := h.node a b hab
    obtain ⟨i, hi⟩ := List.mem_iff_getElem?.mp hmem
    obtain ⟨r, hr, hrel⟩ := exists_left_of_forall₂ (h.checked conversions hab hx hy) i _ hi
    cases hrel with
    | ok new _ hlinks =>
      exact ⟨new, hlinks, (mem_checkAll_iff h.sound.1 conversions _).mpr
        ⟨a, x, hx, List.mem_of_getElem? hr⟩⟩

theorem rel_getLast?_of_forall₂ {α β : Type} {S : α → β → Prop} {xs : List α} {ys : List β}
    (h : List.Forall₂ S xs ys) : Option.Rel S xs.getLast? ys.getLast? := by
  rw [List.getLast?_eq_getElem?, List.getLast?_eq_getElem?, h.length_eq]
  exact rel_getElem? h _

/-- Where all elements are equal, the last one is any of them. -/
theorem rel_getLast?_of_mem {α β : Type} {S : α → β → Prop} {xs : List α} {ys : List β}
    (hone : ∀ x ∈ xs, ∀ x' ∈ xs, x = x') (hright : ∀ x ∈ xs, ∃ y ∈ ys, S x y)
    (hleft : ∀ y ∈ ys, ∃ x ∈ xs, S x y) : Option.Rel S xs.getLast? ys.getLast? := by
  cases hy : ys.getLast? with
  | none =>
    rw [List.getLast?_eq_none_iff] at hy
    subst hy
    have hx : xs = [] := List.eq_nil_iff_forall_not_mem.mpr fun x hx => by
      obtain ⟨y, hy, _⟩ := hright x hx
      cases hy
    rw [hx]
    exact .none
  | some y =>
    obtain ⟨x, hx, hxy⟩ := hleft y (List.mem_of_getLast? hy)
    cases hx' : xs.getLast? with
    | none =>
      rw [List.getLast?_eq_none_iff] at hx'
      rw [hx'] at hx
      cases hx
    | some x' =>
      rw [hone x' (List.mem_of_getLast? hx') x hx]
      exact .some hxy

theorem rel_or {α β : Type} {S : α → β → Prop} {o u : Option α} {o' u' : Option β}
    (ho : Option.Rel S o o') (hu : Option.Rel S u u') : Option.Rel S (o.or u) (o'.or u') := by
  cases ho with
  | none => exact hu
  | some h => exact .some h

/-- Related names are the same on one side if they are on the other. -/
theorem address_eq_iff {a b c d : PortAddress} (hab : ren.node a.node b.node)
    (hport : b.port = a.port) (hcd : ren.node c.node d.node) (hport' : d.port = c.port) :
    a = c ↔ b = d := by
  have hnodes := Relator.rel_eq ren.node_unique hab hcd
  cases a
  cases b
  cases c
  cases d
  simp only [PortAddress.mk.injEq] at *
  rw [hport, hport', hnodes]

/-- The links into related slots. -/
theorem links (h : n.Reordered ren m) (conversions : Conversions) (hsingle : n.Single conversions)
    {a b : PortAddress} (hnode : ren.node a.node b.node) (hport : b.port = a.port) :
    Option.Rel (PortLink.Matches ren.node)
      ((validLinks (n.checkAll conversions)).filterMap (NewLink.into a)).getLast?
      ((validLinks (m.checkAll conversions)).filterMap (NewLink.into b)).getLast? := by
  have hmem : ∀ (k : Network) (c : PortAddress) l,
      l ∈ (validLinks (k.checkAll conversions)).filterMap (NewLink.into c) ↔
        .ok (.data c l) ∈ k.checkAll conversions := by
    intro k c l
    simp only [List.mem_filterMap, NewLink.into_eq_some_iff, exists_eq_right, mem_validLinks]
  refine rel_getLast?_of_mem (fun l hl l' hl' => ?_) (fun l hl => ?_) fun l' hl' => ?_
  · exact hsingle a l l' ((hmem n a l).mp hl) ((hmem n a l').mp hl')
  · obtain ⟨new', hnew', hin⟩ := (h.exists_matching conversions).1 _ ((hmem n a l).mp hl)
    cases hnew' with
    | data _ target' _ link' hcd hport' hlink =>
      obtain rfl := (address_eq_iff hcd hport' hnode hport).mp rfl
      exact ⟨link', (hmem m _ link').mpr hin, hlink⟩
  · obtain ⟨new, hnew, hin⟩ := (h.exists_matching conversions).2 _ ((hmem m b l').mp hl')
    cases hnew with
    | data target _ link _ hcd hport' hlink =>
      obtain rfl := (address_eq_iff hcd hport' hnode hport).mpr rfl
      exact ⟨link, (hmem n _ link).mpr hin, hlink⟩

/-- The successors of related slots. -/
theorem successors (h : n.Reordered ren m) (conversions : Conversions) {a b : PortAddress}
    (hnode : ren.node a.node b.node) (hport : b.port = a.port) :
    Option.Rel ren.node
      ((validLinks (n.checkAll conversions)).filterMap (NewLink.successor a)).getLast?
      ((validLinks (m.checkAll conversions)).filterMap (NewLink.successor b)).getLast? := by
  obtain ⟨x, y, hx, hy, _⟩ := h.node _ _ hnode
  rw [successors_eq h.sound.1 conversions a x hx, successors_eq h.sound.2 conversions b y hy]
  refine rel_getLast?_of_forall₂ (List.rel_filterMap ?_
    (validLinks_matches (h.checked conversions hnode hx hy)))
  rintro _ _ (⟨target, target', link, link', _, _, _⟩ | ⟨c, d, k, k', hcd, hport', hk⟩)
  · exact .none
  · have hsame := address_eq_iff hcd hport' hnode hport
    rw [NewLink.successor_control, NewLink.successor_control]
    by_cases hc : c = a
    · rw [if_pos hc, if_pos (hsame.mp hc)]
      exact .some hk
    · rw [if_neg hc, if_neg (mt hsame.mpr hc)]
      exact .none

/-! ## Section 4: Linking -/

theorem rel_ports {α β : Type} {S : α → β → Prop} {xs : List α} {ys : List β}
    (h : ∀ i : Nat, Option.Rel S xs[i]? ys[i]?) : List.Forall₂ S xs ys := by
  induction xs generalizing ys with
  | nil =>
    cases ys with
    | nil => exact .nil
    | cons y ys => cases h 0
  | cons x xs ih =>
    cases ys with
    | nil => cases h 0
    | cons y ys =>
      have hfirst : Option.Rel S (some x) (some y) := h 0
      cases hfirst with
      | some hxy => exact .cons hxy (ih fun i => h (i + 1))

/-- Networks without links are reordered as they are with links. -/
theorem unlinked (h : n.Reordered ren m) : n.unlinked.Reordered ren m.unlinked := by
  have hsound : ∀ {k : Network}, k.Sound → k.unlinked.Sound := fun {k} hk =>
    hk.of_unlinked_eq k.unlinked_unlinked (Arena.map_wellFormed _ _ hk.arena)
  have hnode : ∀ {k : Network} {a : NodeHandle} {x : GraphNode}, k.node? a = some x →
      k.unlinked.node? a = some x.unlinked := by
    intro k a x hx
    rw [node?_unlinked, hx, Option.map_some]
  refine ⟨⟨hsound h.sound.1, hsound h.sound.2⟩, ⟨fun a x hx => ?_, fun b y hy => ?_⟩,
    fun a b hab => ?_, fun guid => ?_⟩
  · rw [node?_unlinked] at hx
    obtain ⟨x, hx, _⟩ := Option.map_eq_some_iff.mp hx
    exact h.total.1 a x hx
  · rw [node?_unlinked] at hy
    obtain ⟨y, hy, _⟩ := Option.map_eq_some_iff.mp hy
    exact h.total.2 b y hy
  · obtain ⟨x, y, hx, hy, hxy, hconnected⟩ := h.node a b hab
    refine ⟨_, _, hnode hx, hnode hy, ⟨hxy.guid, hxy.descriptor, hxy.behavior, ?_, hxy.vars⟩,
      hconnected⟩
    exact List.rel_map (fun p q hpq => ⟨hpq.slot, .none, .none⟩) hxy.ports
  · rw [handleOf_unlinked, handleOf_unlinked]
    exact h.handle guid

/-- The valid connections are linked alike. -/
theorem makeLinks (h : n.Reordered ren m) (conversions : Conversions)
    (hsingle : n.Single conversions) :
    (n.makeLinks (validLinks (n.checkAll conversions))).1.Reordered ren
      (m.makeLinks (validLinks (m.checkAll conversions))).1 := by
  obtain ⟨n', hn'⟩ : ∃ n', (n.makeLinks (validLinks (n.checkAll conversions))).1 = n' := ⟨_, rfl⟩
  obtain ⟨m', hm'⟩ : ∃ m', (m.makeLinks (validLinks (m.checkAll conversions))).1 = m' := ⟨_, rfl⟩
  have hn : n'.unlinked = n.unlinked := hn' ▸ n.unlinked_makeLinks _
  have hm : m'.unlinked = m.unlinked := hm' ▸ m.unlinked_makeLinks _
  rw [hn', hm']
  refine ⟨⟨?_, ?_⟩, ⟨fun a x hx => ?_, fun b y hy => ?_⟩, fun a b hab => ?_, fun guid => ?_⟩
  · exact h.sound.1.of_unlinked_eq hn (hn' ▸ n.makeLinks_wellFormed _ h.sound.1.arena)
  · exact h.sound.2.of_unlinked_eq hm (hm' ▸ m.makeLinks_wellFormed _ h.sound.2.arena)
  · obtain ⟨x, hx, _⟩ := node?_of_unlinked_eq hn.symm a x hx
    exact h.total.1 a x hx
  · obtain ⟨y, hy, _⟩ := node?_of_unlinked_eq hm.symm b y hy
    exact h.total.2 b y hy
  · obtain ⟨x, y, hx, hy, hxy, hconnected⟩ := h.node a b hab
    obtain ⟨x', hx', hxx⟩ := node?_of_unlinked_eq hn a x hx
    obtain ⟨y', hy', hyy⟩ := node?_of_unlinked_eq hm b y hy
    have hkept : ∀ {α : Type} (f : GraphNode → α), (∀ z : GraphNode, f z.unlinked = f z) →
        f y = f x → f y' = f x' := by
      intro α f hf hsame
      rw [← hf y', hyy, hf y, hsame, ← hf x, ← hxx, hf x']
    refine ⟨x', y', hx', hy', ⟨hkept _ (fun _ => rfl) hxy.guid, hkept _ (fun _ => rfl) hxy.descriptor,
      hkept _ (fun _ => rfl) hxy.behavior, rel_ports fun i => ?_, ?_⟩,
      hkept (fun z => connected z.records) (fun _ => rfl) hconnected⟩
    · -- slot by slot, the last link into it and its last successor
      have hxport : n'.port? ⟨a, i⟩ = x'.ports[i]? := by
        show (n'.node? a).bind _ = _
        rw [hx']
        rfl
      have hyport : m'.port? ⟨b, i⟩ = y'.ports[i]? := by
        show (m'.node? b).bind _ = _
        rw [hy']
        rfl
      have hlinks := h.links conversions hsingle (a := ⟨a, i⟩) (b := ⟨b, i⟩) hab rfl
      have hsuccessors := h.successors conversions (a := ⟨a, i⟩) (b := ⟨b, i⟩) hab rfl
      have hbefore : Option.Rel (Port.Matches ren.node) (n.port? ⟨a, i⟩) (m.port? ⟨b, i⟩) := by
        show Option.Rel _ ((n.node? a).bind _) ((m.node? b).bind _)
        rw [hx, hy]
        exact rel_getElem? hxy.ports i
      rw [← hxport, ← hyport, ← hn', ← hm', port?_makeLinks, port?_makeLinks]
      generalize n.port? ⟨a, i⟩ = p, m.port? ⟨b, i⟩ = q at hbefore
      cases hbefore with
      | none => exact .none
      | some hpq =>
        exact .some ⟨hpq.slot, rel_or hlinks hpq.link, rel_or hsuccessors hpq.target⟩
    · have hxvars : x'.vars = x.vars := (congrArg GraphNode.vars hxx :)
      have hyvars : y'.vars = y.vars := (congrArg GraphNode.vars hyy :)
      rw [hxvars, hyvars]
      exact hxy.vars
  · rw [← n'.handleOf_unlinked, hn, n.handleOf_unlinked, ← m'.handleOf_unlinked, hm,
      m.handleOf_unlinked]
    exact h.handle guid

/-- The order of the nodes does not matter for the links. -/
theorem link (h : n.Reordered ren m) (conversions : Conversions)
    (hsingle : n.unlinked.Single conversions) :
    (n.link conversions).1.Reordered ren (m.link conversions).1 :=
  h.unlinked.makeLinks conversions hsingle

/-- A node depends on the nodes with a valid data connection into it. -/
theorem mem_dependencies_link_iff (n : Network) (conversions : Conversions) (h k : NodeHandle)
    (x : GraphNode) (hx : (n.link conversions).1.node? h = some x) : k ∈ x.dependencies ↔
      ∃ target l, .ok (.data target l) ∈ n.unlinked.checkAll conversions ∧ target.node = h ∧
        l.source.node = k ∧ k ≠ h := by
  obtain ⟨y, hy, hxy⟩ := node?_of_unlinked_eq (n.link_unlinked conversions).symm h x hx
  have hy' : n.unlinked.node? h = some y.unlinked := by
    rw [node?_unlinked, hy, Option.map_some]
  obtain ⟨x', hx', hgathered⟩ := n.unlinked.makeLinks_gathers
    (validLinks (n.unlinked.checkAll conversions)) h y.unlinked hy'
  obtain rfl : x' = x := Option.some.inj (hx'.symm.trans hx)
  have hnone : y.unlinked.dependencies = [] := rfl
  rw [hgathered, hnone, mem_foldl_gather]
  simp only [List.not_mem_nil, false_or, mem_validLinks]

/-- So each node needs the same nodes. -/
theorem needs (h : n.Reordered ren m) (conversions : Conversions)
    (hsingle : n.unlinked.Single conversions) {a b c d : NodeHandle} (hab : ren.node a b)
    (hcd : ren.node c d) : (n.link conversions).1.NeedsNode a c ↔
      (m.link conversions).1.NeedsNode b d := by
  obtain ⟨x, y, hx, hy, _⟩ := (h.link conversions hsingle).node a b hab
  obtain ⟨u, v, hu, hv, huv, _⟩ := (h.link conversions hsingle).node c d hcd
  have hsame : c = a ↔ d = b := Relator.rel_eq ren.node_unique hcd hab
  have hdependencies : c ∈ x.dependencies ↔ d ∈ y.dependencies := by
    rw [mem_dependencies_link_iff n conversions a c x hx,
      mem_dependencies_link_iff m conversions b d y hy]
    constructor
    · rintro ⟨target, l, hl, rfl, rfl, hne⟩
      obtain ⟨_, hnew, hin⟩ := (h.unlinked.exists_matching conversions).1 _ hl
      cases hnew with
      | data _ target' _ l' hnode _ hlink =>
        exact ⟨target', l', hin, ren.node_unique.right hnode hab,
          ren.node_unique.right hlink.node hcd, mt hsame.mpr hne⟩
    · rintro ⟨target', l', hl, rfl, rfl, hne⟩
      obtain ⟨_, hnew, hin⟩ := (h.unlinked.exists_matching conversions).2 _ hl
      cases hnew with
      | data target _ l _ hnode _ hlink =>
        exact ⟨target, l, hin, ren.node_unique.left hnode hab,
          ren.node_unique.left hlink.node hcd, mt hsame.mp hne⟩
  constructor
  · rintro ⟨x', u', hx', hmem, hu', hpath⟩
    rw [hx] at hx'
    rw [hu] at hu'
    cases hx'
    cases hu'
    exact ⟨y, v, hy, hdependencies.mp hmem, hv, huv.descriptor ▸ hpath⟩
  · rintro ⟨y', v', hy', hmem, hv', hpath⟩
    rw [hy] at hy'
    rw [hv] at hv'
    cases hy'
    cases hv'
    exact ⟨x, u, hx, hdependencies.mpr hmem, hu, huv.descriptor ▸ hpath⟩

end Network.Reordered

/-! ## Section 5: Whether there are paths -/

namespace Network

/-- There are paths if no node needs itself, directly or through others. -/
theorem paths_ok_iff {n : Network} (hn : n.Sound) :
    (∃ ps, n.dependencies.paths = .ok ps) ↔ ∀ h, ¬ TransGen n.NeedsNode h h := by
  constructor
  · rintro ⟨ps, hps⟩ h
    have hsound : Sound { n with paths := some ps } := hn.congr hn.arena rfl fun _ => Iff.rfl
    exact acyclic_of_coherent { n with paths := some ps } hsound ⟨ps, rfl, hps⟩ h
  · intro hacyclic
    cases hp : n.dependencies.paths with
    | ok ps => exact ⟨ps, rfl⟩
    | error e =>
      -- an error names a loop of nodes that run on demand
      obtain ⟨nodes, hloop, _, hf, _⟩ :=
        n.dependencies.paths_error_loop (n.dependencies_inRange hn) e hp
      obtain ⟨v, rest, rfl, hchain⟩ := hloop
      have hcycle := n.dependencies.transGen_of_isChain v v rest hchain
        fun x hx => hf x (List.mem_cons_of_mem v hx)
      obtain ⟨w, hneed, _⟩ := TransGen.head'_iff.mp hcycle
      have hv : v < n.order.length := by
        rw [← n.dependencies_size hn]
        by_contra hge
        have hnil := n.dependencies.needs_eq_nil v (Nat.le_of_not_lt hge)
        simp [Dependencies.Needs, hnil] at hneed
      obtain ⟨k, hk, hloop⟩ := n.transGen_needsNode hn n.order[v] v v
        (List.getElem?_eq_getElem hv) hcycle
      obtain rfl : n.order[v] = k := Option.some.inj ((List.getElem?_eq_getElem hv).symm.trans hk)
      exact absurd hloop (hacyclic _)

/-- Whether there are paths does not depend on the order of the nodes. -/
theorem Reordered.paths_ok_iff (h : n.Reordered ren m) (hneeds : ∀ a b c d, ren.node a b →
    ren.node c d → (n.NeedsNode a c ↔ m.NeedsNode b d)) :
    (∃ ps, n.dependencies.paths = .ok ps) ↔ ∃ ps, m.dependencies.paths = .ok ps := by
  rw [Network.paths_ok_iff h.sound.1, Network.paths_ok_iff h.sound.2]
  constructor
  · intro hacyclic b hloop
    obtain ⟨_, ⟨y, _, hy, _⟩, _⟩ := TransGen.head'_iff.mp hloop
    obtain ⟨a, hab⟩ := h.total.2 b y hy
    refine hacyclic a (transGen_of_related (N := fun b a => ren.node a b)
      (fun _ d ⟨_, v, _, _, hv, _⟩ => h.total.2 d v hv) ?_ hab hab hloop)
    exact fun b a d c hab hcd hbd => (hneeds a b c d hab hcd).mpr hbd
  · intro hacyclic a hloop
    obtain ⟨_, ⟨x, _, hx, _⟩, _⟩ := TransGen.head'_iff.mp hloop
    obtain ⟨b, hab⟩ := h.total.1 a x hx
    refine hacyclic b (transGen_of_related (fun _ c ⟨_, u, _, _, hu, _⟩ => h.total.1 c u hu) ?_ hab
      hab hloop)
    exact fun a b c d hab hcd hac => (hneeds a b c d hab hcd).mp hac

end Network
end FlowGraph
