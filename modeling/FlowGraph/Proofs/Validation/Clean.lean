import FlowGraph.Proofs.Graph.Loading
import FlowGraph.Validation

/-! # What an empty report means

    A network without a reported problem has distinct guids, each of its types is known,
    every recorded connection joins an output to an input that go together (`Joins`), and
    no cycle of dependency nodes was found: it is `Clean`.

    The report looks at descriptors, not at fields.  So a node of a clean network is resolved
    to a live one with the descriptor that the report saw, unless the factory of its type
    rejects its fields (`resolve_of_declare`). -/

namespace FlowGraph

/-! ## Section 1: Resolving declared nodes -/

theorem instantiatePort_nil (p q : PortDescriptor)
    (h : NodeDescriptor.instantiatePort [] p = some q) : q = p := by
  obtain ⟨name, label, type, direction, capacity, kind, array⟩ := p
  cases type with
  | generic index => cases h
  | _ =>
    cases h
    rfl

theorem instantiateVariable_nil (v w : VariableDescriptor)
    (h : NodeDescriptor.instantiateVariable [] v = some w) : w = v := by
  obtain ⟨field, type⟩ := v
  cases type with
  | generic index => cases h
  | _ =>
    cases h
    rfl

theorem mapM_eq_self {α : Type} (f : α → Option α) (hf : ∀ a b, f a = some b → b = a)
    (xs ys : List α) (h : xs.mapM f = some ys) : ys = xs := by
  induction xs generalizing ys with
  | nil =>
    cases h
    rfl
  | cons x rest ih =>
    rw [List.mapM_cons] at h
    obtain ⟨y, hy, h⟩ := Option.bind_eq_some_iff.mp h
    obtain ⟨zs, hzs, h⟩ := Option.bind_eq_some_iff.mp h
    cases h
    rw [hf x y hy, ih zs hzs]

/-- Without arguments there is nothing to fill in. -/
theorem instantiate_nil (d filled : NodeDescriptor) (h : d.instantiate [] = some filled) :
    filled = d := by
  unfold NodeDescriptor.instantiate at h
  split at h
  · cases h
  · obtain ⟨ports, hports, h⟩ := Option.bind_eq_some_iff.mp h
    obtain ⟨vars, hvars, h⟩ := Option.bind_eq_some_iff.mp h
    cases h
    rw [mapM_eq_self _ instantiatePort_nil _ ports hports,
      mapM_eq_self _ instantiateVariable_nil _ vars hvars]

theorem parseArguments_of_argument? (n : NodeData) (arguments : List PortType)
    (h : n.genericArguments.mapM Validation.argument? = some arguments) :
    Registry.parseArguments n = .ok arguments := by
  unfold Registry.parseArguments
  generalize n.genericArguments = texts at h ⊢
  induction texts generalizing arguments with
  | nil =>
    cases h
    rfl
  | cons text rest ih =>
    rw [List.mapM_cons] at h ⊢
    obtain ⟨type, htype, h⟩ := Option.bind_eq_some_iff.mp h
    obtain ⟨others, hothers, h⟩ := Option.bind_eq_some_iff.mp h
    cases h
    unfold Validation.argument? at htype
    cases hparse : PortType.parse text with
    | error e =>
      rw [hparse] at htype
      cases htype
    | ok parsed =>
      rw [hparse] at htype
      cases htype
      rw [ih others hothers]
      rfl

namespace Registry

/-- The factory of the node's type does not accept the fields of the node. -/
def Rejects (registry : Registry) (n : NodeData) : Prop :=
  ∃ id t arguments e, registry.resolveIdentity (TypeIdentity.parse n.type) = some id ∧
    registry.find? id = some t ∧ parseArguments n = .ok arguments ∧
    t.factory n.fields arguments = .error e

/-- A declared node has a type and arguments for it. -/
theorem exists_type_of_declare (registry : Registry) (n : NodeData) (d : NodeDescriptor)
    (h : Validation.declare registry n = .ok d) :
    ∃ id t arguments, registry.resolveIdentity (TypeIdentity.parse n.type) = some id ∧
      registry.find? id = some t ∧ parseArguments n = .ok arguments ∧
      instantiate n t arguments = .ok d := by
  unfold Validation.declare at h
  split at h
  · cases h
  · rename_i t htype
    obtain ⟨id, hid, ht⟩ := Option.bind_eq_some_iff.mp htype
    split at h
    · rename_i filled hfilled
      cases h
      obtain ⟨arguments, harguments, hinstantiate⟩ := Option.bind_eq_some_iff.mp hfilled
      refine ⟨id, t, arguments, hid, ht, parseArguments_of_argument? n arguments harguments, ?_⟩
      unfold instantiate
      split
      · -- the report instantiates a type without parameters, too
        rename_i hplain
        rw [Bool.and_eq_true, List.isEmpty_iff] at hplain
        rw [hplain.2] at hinstantiate
        rw [instantiate_nil t.descriptor d hinstantiate]
      · rw [hinstantiate]
    · cases h

/-- A declared node becomes a live one of its descriptor, unless its fields are rejected. -/
theorem resolve_of_declare (registry : Registry) (n : NodeData) (d : NodeDescriptor)
    (h : Validation.declare registry n = .ok d) :
    (registry.Rejects n ∧ registry.resolve n = .placeholder n) ∨
      (¬ registry.Rejects n ∧ (registry.resolve n).descriptor = d ∧
        (registry.resolve n).invalid = none) := by
  obtain ⟨id, t, arguments, hid, ht, harguments, hd⟩ := registry.exists_type_of_declare n d h
  cases hfactory : t.factory n.fields arguments with
  | error e =>
    refine .inl ⟨⟨id, t, arguments, e, hid, ht, harguments, hfactory⟩, ?_⟩
    have herror : registry.tryResolve n = .error e := by
      unfold tryResolve
      simp only [hid, ht, harguments, hd, hfactory, bind, Except.bind]
    unfold resolve
    rw [herror]
  | ok behavior =>
    right
    obtain ⟨node, hnode, hdescriptor, hinvalid⟩ : ∃ node, registry.tryResolve n = .ok node ∧
        node.descriptor = d ∧ node.invalid = none := by
      unfold tryResolve
      simp only [hid, ht, harguments, hd, hfactory, bind, Except.bind]
      exact ⟨_, rfl, rfl, rfl⟩
    refine ⟨?_, ?_⟩
    · rintro ⟨id', t', arguments', e, hid', ht', harguments', hrejects⟩
      rw [hid] at hid'
      cases hid'
      rw [ht] at ht'
      cases ht'
      rw [harguments] at harguments'
      cases harguments'
      rw [hfactory] at hrejects
      cases hrejects
    · unfold resolve
      rw [hnode]
      exact ⟨hdescriptor, hinvalid⟩

end Registry

/-! ## Section 2: Distinct guids and known types -/

namespace Validation

theorem repeatedGuids_eq_nil_iff (nodes : List NodeData) (seen : List String) :
    repeatedGuids seen nodes = [] ↔
      (nodes.map (·.guid)).Nodup ∧ ∀ n ∈ nodes, n.guid ∉ seen := by
  induction nodes generalizing seen with
  | nil => simp [repeatedGuids]
  | cons n rest ih =>
    unfold repeatedGuids
    rw [List.append_eq_nil_iff, ih]
    by_cases hseen : n.guid ∈ seen
    · simp [hseen]
    · simp only [List.contains_eq_mem, hseen, decide_false, List.map_cons, List.nodup_cons,
        List.mem_cons, List.mem_map]
      constructor
      · rintro ⟨_, hnodup, hrest⟩
        refine ⟨⟨?_, hnodup⟩, ?_⟩
        · rintro ⟨m, hm, hguid⟩
          exact hrest m hm (.inl hguid)
        · rintro m (rfl | hm)
          · exact hseen
          · exact fun hin => hrest m hm (.inr hin)
      · rintro ⟨⟨hfresh, hnodup⟩, hall⟩
        refine ⟨rfl, hnodup, fun m hm hin => ?_⟩
        rcases hin with hguid | hin
        · exact hfresh ⟨m, hm, hguid⟩
        · exact hall m (.inr hm) hin

variable {registry : Registry} {conversions : Conversions}

theorem declare_of_undeclared (nodes : List NodeData) (h : undeclared registry nodes = [])
    (n : NodeData) (hn : n ∈ nodes) : ∃ d, declare registry n = .ok d := by
  have hnone := List.filterMap_eq_nil_iff.mp h n hn
  cases hd : declare registry n with
  | ok d => exact ⟨d, rfl⟩
  | error e =>
    simp only [hd] at hnone
    cases hnone

/-- A known type is found under the guid of its node. -/
theorem find?_declared (nodes : List NodeData) (hnodup : (nodes.map (·.guid)).Nodup)
    (n : NodeData) (hn : n ∈ nodes) (d : NodeDescriptor) (hd : declare registry n = .ok d) :
    (declared registry nodes).find? n.guid = some d := by
  induction nodes with
  | nil => cases hn
  | cons m rest ih =>
    rw [List.map_cons, List.nodup_cons] at hnodup
    unfold declared
    rcases List.mem_cons.mp hn with rfl | hmem
    · rw [List.filterMap_cons, hd]
      unfold Declared.find?
      simp [Except.toOption]
    · have hne : m.guid ≠ n.guid := fun heq => hnodup.1 (heq ▸ List.mem_map_of_mem hmem)
      have hrest := ih hnodup.2 hmem
      unfold declared Declared.find? at hrest
      cases hm : declare registry m with
      | error e =>
        simp only [List.filterMap_cons, hm]
        exact hrest
      | ok d' =>
        simp only [List.filterMap_cons, hm]
        unfold Declared.find?
        simp only [Except.toOption, Option.map_some, List.find?_cons, hne, decide_false]
        exact hrest

/-! ## Section 3: Connections -/

/-- A slot is one of the first declared port of its name. -/
theorem slot?_eq_some (d : NodeDescriptor) (name : String) (index : Nat) (p : PortDescriptor)
    (h : slot? d name index = some p) :
    d.port? name = some p ∧ p.name = name ∧ (p.array = true ∨ index = 0) := by
  obtain ⟨hport, hfilter⟩ := Option.filter_eq_some_iff.mp h
  rw [Bool.or_eq_true, decide_eq_true_eq] at hfilter
  exact ⟨hport, by simpa using List.find?_some hport, hfilter⟩

/-- The output slot that a record of a node belongs to. -/
def HasOutput (registry : Registry) (n : NodeData) (r : PortData) (output : PortDescriptor) :
    Prop :=
  ∃ d, declare registry n = .ok d ∧ slot? d r.name r.index = some output ∧
    output.direction = .output

/-- The slot that a connection names, and its node. -/
def HasTarget (registry : Registry) (nodes : List NodeData) (c : PortConnection)
    (target : NodeData) (port : PortDescriptor) : Prop :=
  target ∈ nodes ∧ target.guid = c.nodeGuid ∧
    ∃ d, declare registry target = .ok d ∧ slot? d c.portName c.portIndex = some port

/-- What the check of a connection of an output tells the search for cycles. -/
def linkOf (n : NodeData) (c : PortConnection) (output : PortDescriptor) : Option DataLink :=
  if output.isControl then none else some ⟨n.guid, c.nodeGuid⟩

/-- The checks of a network. -/
def checks (registry : Registry) (conversions : Conversions) (g : GraphData) :
    List (Except ValidationError (Option DataLink)) :=
  checkAll g (declared registry g.nodes) conversions

/-- A connection without an error leads to a slot that goes together with the output. -/
theorem target_of_checked (g : GraphData) (hnodup : (g.nodes.map (·.guid)).Nodup)
    (hknown : ∀ n ∈ g.nodes, ∃ d, declare registry n = .ok d) (n : NodeData)
    (output : PortDescriptor) (c : PortConnection)
    (hok : ∀ e, checkConnection g (declared registry g.nodes) conversions n.guid (some output) c
      ≠ .error e) :
    ∃ target port, HasTarget registry g.nodes c target port ∧
      fault? conversions output port = none ∧
      checkConnection g (declared registry g.nodes) conversions n.guid (some output) c
        = .ok (linkOf n c output) := by
  unfold checkConnection at hok ⊢
  by_cases hany : g.nodes.any (·.guid = c.nodeGuid)
  · obtain ⟨target, htarget, hguid⟩ := List.any_eq_true.mp hany
    rw [decide_eq_true_eq] at hguid
    obtain ⟨d, hd⟩ := hknown target htarget
    have hfind := find?_declared g.nodes hnodup target htarget d hd
    rw [hguid] at hfind
    simp only [hany, Bool.not_true, Bool.false_eq_true, if_false, hfind] at hok ⊢
    cases hport : slot? d c.portName c.portIndex with
    | none =>
      simp only [hport] at hok
      exact absurd rfl (hok _)
    | some port =>
      simp only [hport] at hok ⊢
      cases hfault : fault? conversions output port with
      | some fault =>
        simp only [hfault] at hok
        exact absurd rfl (hok _)
      | none =>
        exact ⟨target, port, ⟨htarget, hguid, d, hd, hport⟩, hfault, rfl⟩
  · simp only [hany, Bool.not_false, if_true] at hok
    exact absurd rfl (hok _)

/-- A recorded connection without an error joins an output to a slot that goes together
    with it. -/
theorem joins_of_checked (g : GraphData) (hnodup : (g.nodes.map (·.guid)).Nodup)
    (hknown : ∀ n ∈ g.nodes, ∃ d, declare registry n = .ok d)
    (hgood : badConnections (checks registry conversions g) = [])
    (n : NodeData) (hn : n ∈ g.nodes) (r : PortData) (hr : r ∈ n.ports) (c : PortConnection)
    (hc : c ∈ r.connections) :
    ∃ output target port, HasOutput registry n r output ∧
      HasTarget registry g.nodes c target port ∧ fault? conversions output port = none ∧
      .ok (linkOf n c output) ∈ checks registry conversions g := by
  obtain ⟨source, hsource⟩ := hknown n hn
  have hfind := find?_declared g.nodes hnodup n hn source hsource
  -- the checks of the record are among all checks, and none of these is an error
  have hall : ∀ result ∈ checkRecord g (declared registry g.nodes) conversions n.guid r,
      result ∈ checks registry conversions g :=
    fun result hresult => List.mem_flatMap.mpr ⟨n, hn, List.mem_flatMap.mpr ⟨r, hr, hresult⟩⟩
  have hok : ∀ e, .error e ∉ checkRecord g (declared registry g.nodes) conversions n.guid r := by
    intro e he
    cases List.filterMap_eq_nil_iff.mp hgood _ (hall _ he)
  have hsome : r.connections.isEmpty = false :=
    List.isEmpty_eq_false_iff.mpr (List.ne_nil_of_mem hc)
  unfold checkRecord at hall hok
  simp only [hsome, Bool.false_eq_true, if_false, hfind] at hall hok
  cases houtput : slot? source r.name r.index with
  | none =>
    simp only [houtput] at hok
    exact absurd (List.mem_singleton_self _) (hok _)
  | some output =>
    simp only [houtput] at hall hok
    by_cases hdirection : output.direction = .output
    · rw [if_neg (not_not_intro hdirection)] at hall hok
      have hmem := List.mem_map_of_mem (f := checkConnection g (declared registry g.nodes)
        conversions n.guid (some output)) hc
      obtain ⟨target, port, htarget, hfault, hchecked⟩ :=
        target_of_checked g hnodup hknown n output c fun e he => hok e (he ▸ hmem)
      rw [hchecked] at hmem
      exact ⟨output, target, port, ⟨source, hsource, houtput, hdirection⟩, htarget, hfault,
        hall _ hmem⟩
    · rw [if_pos hdirection] at hok
      exact absurd (List.mem_singleton_self _) (hok _)

/-! ## Section 4: Networks without a problem -/

/-- Which nodes of a saved network need which, as the report sees it. -/
def needed (registry : Registry) (conversions : Conversions) (g : GraphData) : Dependencies :=
  dependencies g.nodes (declared registry g.nodes) (dataLinks (checks registry conversions g))

/-- There is nothing to report about a network. -/
structure Clean (registry : Registry) (conversions : Conversions) (g : GraphData) : Prop where
  nodup : (g.nodes.map (·.guid)).Nodup
  known : ∀ n ∈ g.nodes, ∃ d, declare registry n = .ok d
  joins : ∀ n ∈ g.nodes, ∀ r ∈ n.ports, ∀ c ∈ r.connections, ∃ output target port,
    HasOutput registry n r output ∧ HasTarget registry g.nodes c target port ∧
      fault? conversions output port = none ∧
      (output.isControl = false →
        ⟨n.guid, c.nodeGuid⟩ ∈ dataLinks (checks registry conversions g))
  acyclic : ∀ chain, (needed registry conversions g).paths ≠ .error (.circularDependency chain)

/-- An empty report says that the network is clean. -/
theorem clean_of_ofNetwork (g : GraphData) (h : ofNetwork registry conversions g = []) :
    Clean registry conversions g := by
  unfold ofNetwork at h
  simp only [List.append_eq_nil_iff] at h
  obtain ⟨⟨⟨hguids, htypes⟩, hgood⟩, hcycles⟩ := h
  have hnodup := ((repeatedGuids_eq_nil_iff g.nodes []).mp hguids).1
  have hknown := declare_of_undeclared g.nodes htypes
  refine ⟨hnodup, hknown, fun n hn r hr c hc => ?_, fun chain hchain => ?_⟩
  · obtain ⟨output, target, port, houtput, htarget, hfault, hchecked⟩ :=
      joins_of_checked g hnodup hknown hgood n hn r hr c hc
    refine ⟨output, target, port, houtput, htarget, hfault, fun hdata => ?_⟩
    unfold linkOf at hchecked
    rw [hdata] at hchecked
    exact List.mem_filterMap.mpr ⟨_, hchecked, rfl⟩
  · unfold needed checks at hchain
    unfold cycles at hcycles
    rw [hchain] at hcycles
    cases hcycles

/-! ## Section 5: The dependencies of a saved network -/

theorem positionOf_eq (nodes : List NodeData) (hnodup : (nodes.map (·.guid)).Nodup) (i : Nat)
    (n : NodeData) (hn : nodes[i]? = some n) : positionOf nodes n.guid = some i := by
  unfold positionOf
  cases hfind : nodes.zipIdx.reverse.find? fun e => e.1.guid = n.guid with
  | none =>
    have hmem : (n, i) ∈ nodes.zipIdx.reverse :=
      List.mem_reverse.mpr (List.mem_zipIdx_iff_getElem?.mpr hn)
    have hnot := List.find?_eq_none.mp hfind _ hmem
    simp at hnot
  | some e =>
    obtain ⟨m, j⟩ := e
    have hmem := List.mem_zipIdx_iff_getElem?.mp
      (List.mem_reverse.mp (List.mem_of_find?_eq_some hfind))
    have hguid : m.guid = n.guid := by simpa using List.find?_some hfind
    rw [(NodeData.eq_of_guid nodes hnodup j i m n hmem hn hguid).1]
    rfl

theorem mem_sourcesOf (ends : List (Nat × Nat)) (target s : Nat) :
    s ∈ sourcesOf ends target ↔ (s, target) ∈ ends ∧ s ≠ target := by
  have hfold : ∀ (rest : List (Nat × Nat)) (found : List Nat),
      s ∈ rest.foldl (fun found e =>
        if e.2 = target && e.1 ≠ target && !found.contains e.1 then found ++ [e.1] else found)
        found ↔ s ∈ found ∨ ((s, target) ∈ rest ∧ s ≠ target) := by
    intro rest
    induction rest with
    | nil => simp
    | cons e rest ih =>
      intro found
      rw [List.foldl_cons, ih]
      -- whether the source is new, and not the target
      by_cases hnew : e.2 = target ∧ e.1 ≠ target ∧ e.1 ∉ found
      · grind
      · grind
  exact (hfold ends []).trans (by simp)

theorem endsOf_eq_some (nodes : List NodeData) (link : DataLink) (e : Nat × Nat)
    (h : endsOf nodes link = some e) : e.1 < nodes.length ∧ e.2 < nodes.length := by
  have hlt : ∀ guid i, positionOf nodes guid = some i → i < nodes.length := by
    intro guid i hi
    obtain ⟨⟨m, j⟩, hfind, rfl⟩ := Option.map_eq_some_iff.mp hi
    have hmem := List.mem_reverse.mp (List.mem_of_find?_eq_some hfind)
    exact (List.getElem?_eq_some_iff.mp (List.mem_zipIdx_iff_getElem?.mp hmem)).1
  unfold endsOf at h
  split at h
  · rename_i s t hs ht
    cases h
    exact ⟨hlt _ s hs, hlt _ t ht⟩
  · cases h

variable (registry conversions)

theorem needed_needs (g : GraphData) (t : Nat) (ht : t < g.nodes.length) :
    (needed registry conversions g).needs t = sourcesOf
      ((dataLinks (checks registry conversions g)).filterMap (endsOf g.nodes)) t := by
  simp [needed, dependencies, Dependencies.needs, ht]

theorem needed_inRange (g : GraphData) : (needed registry conversions g).InRange := by
  apply Dependencies.inRange_of_edges
  intro ds hds s hs
  simp only [needed, dependencies, List.mem_map] at hds
  obtain ⟨t, _, rfl⟩ := hds
  obtain ⟨link, _, hends⟩ := List.mem_filterMap.mp ((mem_sourcesOf _ t s).mp hs).1
  have hsize : (needed registry conversions g).size = g.nodes.length := by
    simp [needed, dependencies, Dependencies.size]
  rw [hsize]
  exact (endsOf_eq_some g.nodes link _ hends).1

/-- A data link between two nodes makes one need the other. -/
theorem needed_of_link (g : GraphData) (hnodup : (g.nodes.map (·.guid)).Nodup) (s t : Nat)
    (n m : NodeData) (hn : g.nodes[s]? = some n) (hm : g.nodes[t]? = some m) (hne : s ≠ t)
    (hlink : ⟨n.guid, m.guid⟩ ∈ dataLinks (checks registry conversions g)) :
    s ∈ (needed registry conversions g).needs t := by
  rw [needed_needs registry conversions g t (List.getElem?_eq_some_iff.mp hm).1, mem_sourcesOf]
  refine ⟨List.mem_filterMap.mpr ⟨_, hlink, ?_⟩, hne⟩
  unfold endsOf
  simp only [positionOf_eq g.nodes hnodup s n hn, positionOf_eq g.nodes hnodup t m hm]

theorem needed_isForward (g : GraphData) (hnodup : (g.nodes.map (·.guid)).Nodup) (i : Nat)
    (n : NodeData) (d : NodeDescriptor) (hn : g.nodes[i]? = some n)
    (hd : declare registry n = .ok d) :
    (needed registry conversions g).isForward i = decide (d.path = .forward) := by
  have hfind := find?_declared g.nodes hnodup n (List.mem_of_getElem? hn) d hd
  simp [needed, dependencies, Dependencies.isForward, hn, isForward, hfind]

end Validation
end FlowGraph
