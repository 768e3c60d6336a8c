import FlowGraph.Proofs.Graph.Building
import FlowGraph.Proofs.Node.Normal

/-! # Saving what was hydrated

    A hydrated node keeps what it was resolved from, and each of its variables is in the
    table (`GraphNode.Restores`), so that it is saved in normal form with its records
    (`Restores.toData`).  The records are the saved ones and, at array ports, those of slots
    that were opened for connections. -/

namespace FlowGraph

/-! ## Section 1: Live nodes and what they are saved as -/

/-- A live node keeps what a saved one was resolved to, with its variables in the table. -/
structure GraphNode.Restores (registry : Registry) (vs : Variables) (d : NodeData)
    (x : GraphNode) : Prop where
  guid : x.guid = d.guid
  position : x.position = d.position
  type : x.type = (registry.resolve d).savedType d
  genericArguments : x.genericArguments = (registry.resolve d).genericArguments
  descriptor : x.descriptor = (registry.resolve d).descriptor
  behavior : x.behavior = (registry.resolve d).behavior
  invalid : x.invalid = (registry.resolve d).invalid
  vars : List.Forall₂ (fun v e => e.1 = v.1 ∧ vs.find? e.2 = some (Variable.ofData v.2))
    ((registry.resolve d).declaredVars d) x.vars

namespace GraphNode.Restores

variable {registry : Registry} {vs ws : Variables} {d : NodeData} {x : GraphNode}

theorem mono (hx : x.Restores registry vs d) (h : vs.Extends ws) : x.Restores registry ws d :=
  ⟨hx.guid, hx.position, hx.type, hx.genericArguments, hx.descriptor, hx.behavior, hx.invalid,
    hx.vars.imp fun _ _ hv => ⟨hv.1, h _ _ hv.2⟩⟩

/-- Other slots and records. -/
theorem laidOut (hx : x.Restores registry vs d) (records : List PortData) :
    ({ x with records } : GraphNode).laidOut.Restores registry vs d :=
  ⟨hx.guid, hx.position, hx.type, hx.genericArguments, hx.descriptor, hx.behavior, hx.invalid,
    hx.vars⟩

theorem savedFields (hx : x.Restores registry vs d) :
    x.savedFields vs = (registry.resolve d).savedFields d := by
  have hvars : ∀ fields, x.vars.foldl
      (fun fields v => Json.insertField v.1 (vs.toData v.2).toJson.sorted fields) fields
        = (((registry.resolve d).declaredVars d).map fun v => (v.1, v.2.field)).foldl
          (fun fields v => Json.insertField v.1 v.2 fields) fields := by
    have hall := hx.vars
    generalize (registry.resolve d).declaredVars d = declared, x.vars = own at hall
    induction hall with
    | nil => exact fun _ => rfl
    | cons hv _ ih =>
      intro fields
      rw [List.map_cons, List.foldl_cons, List.foldl_cons, ih, hv.1, vs.toData_ofData _ _ hv.2]
      rfl
  unfold GraphNode.savedFields ResolvedNode.savedFields Behavior.fieldsWith
  rw [hvars, hx.behavior]

/-- It is saved in normal form, with its records. -/
theorem toData (hx : x.Restores registry vs d) :
    x.toData vs = { d.normal registry with ports := x.records } := by
  unfold GraphNode.toData
  cases hlive : (registry.resolve d).isPlaceholder with
  | true =>
    have hresolve := registry.resolve_of_placeholder d hlive
    have hinvalid : x.invalid = some (InvalidNode.ofData d) := by
      rw [hx.invalid, hresolve]
      rfl
    rw [hinvalid, NodeData.normal_of_placeholder d hlive, hx.guid, hx.position]
    rfl
  | false =>
    have hinvalid : x.invalid = none := by
      rw [hx.invalid]
      exact Option.isNone_iff_eq_none.mp (by simpa [ResolvedNode.isPlaceholder] using hlive)
    rw [hinvalid, NodeData.normal_of_live d hlive, hx.savedFields, hx.guid, hx.position, hx.type,
      hx.genericArguments]
    rfl

end GraphNode.Restores

/-! ## Section 2: Hydrating -/

namespace Graph

theorem makeVariables_declares (guid : String) (fields : Json) (ds : List VariableDescriptor)
    (s : Store) :
    s.vars.Extends (makeVariables guid fields ds s).2.vars ∧
      List.Forall₂ (fun v e => e.1 = v.1 ∧
          (makeVariables guid fields ds s).2.vars.find? e.2 = some (Variable.ofData v.2))
        (ds.map fun v => (v.field, (declaredVariable guid fields v).1))
        (makeVariables guid fields ds s).1 := by
  induction ds generalizing s with
  | nil => exact ⟨.refl _, .nil⟩
  | cons v rest ih =>
    obtain ⟨data, hdata⟩ : ∃ data, (declaredVariable guid fields v).1 = data := ⟨_, rfl⟩
    obtain ⟨t, ht, hstep⟩ : ∃ t : Store, t.vars = (s.vars.add (Variable.ofData data)).2 ∧
        makeVariables guid fields (v :: rest) s
          = ((v.field, (s.vars.add (Variable.ofData data)).1) :: (makeVariables guid fields rest t).1,
            (makeVariables guid fields rest t).2) := by
      rw [← hdata]
      exact ⟨_, rfl, rfl⟩
    obtain ⟨hextends, hrest⟩ := ih t
    rw [ht] at hextends
    rw [hstep, List.map_cons, hdata]
    refine ⟨(s.vars.extends_add _).trans hextends, .cons ⟨rfl, ?_⟩ hrest⟩
    exact hextends _ _ (s.vars.find?_add _)

/-- What is inserted for a saved node restores it. -/
theorem addNode_restores (g : Graph) (registry : Registry) (data : NodeData) (s : Store) :
    ∃ x t, g.addNode registry data s = g.insert x t ∧ s.vars.Extends t.vars ∧
      x.Restores registry t.vars data ∧ x.records = data.ports ∧ x.LaidOut ∧
      t.guidsMade = s.guidsMade := by
  obtain ⟨u, hu⟩ : ∃ u, u = (s.reportAll (registry.resolveNotices data)).reportAll
      (Layout.notices data.guid data.ports (registry.resolve data).descriptor.ports) := ⟨_, rfl⟩
  obtain ⟨hextends, hvars⟩ := makeVariables_declares data.guid data.fields
    (registry.resolve data).descriptor.vars u
  have huvars : u.vars = s.vars := by
    rw [hu]
    rfl
  rw [huvars, hu] at hextends
  rw [hu] at hvars
  exact ⟨_, _, rfl, hextends, ⟨rfl, rfl, rfl, rfl, rfl, rfl, rfl, hvars⟩, rfl, rfl,
    makeNode_guidsMade _ _ _⟩

theorem insert_vars (g : Graph) (x : GraphNode) (s : Store) :
    (g.insert x s).2.vars = s.vars := by
  have hensured : (g.ensureGuid x s).2.vars = s.vars := by
    unfold ensureGuid
    split
    · rfl
    · rfl
  obtain ⟨y, t, heq⟩ : ∃ y t, g.ensureGuid x s = (y, t) := ⟨_, _, rfl⟩
  rw [heq] at hensured
  unfold insert
  simp only [bind, StateT.bind, heq]
  cases y.invalid with
  | none => exact hensured
  | some invalid => exact hensured

/-- A node with a guid of its own is placed as it is. -/
theorem insert_named (g : Graph) (x : GraphNode) (s : Store) (hg : g.toNetwork.Sound)
    (hnamed : x.guid ≠ "") (hnew : g.handleOf x.guid = none) :
    ∃ h, (g.insert x s).1.2.placed = g.placed ++ [(h, x)] := by
  obtain ⟨hnodes, horder, _⟩ := g.insert_ensured x s
  rcases g.ensureGuid_cases x s with ⟨_, _, hensured⟩ | ⟨htaken, _, _⟩
  · exact ⟨_, Network.placed_insert hg x (by rw [hnodes, hensured]) (by rw [horder, hensured])⟩
  · rcases htaken with hnone | ⟨k, hk⟩
    · exact absurd hnone hnamed
    · rw [hnew] at hk
      cases hk

/-- What holds of a node that was just made, whatever its guid is, holds of all nodes. -/
theorem addNodes_all (P : GraphNode → Prop) (g : Graph) (registry : Registry)
    (data : List NodeData) (s : Store) (hg : g.toNetwork.Consistent)
    (hold : ∀ h x, g.node? h = some x → P x)
    (hnew : ∀ d ∈ data, ∀ (x : GraphNode) (vs : Variables) (guid : String),
      x.Restores registry vs d → x.LaidOut → P { x with guid }) :
    ∀ h x, (g.addNodes registry data s).1.node? h = some x → P x := by
  induction data generalizing g s with
  | nil => exact hold
  | cons d rest ih =>
    refine ih (g.addNode registry d s).1.2 (g.addNode registry d s).2
      (g.addNode_consistent registry d s hg) (fun h y hy => ?_)
      fun e he => hnew e (List.mem_cons_of_mem d he)
    obtain ⟨x, t, heq, _, hx, _, hlaid, _⟩ := g.addNode_restores registry d s
    obtain ⟨_, ⟨guid, rfl⟩, u, _, hinsert⟩ := g.insert_eq x t
    rw [heq, hinsert] at hy
    have hget : (g.nodes.insert { x with guid := guid }).2.get? h = some y := hy
    rw [Arena.get?_insert _ _ _ hg.sound.arena] at hget
    split at hget
    · cases hget
      exact hnew d List.mem_cons_self x t.vars guid hx hlaid
    · exact hold h y hget

/-- So does it hold of all nodes that are placed. -/
theorem placeNodes_all (P : GraphNode → Prop) (registry : Registry) (data : GraphData) (s : Store)
    (hnew : ∀ d ∈ data.nodes, ∀ (x : GraphNode) (vs : Variables) (guid : String),
      x.Restores registry vs d → x.LaidOut → P { x with guid }) :
    ∀ h x, (placeNodes registry data s).1.node? h = some x → P x := by
  have hadded := addNodes_all P (create data.name s).1 registry data.nodes (create data.name s).2
    (create_consistent data.name s) (fun h x hx => by rw [create_node?] at hx; cases hx) hnew
  -- the blackboard is no part of the nodes
  have hbound : ∀ (k : Graph) (t : Store), (∀ h x, k.node? h = some x → P x) →
      ∀ h x, (k.addVariables data.vars t).1.node? h = some x → P x := by
    intro k t hk h x hx
    unfold Network.node? at hx
    rw [(k.addVariables_eq data.vars t).1] at hx
    exact hk h x hx
  exact hbound _ _ hadded

theorem addNodes_extends (g : Graph) (registry : Registry) (data : List NodeData) (s : Store) :
    s.vars.Extends (g.addNodes registry data s).2.vars := by
  induction data generalizing g s with
  | nil => exact .refl _
  | cons d rest ih =>
    obtain ⟨x, t, heq, hextends, _⟩ := g.addNode_restores registry d s
    have hvars := g.insert_vars x t
    rw [← heq] at hvars
    rw [← hvars] at hextends
    exact hextends.trans (ih _ _)

/-- Nodes with guids of their own are placed one behind the other. -/
theorem addNodes_restores (g : Graph) (registry : Registry) (done data : List NodeData) (s : Store)
    (hg : g.toNetwork.Consistent) (hnamed : ∀ d ∈ data, d.guid ≠ "")
    (hnodup : ((done ++ data).map (·.guid)).Nodup)
    (hdone : List.Forall₂ (fun d e => e.2.Restores registry s.vars d ∧ e.2.records = d.ports)
      done g.placed) :
    List.Forall₂ (fun d e => e.2.Restores registry (g.addNodes registry data s).2.vars d ∧
        e.2.records = d.ports)
      (done ++ data) (g.addNodes registry data s).1.placed := by
  induction data generalizing g done s with
  | nil =>
    rw [List.append_nil]
    exact hdone
  | cons d rest ih =>
    obtain ⟨x, t, heq, hextends, hx, hrecords, _⟩ := g.addNode_restores registry d s
    have hnew : g.handleOf x.guid = none := by
      rw [List.map_append, List.nodup_append] at hnodup
      refine Network.handleOf_eq_none_of_forall₂ hg.sound hdone (fun e f hef hguid => ?_) fun hmem =>
        hnodup.2.2 _ hmem _ (List.mem_map_of_mem List.mem_cons_self) hx.guid
      rw [← hef.1.guid, hguid]
    obtain ⟨h, hplaced⟩ := g.insert_named x t hg.sound (hx.guid ▸ hnamed d List.mem_cons_self) hnew
    have hvars := g.insert_vars x t
    rw [← heq] at hvars hplaced
    have hall := ih (g.addNode registry d s).1.2 (done ++ [d]) (g.addNode registry d s).2
      (g.addNode_consistent registry d s hg) (fun e he => hnamed e (List.mem_cons_of_mem d he))
      (by simpa using hnodup) (by
        rw [hplaced, hvars]
        refine List.rel_append (hdone.imp fun _ _ he => ⟨he.1.mono hextends, he.2⟩) ?_
        exact .cons ⟨hx, hrecords⟩ .nil)
    rw [List.append_assoc] at hall
    exact hall

/-- The name, the blackboard and the table of variables stay as they are. -/
structure Retains (g : Graph) (s : Store) (k : Graph) (t : Store) : Prop where
  name : k.name = g.name
  blackboard : k.blackboard = g.blackboard
  vars : t.vars = s.vars

theorem Retains.refl (g : Graph) (s : Store) : g.Retains s g s := ⟨rfl, rfl, rfl⟩

theorem Retains.trans {g k l : Graph} {s t u : Store} (h : g.Retains s k t)
    (h' : k.Retains t l u) : g.Retains s l u :=
  ⟨h'.name.trans h.name, h'.blackboard.trans h.blackboard, h'.vars.trans h.vars⟩

theorem layOut_retains (g : Graph) (h : NodeHandle) (s : Store) :
    g.Retains s (g.layOut h s).1 (g.layOut h s).2 := by
  unfold layOut
  cases g.node? h with
  | none => exact .refl g s
  | some x => exact ⟨rfl, rfl, rfl⟩

theorem addIncomingSlots_retains (g : Graph) (s : Store) :
    g.Retains s (g.addIncomingSlots s).1 (g.addIncomingSlots s).2 := by
  have hlayOutAll : ∀ (hs : List NodeHandle) (k : Graph) (t : Store),
      k.Retains t (k.layOutAll hs t).1 (k.layOutAll hs t).2 := by
    intro hs
    induction hs with
    | nil => exact fun k t => .refl k t
    | cons h rest ih => exact fun k t => (k.layOut_retains h t).trans (ih _ _)
  have hrecord : ∀ (missing : List MissingSlot) (k : Graph) (t : Store), k.Retains t
      (missing.foldl (fun g m => g.modifyRecords m.handle (recordSlot m.port m.index)) k) t := by
    intro missing
    induction missing with
    | nil => exact fun k t => .refl k t
    | cons m rest ih =>
      intro k t
      have hfirst : k.Retains t (k.modifyRecords m.handle (recordSlot m.port m.index)) t :=
        ⟨rfl, rfl, rfl⟩
      exact hfirst.trans (ih _ t)
  have hreport : g.Retains s g (s.reportAll (g.missingSlots.filterMap fun r => r.getRight?)) :=
    ⟨rfl, rfl, rfl⟩
  exact (hreport.trans (hrecord _ g _)).trans (hlayOutAll _ _ _)

theorem insert_labels (g : Graph) (x : GraphNode) (s : Store) :
    (g.insert x s).1.2.name = g.name ∧ (g.insert x s).1.2.blackboard = g.blackboard := by
  obtain ⟨_, _, _, _, heq⟩ := g.insert_eq x s
  rw [heq]
  exact ⟨rfl, rfl⟩

theorem addNodes_labels (g : Graph) (registry : Registry) (data : List NodeData) (s : Store) :
    (g.addNodes registry data s).1.name = g.name ∧
      (g.addNodes registry data s).1.blackboard = g.blackboard := by
  induction data generalizing g s with
  | nil => exact ⟨rfl, rfl⟩
  | cons d rest ih =>
    obtain ⟨hname, hboard⟩ := ih (g.addNode registry d s).1.2 (g.addNode registry d s).2
    obtain ⟨x, t, heq, _⟩ := g.addNode_eq registry d s
    have hlabels := g.insert_labels x t
    rw [← heq] at hlabels
    exact ⟨hname.trans hlabels.1, hboard.trans hlabels.2⟩

/-- The variables of the blackboard are in the table, in their order. -/
theorem addVariables_declares (g : Graph) (data : List VariableData) (s : Store) :
    s.vars.Extends (g.addVariables data s).2.vars ∧
      (g.addVariables data s).1.name = g.name ∧
      ∃ added, (g.addVariables data s).1.blackboard = g.blackboard ++ added ∧
        List.Forall₂ (fun d v => (g.addVariables data s).2.vars.find? v = some (Variable.ofData d))
          data added := by
  induction data generalizing g s with
  | nil => exact ⟨.refl _, rfl, [], (List.append_nil _).symm, .nil⟩
  | cons d rest ih =>
    obtain ⟨k, t, hname, hboard, ht, hstep⟩ : ∃ (k : Graph) (t : Store), k.name = g.name ∧
        k.blackboard = g.blackboard ++ [(s.vars.add (Variable.ofData d)).1] ∧
        t.vars = (s.vars.add (Variable.ofData d)).2 ∧
        g.addVariables (d :: rest) s = k.addVariables rest t :=
      ⟨{ g with blackboard := g.blackboard ++ [(s.vars.add (Variable.ofData d)).1] },
        { s with vars := (s.vars.add (Variable.ofData d)).2 }, rfl, rfl, rfl, rfl⟩
    obtain ⟨hextends, hname', added, hadded, hall⟩ := ih k t
    rw [ht] at hextends
    rw [hstep]
    refine ⟨(s.vars.extends_add _).trans hextends, hname'.trans hname, _ :: added, ?_,
      .cons (hextends _ _ (s.vars.find?_add _)) hall⟩
    rw [hadded, hboard, List.append_assoc]
    rfl

end Graph

/-! ## Section 3: Slots that were opened are recorded -/

/-- Every connection into an array port has its slot, if it is below the limit. -/
def NodeData.Opened (registry : Registry) (nodes : List NodeData) : Prop :=
  ∀ d ∈ nodes, ∀ r ∈ d.ports, ∀ c ∈ r.connections, ∀ e ∈ nodes, e.guid = c.nodeGuid →
    c.portIndex < maxArraySlots → ∀ p, (registry.resolve e).descriptor.port? c.portName = some p →
      p.array = true → Layout.HasSlot e.ports p c.portIndex

namespace Graph

/-- What is lacking is a slot of an array port, for a connection into it. -/
theorem exists_of_mem_lacking (g : Graph) (m : MissingSlot) (hm : m ∈ g.lacking) :
    ∃ h x r c y p, g.node? h = some x ∧ r ∈ x.records ∧ c ∈ r.connections ∧
      g.node? m.handle = some y ∧ y.guid = c.nodeGuid ∧
      y.descriptor.port? c.portName = some p ∧ p.array = true ∧
      y.port? c.portName c.portIndex = none ∧ c.portIndex < maxArraySlots ∧
      c.portName = m.port ∧ c.portIndex = m.index := by
  obtain ⟨found, hfound, hleft⟩ := List.mem_filterMap.mp hm
  obtain ⟨⟨h, x⟩, hx, hfound⟩ := List.mem_flatMap.mp hfound
  obtain ⟨c, hc, hfound⟩ := List.mem_flatMap.mp hfound
  obtain ⟨r, hr, hc⟩ := List.mem_flatMap.mp hc
  unfold missingSlot at hfound
  cases hk : g.handleOf c.nodeGuid with
  | none => simp [hk] at hfound
  | some k =>
    obtain ⟨y, hy, hguid⟩ := g.exists_of_handleOf _ k hk
    simp only [hk, hy] at hfound
    split at hfound
    · cases hfound
    · rename_i hslot
      split at hfound
      · obtain rfl := List.mem_singleton.mp hfound
        cases hleft
      · rename_i hindex
        obtain rfl := List.mem_singleton.mp hfound
        cases hleft
        simp only [Bool.or_eq_true, Bool.not_eq_true', not_or, Bool.not_eq_false,
          Option.isSome_iff_ne_none, ne_eq, not_not] at hslot
        obtain ⟨harray, hport⟩ := hslot
        obtain ⟨p, hp, hparray⟩ := (y.descriptor.isArray_eq_true_iff c.portName).mp harray
        exact ⟨h, x, r, c, y, p, (Arena.mem_toList_iff g.nodes h x).mp hx, hr, hc, hy, hguid, hp,
          hparray, hport, Nat.lt_of_not_le hindex, rfl, rfl⟩

/-- Where all slots are recorded, none is lacking. -/
theorem lacking_eq_nil (g : Graph) (registry : Registry) (nodes : List NodeData)
    (hg : g.toNetwork.Carries registry nodes) (hnamed : ∀ d ∈ nodes, d.guid ≠ "")
    (hexact : List.Forall₂ (fun d e => e.2.records = d.ports) nodes g.placed)
    (hopened : NodeData.Opened registry nodes) : g.lacking = [] := by
  have hrecords : ∀ h x, g.node? h = some x → ∃ d ∈ nodes, x.guid = d.guid ∧
      x.descriptor = (registry.resolve d).descriptor ∧ x.records = d.ports := by
    intro h x hx
    obtain ⟨i, d, hd, hi, hdx⟩ := hg.saved h x hx
    obtain ⟨e, he, hrecords⟩ := exists_right_of_forall₂ hexact i d hd
    rw [g.placed_getElem? hg.sound i h x hi hx] at he
    cases he
    have hmem := List.mem_of_getElem? hd
    exact ⟨d, hmem, hdx.guid (hnamed d hmem), hdx.descriptor, hrecords⟩
  refine List.eq_nil_iff_forall_not_mem.mpr fun m hm => ?_
  obtain ⟨h, x, r, c, y, p, hx, hr, hc, hy, hguid, hp, harray, hnone, hindex, _⟩ :=
    g.exists_of_mem_lacking m hm
  obtain ⟨d, hd, _, _, hdr⟩ := hrecords h x hx
  obtain ⟨e, he, heguid, hdescriptor, her⟩ := hrecords _ y hy
  have hslot := hopened d hd r (hdr ▸ hr) c hc e he (heguid.symm.trans hguid) hindex p
    (hdescriptor ▸ hp) harray
  rw [← her] at hslot
  rw [GraphNode.port?_of_declared (hg.laidOut _ y hy) _ _ p hp hslot] at hnone
  cases hnone

theorem placeAll_extends (registry : Registry) (data : GraphData) (s : Store) :
    s.vars.Extends (placeAll registry data s).2.vars := by
  have hvars : ∀ (k : Graph) (t : Store), t.vars.Extends
      ((k.addVariables data.vars t).1.addIncomingSlots (k.addVariables data.vars t).2).2.vars := by
    intro k t
    rw [(addIncomingSlots_retains _ _).vars]
    exact (k.addVariables_declares data.vars t).1
  have hnodes : s.vars.Extends ((create data.name s).1.addNodes registry data.nodes
      (create data.name s).2).2.vars :=
    (create data.name s).1.addNodes_extends registry data.nodes (create data.name s).2
  exact hnodes.trans (hvars _ _)

mutual

/-- Hydrating adds variables to the table, and changes none. -/
theorem ofData_extends (registry : Registry) (data : GraphData) (s : Store) :
    s.vars.Extends (ofData registry data s).2.vars := by
  obtain ⟨name, nodes, vars, groups, functions⟩ := data
  rw [ofData_eq]
  exact (placeAll_extends registry _ s).trans (functionsOfData_extends registry functions _)

theorem functionsOfData_extends (registry : Registry) (functions : List (String × GraphData))
    (s : Store) : s.vars.Extends (functionsOfData registry functions s).2.vars := by
  match functions with
  | [] => exact .refl _
  | (name, data) :: rest =>
    exact (ofData_extends registry data s).trans (functionsOfData_extends registry rest _)

end

/-- Up to the slots for connections, a hydrated graph has the saved nodes and variables. -/
theorem placeNodes_restores (registry : Registry) (data : GraphData) (s : Store)
    (hnodup : (data.nodes.map (·.guid)).Nodup) (hnamed : ∀ d ∈ data.nodes, d.guid ≠ "") :
    (placeNodes registry data s).1.name = data.name ∧
      List.Forall₂ (fun d e => e.2.Restores registry (placeNodes registry data s).2.vars d ∧
          e.2.records = d.ports) data.nodes (placeNodes registry data s).1.placed ∧
      List.Forall₂ (fun d v => (placeNodes registry data s).2.vars.find? v
          = some (Variable.ofData d)) data.vars (placeNodes registry data s).1.blackboard := by
  obtain ⟨created, t, hcreate, hconsistent, hname, hboard, hempty⟩ : ∃ created t,
      create data.name s = (created, t) ∧ created.toNetwork.Consistent ∧
      created.name = data.name ∧ created.blackboard = [] ∧ created.placed = [] :=
    ⟨_, _, rfl, create_consistent data.name s, rfl, rfl, rfl⟩
  have hadded := created.addNodes_restores registry [] data.nodes t hconsistent hnamed hnodup
    (hempty ▸ .nil)
  have hlabels := created.addNodes_labels registry data.nodes t
  obtain ⟨placed, u, hadd⟩ : ∃ placed u, created.addNodes registry data.nodes t = (placed, u) :=
    ⟨_, _, rfl⟩
  have hbound : placeNodes registry data s = placed.addVariables data.vars u := by
    unfold placeNodes
    simp only [bind, StateT.bind, hcreate, hadd]
  rw [hadd] at hadded hlabels
  obtain ⟨hmore, hname', added, hboard', hvars⟩ := placed.addVariables_declares data.vars u
  obtain ⟨hsame, horder, _⟩ := placed.addVariables_eq data.vars u
  rw [← hbound] at hmore hname' hboard' hvars hsame horder
  refine ⟨hname'.trans (hlabels.1.trans hname), ?_, ?_⟩
  · -- variables do not touch the nodes
    have hplaced : (placeNodes registry data s).1.placed = placed.placed := by
      unfold Network.placed Network.node?
      rw [hsame, horder]
    rw [hplaced]
    exact hadded.imp fun _ _ he => ⟨he.1.mono hmore, he.2⟩
  · rw [hboard', hlabels.2, hboard, List.nil_append]
    exact hvars

end Graph

/-! ## Section 4: A graph without its functions -/

/-- A saved node is saved in normal form, with records of slots that were opened. -/
def NodeData.SavedAs (registry : Registry) (d saved : NodeData) : Prop :=
  ∃ opened, saved = { d.normal registry with ports := d.ports ++ opened } ∧
    ∀ r ∈ opened, r.connections = []

/-- What a saved graph is saved as once it was hydrated; the functions are left out. -/
structure GraphData.SavedAs (registry : Registry) (data saved : GraphData) : Prop where
  name : saved.name = data.name
  nodes : List.Forall₂ (NodeData.SavedAs registry) data.nodes saved.nodes
  vars : saved.vars = data.vars.map VariableData.normal
  groups : saved.nodeGroups = data.nodeGroups
  /-- A slot that is there is not opened again. -/
  steady : NodeData.Opened registry data.nodes → saved.nodes = data.nodes.map (·.normal registry)
  /-- There is a slot for every connection. -/
  opened : (∀ d ∈ data.nodes,
      (registry.resolve (d.normal registry)).descriptor = (registry.resolve d).descriptor) →
    NodeData.Opened registry saved.nodes

namespace Graph

/-- The nodes of a hydrated network, as they are saved. -/
theorem toData_placeAll (registry : Registry) (data : GraphData) (s : Store)
    (hnodup : (data.nodes.map (·.guid)).Nodup) (hnamed : ∀ d ∈ data.nodes, d.guid ≠ "")
    (vs : Variables) (hvs : (placeAll registry data s).2.vars.Extends vs) :
    List.Forall₂ (fun d e => e.2.toData vs = { d.normal registry with ports := e.2.records })
      data.nodes (placeAll registry data s).1.placed := by
  obtain ⟨_, hnodes, _⟩ := placeNodes_restores registry data s hnodup hnamed
  have hcarries := placeNodes_carries registry data s hnodup fun d hd hnone =>
    absurd hnone (hnamed d hd)
  rw [placeAll_eq] at hvs ⊢
  dsimp only at hvs ⊢
  obtain ⟨bound, t, hplace⟩ : ∃ bound t, placeNodes registry data s = (bound, t) := ⟨_, _, rfl⟩
  rw [hplace] at hnodes hcarries hvs ⊢
  rw [(bound.addIncomingSlots_retains t).vars] at hvs
  rw [(bound.differs_addIncomingSlots t hcarries.laidOut).placed, List.forall₂_map_right_iff]
  exact hnodes.imp fun d e he => ((he.1.mono hvs).laidOut _).toData

/-- The records are the saved ones, with those of slots that were opened. -/
theorem records_placeAll (registry : Registry) (data : GraphData) (s : Store)
    (hnodup : (data.nodes.map (·.guid)).Nodup) (hnamed : ∀ d ∈ data.nodes, d.guid ≠ "")
    (hopened : NodeData.Opened registry data.nodes) :
    List.Forall₂ (fun d e => e.2.records = d.ports) data.nodes
      (placeAll registry data s).1.placed := by
  obtain ⟨_, hnodes, _⟩ := placeNodes_restores registry data s hnodup hnamed
  have hcarries := placeNodes_carries registry data s hnodup fun d hd hnone =>
    absurd hnone (hnamed d hd)
  have hexact := hnodes.imp fun _ _ he => he.2
  rw [placeAll_eq]
  dsimp only
  have hnone := lacking_eq_nil _ registry data.nodes hcarries hnamed hexact hopened
  rw [(differs_addIncomingSlots _ _ hcarries.laidOut).placed, List.forall₂_map_right_iff, hnone]
  exact hexact

/-- Where types declare no port name twice, no node has two ports of one name; nor has a
    placeholder. -/
theorem nodup_names (registry : Registry) (hregistry : registry.DistinctPorts) (d : NodeData) :
    ((registry.resolve d).descriptor.ports.map (·.name)).Nodup := by
  cases hlive : (registry.resolve d).isPlaceholder with
  | true =>
    rw [registry.resolve_of_placeholder d hlive]
    exact List.nodup_nil
  | false => exact hregistry.names_of_live d hlive

/-- Once it was hydrated, a network is saved with a slot for every connection. -/
theorem opened_placeAll (registry : Registry) (hregistry : registry.WellFormed) (data : GraphData)
    (s : Store) (hnodup : (data.nodes.map (·.guid)).Nodup) (hnamed : ∀ d ∈ data.nodes, d.guid ≠ "")
    (vs : Variables) (hvs : (placeAll registry data s).2.vars.Extends vs)
    (hsame : ∀ d ∈ data.nodes,
      (registry.resolve (d.normal registry)).descriptor = (registry.resolve d).descriptor) :
    NodeData.Opened registry
      ((placeAll registry data s).1.placed.map fun e => e.2.toData vs) := by
  have hall := toData_placeAll registry data s hnodup hnamed vs hvs
  obtain ⟨hcarries, hopened⟩ := placeAll_carries registry data s hnodup fun d hd hnone =>
    absurd hnone (hnamed d hd)
  obtain ⟨n, hn⟩ : ∃ n : Graph, (placeAll registry data s).1 = n := ⟨_, rfl⟩
  rw [hn] at hall hcarries hopened ⊢
  -- what a live node is saved as has its records and is resolved to its type
  have hsaved : ∀ saved ∈ n.placed.map fun e => e.2.toData vs, ∃ h x, n.node? h = some x ∧
      saved.ports = x.records ∧ saved.guid = x.guid ∧
      (registry.resolve saved).descriptor = x.descriptor := by
    intro saved hmem
    obtain ⟨⟨h, x⟩, hx, rfl⟩ := List.mem_map.mp hmem
    obtain ⟨i, hi⟩ := List.mem_iff_getElem?.mp hx
    obtain ⟨d, hd, hdata⟩ := exists_left_of_forall₂ hall i _ hi
    obtain ⟨d', hd', hdx⟩ := exists_left_of_forall₂ hcarries.nodes i _ hi
    rw [hd] at hd'
    cases hd'
    have hmem := List.mem_of_getElem? hd
    refine ⟨h, x, n.node?_of_mem_placed h x hx, ?_, ?_, ?_⟩
    · rw [hdata]
    · rw [hdata, hdx.guid (hnamed d hmem)]
      exact d.normal_guid
    · rw [hdata, registry.resolve_ports, hsame d hmem, hdx.descriptor]
  intro d hd r hr c hc e he hguid hindex p hp harray
  obtain ⟨h, x, hx, hports, _, _⟩ := hsaved d hd
  obtain ⟨k, y, hy, hports', hguid', hdescriptor⟩ := hsaved e he
  rw [hports']
  have hnames : (y.descriptor.ports.map (·.name)).Nodup :=
    hdescriptor ▸ nodup_names registry hregistry.distinctPorts e
  exact hopened h x hx r (hports ▸ hr) c hc k y hy (hguid' ▸ hguid) hnames hindex p
    (hdescriptor ▸ hp) harray

/-- What a network is saved as. -/
theorem placeAll_savedAs (registry : Registry) (hregistry : registry.WellFormed) (data : GraphData)
    (s : Store) (hnodup : (data.nodes.map (·.guid)).Nodup) (hnamed : ∀ d ∈ data.nodes, d.guid ≠ "")
    (vs : Variables) (hvs : (placeAll registry data s).2.vars.Extends vs)
    (functions : List (String × GraphData)) :
    data.SavedAs registry
      { name := (placeAll registry data s).1.name
        nodes := (placeAll registry data s).1.placed.map fun e => e.2.toData vs
        vars := (placeAll registry data s).1.blackboard.map vs.toData
        nodeGroups := data.nodeGroups
        functions } := by
  have hall := toData_placeAll registry data s hnodup hnamed vs hvs
  obtain ⟨hcarries, _⟩ := placeAll_carries registry data s hnodup fun d hd hnone =>
    absurd hnone (hnamed d hd)
  obtain ⟨hname, _, hvars⟩ := placeNodes_restores registry data s hnodup hnamed
  have hretains : (placeNodes registry data s).1.Retains (placeNodes registry data s).2
      (placeAll registry data s).1 (placeAll registry data s).2 := addIncomingSlots_retains _ _
  refine ⟨hretains.name.trans hname, ?_, ?_, rfl, fun hopened => ?_, fun hsame => ?_⟩
  · show List.Forall₂ _ _ (List.map _ _)
    rw [List.forall₂_map_right_iff]
    refine (forall₂_and hall hcarries.nodes).imp fun d e he => ?_
    obtain ⟨hdata, hde⟩ := he
    obtain ⟨opened, hrecords, hempty⟩ := hde.records
    exact ⟨opened, by rw [hdata, hrecords], hempty⟩
  · show List.map vs.toData (placeAll registry data s).1.blackboard = _
    rw [hretains.vars] at hvs
    rw [hretains.blackboard]
    exact (map_eq_of_forall₂ (hvars.imp fun d v hv => (vs.toData_ofData v d (hvs v _ hv)).symm)).symm
  · -- where all slots are recorded, none is opened
    show List.map _ _ = _
    have hrecords := records_placeAll registry data s hnodup hnamed hopened
    refine (map_eq_of_forall₂ ((forall₂_and hall hrecords).imp fun d e he => ?_)).symm
    rw [he.1, he.2, ← d.normal_ports]
  · exact opened_placeAll registry hregistry data s hnodup hnamed vs hvs hsame

end Graph
end FlowGraph
