import FlowGraph.Proofs.Graph.Happening
import FlowGraph.Proofs.Graph.Editing
import FlowGraph.Proofs.Graph.Rosters

/-! # Live graphs and their variables

    A graph is hydrated, edited, compiled and disposed, its blackboard is changed, other graphs
    become functions of it, and anything else is done to the store in between
    (`Graph.Reachable`).  All the time the variables of its rosters are in the table, no two
    graphs within share an id, and a variable of a node is in no other place
    (`Graph.Reachable.sound`). -/

namespace FlowGraph

/-! ## Section 1: Rosters of their own -/

/-- The variables of rosters are there, ids are not shared, and neither are variables of nodes. -/
structure Roster.Sound (rs : List Roster) (s : Store) : Prop where
  bound : s.Bound
  housed : Graph.Housed rs s.vars
  distinct : (rs.map (·.id)).Nodup
  marked : ∀ r ∈ rs, r.id < s.graphs.size
  apart : ∀ r ∈ rs, ∀ k ∈ rs, ∀ v ∈ r.own, v ∈ k.own → r = k

/-- Rosters share neither ids nor variables of nodes with others. -/
structure Roster.Apart (rs rs' : List Roster) : Prop where
  ids : ∀ r ∈ rs, ∀ k ∈ rs', r.id ≠ k.id
  own : ∀ r ∈ rs, ∀ k ∈ rs', ∀ v ∈ r.own, v ∉ k.own

namespace Roster.Sound

variable {rs rs' : List Roster} {s t : Store}

/-- The store may grow. -/
theorem grow (h : Sound rs s) (ht : t.Bound) (hvars : s.vars.cells.size ≤ t.vars.cells.size)
    (hgraphs : s.graphs.size ≤ t.graphs.size) : Sound rs t where
  bound := ht
  housed := fun r hr v hv => (h.housed r hr v hv).trans_le hvars
  distinct := h.distinct
  marked := fun r hr => (h.marked r hr).trans_le hgraphs
  apart := h.apart

theorem sublist (h : Sound rs s) (hsub : rs'.Sublist rs) : Sound rs' s where
  bound := h.bound
  housed := fun r hr => h.housed r (hsub.subset hr)
  distinct := h.distinct.sublist (hsub.map _)
  marked := fun r hr => h.marked r (hsub.subset hr)
  apart := fun r hr k hk => h.apart r (hsub.subset hr) k (hsub.subset hk)

theorem append (h : Sound rs s) (h' : Sound rs' s) (hapart : Apart rs rs') :
    Sound (rs ++ rs') s where
  bound := h.bound
  housed := List.forall_mem_append.mpr ⟨h.housed, h'.housed⟩
  distinct := by
    rw [List.map_append, List.nodup_append]
    refine ⟨h.distinct, h'.distinct, fun a ha b hb => ?_⟩
    obtain ⟨r, hr, rfl⟩ := List.mem_map.mp ha
    obtain ⟨k, hk, rfl⟩ := List.mem_map.mp hb
    exact hapart.ids r hr k hk
  marked := List.forall_mem_append.mpr ⟨h.marked, h'.marked⟩
  apart := by
    intro r hr k hk v hv hin
    rcases List.mem_append.mp hr with hr | hr <;> rcases List.mem_append.mp hk with hk | hk
    · exact h.apart r hr k hk v hv hin
    · exact absurd hin (hapart.own r hr k hk v hv)
    · exact absurd hv (hapart.own k hk r hr v hin)
    · exact h'.apart r hr k hk v hv hin

/-- A roster gives up variables and takes on others that are there; those of nodes are new. -/
theorem replace {r r' : Roster} (h : Sound (r :: rs) s) (hid : r'.id = r.id) (ht : t.Bound)
    (hvars : s.vars.cells.size ≤ t.vars.cells.size) (hgraphs : s.graphs.size ≤ t.graphs.size)
    (hroom : ∀ v ∈ r'.owned, v < t.vars.cells.size)
    (hown : ∀ v ∈ r'.own, v ∈ r.own ∨ s.vars.cells.size ≤ v) : Sound (r' :: rs) t where
  bound := ht
  housed := List.forall_mem_cons.mpr ⟨hroom, fun k hk v hv =>
    (h.housed k (List.mem_cons_of_mem r hk) v hv).trans_le hvars⟩
  distinct := by
    rw [List.map_cons, hid]
    exact h.distinct
  marked := by
    obtain ⟨hfirst, hrest⟩ := List.forall_mem_cons.mp h.marked
    exact List.forall_mem_cons.mpr ⟨hid ▸ hfirst.trans_le hgraphs,
      fun k hk => (hrest k hk).trans_le hgraphs⟩
  apart := by
    have hother : ∀ k ∈ rs, k ∈ r :: rs := fun k => List.mem_cons_of_mem r
    have hmine : ∀ v ∈ r'.own, ∀ k ∈ rs, v ∉ k.own := by
      intro v hv k hk hin
      rcases hown v hv with hold | hnew
      · have hsame := h.apart r List.mem_cons_self k (hother k hk) v hold hin
        exact (List.nodup_cons.mp h.distinct).1
          (List.mem_map.mpr ⟨k, hk, congrArg Roster.id hsame.symm⟩)
      · exact (h.housed k (hother k hk) v (List.mem_append_right _ hin)).not_ge hnew
    intro k hk l hl v hv hin
    rcases List.mem_cons.mp hk with rfl | hk' <;> rcases List.mem_cons.mp hl with rfl | hl'
    · rfl
    · exact absurd hin (hmine v hv l hl')
    · exact absurd hv (hmine v hin k hk')
    · exact h.apart k (hother k hk') l (hother l hl') v hv hin

end Roster.Sound

namespace Graph

/-! ## Section 2: Edits -/

/-- An edit of slots and records: the roster, the functions and the variables stay. -/
structure Revises (g k : Graph) (s t : Store) : Prop where
  stays : g.Stays k s t
  roster : k.toNetwork.roster = g.toNetwork.roster
  vars : t.vars = s.vars
  globals : t.globals = s.globals

namespace Revises

variable {g k l : Graph} {s t u : Store}

theorem refl (g : Graph) (s : Store) : g.Revises g s s := ⟨.refl g s, rfl, rfl, rfl⟩

theorem trans (h : g.Revises k s t) (h' : k.Revises l t u) : g.Revises l s u :=
  ⟨h.stays.trans h'.stays, h'.roster.trans h.roster, h'.vars.trans h.vars,
    h'.globals.trans h.globals⟩

theorem rosters (h : g.Revises k s t) : k.rosters = g.rosters := by
  rw [rosters_eq, rosters_eq, h.roster, h.stays.functions]

theorem sound (h : g.Revises k s t) (hg : Roster.Sound g.rosters s) : Roster.Sound k.rosters t := by
  rw [h.rosters]
  exact hg.grow (hg.bound.of_vars h.vars h.globals) (by rw [h.vars])
    (Store.size_congr h.stays.marks).ge

end Revises

theorem roster_modify (g : Graph) (h : NodeHandle) (f : GraphNode → GraphNode)
    (hf : ∀ x, bare (f x) = bare x) :
    Network.roster { g.toNetwork with nodes := g.nodes.modify h f } = g.toNetwork.roster := by
  unfold Network.roster
  rw [ownVariables_modify g.toNetwork h f hf]

theorem modifyRecords_revises (g : Graph) (h : NodeHandle) (f : List PortData → List PortData)
    (s : Store) : g.Revises (g.modifyRecords h f) s s :=
  ⟨g.modifyRecords_stays h f s, g.roster_modify h _ fun _ => rfl, rfl, rfl⟩

theorem layOut_revises (g : Graph) (h : NodeHandle) (s : Store) :
    g.Revises (g.layOut h s).1 s (g.layOut h s).2 := by
  refine ⟨g.layOut_stays h s, ?_, (g.layOut_retains h s).vars, ?_⟩
  · rw [layOut_graph]
    exact g.roster_modify h GraphNode.laidOut fun _ => rfl
  · unfold layOut
    cases g.node? h with
    | none => rfl
    | some x => rfl

theorem openSlot_revises (g : Graph) (target : SlotRef) (s : Store) :
    g.Revises (g.openSlot target s).1 s (g.openSlot target s).2 := by
  rcases g.openSlot_cases target s with ⟨heq, _⟩ | ⟨k, _, _, _, _, _, heq⟩
  · rw [heq]
    exact .refl g s
  · rw [heq]
    exact (g.modifyRecords_revises k _ s).trans (layOut_revises _ k s)

theorem recordConnection_revises (g : Graph) (h : NodeHandle) (d : PortDescriptor)
    (source target : SlotRef) (s : Store) :
    g.Revises (g.recordConnection h d source target s).1 s
      (g.recordConnection h d source target s).2 := by
  unfold recordConnection
  cases d.array with
  | true => exact (g.modifyRecords_revises h _ s).trans (layOut_revises _ h s)
  | false => exact g.modifyRecords_revises h _ s

theorem connect_revises (g : Graph) (source target : SlotRef) (s : Store) :
    g.Revises ((Operation.connect source target).apply (g, s)).1 s
      ((Operation.connect source target).apply (g, s)).2 := by
  unfold Operation.apply
  dsimp only
  rcases g.connect_cases source target s with ⟨e, heq⟩ | ⟨h, x, d, hc⟩
  · rw [heq]
    exact .refl g s
  · rw [hc.connect_eq s]
    have hall :=
      (g.recordConnection_revises h d source target s).trans (openSlot_revises _ target _)
    exact ⟨⟨hall.stays.id, hall.stays.functions, hall.stays.marks⟩, hall.roster, hall.vars,
      hall.globals⟩

theorem setConstant_revises (g : Graph) (slot : SlotRef) (v : Value) (s : Store) :
    g.Revises (g.setConstant slot v s).1.1 s (g.setConstant slot v s).2 := by
  rcases g.setConstant_eq slot v s with ⟨e, heq⟩ | ⟨h, x, d, _, _, _, hresult⟩
  · rw [heq]
    exact .refl g s
  · have hrecorded := g.modifyRecords_revises h (constantRecord slot v) s
    rcases hresult with ⟨i, _, heq⟩ | ⟨_, _, heq⟩ | ⟨_, _, e, heq⟩
    · rw [heq]
      have hmarks : (s.writeCell g.id ⟨h, i⟩ v).marks = s.marks :=
        s.marks_writeCell g.id ⟨h, i⟩ v
      exact ⟨⟨rfl, rfl, hmarks⟩, hrecorded.roster, rfl, rfl⟩
    · rw [heq]
      exact hrecorded.trans (layOut_revises _ h s)
    · rw [heq]
      exact hrecorded

/-- New variables are made and a node with them is inserted. -/
theorem insert_sound {g : Graph} {s u : Store} (hg : Roster.Sound g.rosters s)
    (harena : g.nodes.WellFormed) (x : GraphNode) (hmade : Makes s u (x.vars.map (·.2)))
    (hmarks : u.marks = s.marks) :
    Roster.Sound (g.insert x u).1.2.rosters (g.insert x u).2 := by
  have hstays := g.insert_stays x u
  have hvars := g.insert_vars x u
  have hown := g.insert_own x u harena
  have hboard : ∀ v ∈ (g.insert x u).1.2.blackboard, v ∈ g.blackboard := by
    obtain ⟨y, _, t, _, heq⟩ := g.insert_eq x u
    rw [heq]
    exact fun v hv => hv
  have hbound : (g.insert x u).2.Bound := by
    refine ⟨?_, fun name t ht => ?_⟩
    · rw [hvars]
      exact hmade.wellBound hg.bound.wellBound
    · rw [g.insert_globals x u, hmade.globals] at ht
      rw [hvars]
      exact (hg.bound.globals name t ht).trans_le hmade.rewired.size
  have hsize : s.vars.cells.size ≤ (g.insert x u).2.vars.cells.size := by
    rw [hvars]
    exact hmade.rewired.size
  rw [rosters_eq] at hg
  rw [rosters_eq, hstays.functions]
  refine hg.replace hstays.id hbound hsize ?_ (fun v hv => ?_) fun v hv => ?_
  · rw [Store.size_congr (hstays.marks.trans hmarks)]
  · rcases List.mem_append.mp hv with hin | hin
    · have hold : v ∈ g.roster.owned := List.mem_append_left _ (hboard v hin)
      exact (hg.housed _ List.mem_cons_self v hold).trans_le hsize
    · rcases List.mem_append.mp (hown.subset hin) with hold | hnew
      · exact (hg.housed _ List.mem_cons_self v (List.mem_append_right _ hold)).trans_le hsize
      · rw [hvars]
        exact (hmade.fresh v hnew).2
  · exact (List.mem_append.mp (hown.subset hv)).imp_right fun hnew => (hmade.fresh v hnew).1

theorem addNode_sound {g : Graph} {s : Store} (hg : Roster.Sound g.rosters s)
    (harena : g.nodes.WellFormed) (registry : Registry) (data : NodeData) :
    Roster.Sound (g.addNode registry data s).1.2.rosters (g.addNode registry data s).2 := by
  have hvars := makeNode_makes data (registry.resolve data)
    (s.reportAll (registry.resolveNotices data))
  exact insert_sound hg harena _
    ⟨hvars.rewired, hvars.wellBound, hvars.globals, hvars.nodup, hvars.fresh⟩
    (marks_makeVariables _ _ _ _)

theorem addLive_sound {g : Graph} {s : Store} (hg : Roster.Sound g.rosters s)
    (harena : g.nodes.WellFormed) (guid : String) (descriptor : NodeDescriptor)
    (behavior : Behavior) :
    Roster.Sound (g.addLive guid descriptor behavior s).1.2.rosters
      (g.addLive guid descriptor behavior s).2 :=
  insert_sound hg harena _ (makeNode_makes _ _ s) (marks_makeVariables _ _ _ _)

theorem removeNode_sound {g : Graph} {s : Store} (hg : Roster.Sound g.rosters s)
    (h : NodeHandle) : Roster.Sound (g.removeNode s.vars h).2.rosters s := by
  have hstays := g.removeNode_stays h s
  have hboard : ∀ v ∈ (g.removeNode s.vars h).2.blackboard, v ∈ g.blackboard := by
    unfold removeNode
    cases g.nodes.remove h with
    | none => exact fun v hv => hv
    | some r => exact fun v hv => hv
  have hown : ∀ v ∈ (ownVariables (g.removeNode s.vars h).2.toNetwork).map (·.2.2),
      v ∈ (ownVariables g.toNetwork).map (·.2.2) := by
    unfold removeNode
    cases hr : g.nodes.remove h with
    | none => exact fun v hv => hv
    | some r =>
      obtain ⟨x, nodes⟩ := r
      -- connections to the node are removed too, which does not matter for the variables
      have hfewer : ∀ f : GraphNode → List PortData, ∀ e ∈ ownVariables
          { g.toNetwork with nodes := nodes.map fun n => { n with records := f n } },
          e ∈ ownVariables g.toNetwork := by
        intro f e he
        rw [ownVariables_map { g.toNetwork with nodes } (fun n => { n with records := f n })
          fun _ => ⟨rfl, rfl⟩] at he
        obtain ⟨a, ha, hin⟩ := List.mem_flatMap.mp he
        exact List.mem_flatMap.mpr ⟨a, (g.nodes.toList_remove_perm nodes h x hr).symm.subset
          (List.mem_cons_of_mem _ ha), hin⟩
      intro v hv
      obtain ⟨e, he, rfl⟩ := List.mem_map.mp hv
      exact List.mem_map_of_mem (hfewer _ e he)
  rw [rosters_eq] at hg
  rw [rosters_eq, hstays.functions]
  refine hg.replace hstays.id hg.bound le_rfl le_rfl (fun v hv => ?_) fun v hv => .inl (hown v hv)
  refine hg.housed _ List.mem_cons_self v ?_
  rcases List.mem_append.mp hv with hin | hin
  · exact List.mem_append_left _ (hboard v hin)
  · exact List.mem_append_right _ (hown v hin)

/-! ## Section 3: What makes graphs and changes stores -/

theorem create_sound (name : String) {s : Store} (hs : s.Bound) :
    Roster.Sound (create name s).1.rosters (create name s).2 := by
  have hroster : (create name s).1.rosters = [⟨s.graphs.size, [], []⟩] := by
    rw [rosters_eq]
    rfl
  rw [hroster]
  refine ⟨hs.of_vars rfl rfl, ?_, List.nodup_singleton _, ?_, ?_⟩
  · exact List.forall_mem_singleton.mpr (List.forall_mem_nil _)
  · refine List.forall_mem_singleton.mpr ?_
    show s.graphs.size < (s.graphs.push {}).size
    simp
  · exact List.forall_mem_singleton.mpr fun _ _ => List.forall_mem_nil _

theorem ofData_sound (registry : Registry) (data : GraphData) {s : Store} (hs : s.Bound) :
    Roster.Sound (ofData registry data s).1.rosters (ofData registry data s).2 := by
  have hmade := ofData_makes registry data s
  obtain ⟨n, hnumbers⟩ := ofData_numbers registry data s
  have hids := hnumbers.ids
  rw [owned_eq_rosters] at hmade
  rw [ids_eq_rosters] at hids
  refine ⟨ofData_bound registry data hs, fun r hr v hv => ?_, ?_, fun r hr => ?_, ?_⟩
  · exact (hmade.fresh v (List.mem_flatMap.mpr ⟨r, hr, hv⟩)).2
  · rw [hids]
    exact List.nodup_range'
  · have hin : r.id ∈ List.range' s.graphs.size n := hids ▸ List.mem_map_of_mem hr
    rw [hnumbers.size]
    exact (List.mem_range'_1.mp hin).2
  · -- no variable was made twice
    intro r hr k hk v hv hin
    by_contra hne
    have hsymm : Std.Symm (Function.onFun List.Disjoint Roster.owned) :=
      ⟨fun _ _ hab => List.Disjoint.symm hab⟩
    have hdisjoint := (List.nodup_flatMap.mp hmade.nodup).2.forall hr hk hne
    exact hdisjoint (List.mem_append_right _ hv) (List.mem_append_right _ hin)

theorem mem_owned {g : Graph} {s : Store} (hg : Roster.Sound g.rosters s) :
    ∀ v ∈ g.owned, v < s.vars.cells.size := by
  intro v hv
  rw [owned_eq_rosters] at hv
  obtain ⟨r, hr, hin⟩ := List.mem_flatMap.mp hv
  exact hg.housed r hr v hin

theorem compile_sound {g : Graph} {s : Store} (hg : Roster.Sound g.rosters s)
    (conversions : Conversions) :
    Roster.Sound (g.compile conversions s).1.1.rosters (g.compile conversions s).2 := by
  obtain ⟨hrewired, hbound⟩ :=
    (compile_steps conversions g s).rebinds.table hg.bound (mem_owned hg)
  rw [rosters_compile]
  exact hg.grow hbound hrewired.size (compile_compiles conversions g s).unmarks.size.ge

theorem dispose_sound {g : Graph} {s : Store} (hg : Roster.Sound g.rosters s) :
    Roster.Sound g.rosters (g.dispose s).2 := by
  obtain ⟨hrewired, hbound⟩ := (dispose_rebinds g s).table hg.bound (mem_owned hg)
  refine hg.grow hbound hrewired.size (dispose_marks g s fun id hid => ?_).1.size.ge
  rw [ids_eq_rosters] at hid
  obtain ⟨r, hr, rfl⟩ := List.mem_map.mp hid
  exact hg.marked r hr

theorem addFunction_sound {g f : Graph} {s : Store} (hg : Roster.Sound g.rosters s)
    (hf : Roster.Sound f.rosters s) (hapart : Roster.Apart g.rosters f.rosters) (name : String) :
    Roster.Sound (g.addFunction name f).rosters s := by
  refine (hg.append hf hapart).sublist ?_
  have hkept : (rosters.functionRosters (g.functions.filter (·.1 ≠ name))).Sublist
      (rosters.functionRosters g.functions) := by
    rw [functionRosters_eq, functionRosters_eq]
    exact List.Sublist.flatMap List.filter_sublist _
  rw [rosters_eq, rosters_eq g]
  unfold addFunction
  rw [functionRosters_eq, List.flatMap_append, ← functionRosters_eq, List.flatMap_singleton]
  exact (hkept.append_right _).cons_cons _

/-! ## Section 4: Reachable graphs -/

/-- An operation with the graph itself. -/
def Operation.Inner : Operation → Prop
  | .addFunction _ _ => False
  | .elsewhere _ => False
  | _ => True

/-- A graph and the store as they can come about: a new graph or a hydrated one is edited,
    compiled and disposed, its blackboard is changed, and other graphs are made functions of it,
    while other things happen to the store. -/
inductive Reachable : Graph → Store → Prop where
  | create (name : String) {s : Store} (hs : s.Bound) :
    Reachable (create name s).1 (create name s).2
  | hydrate (registry : Registry) (data : GraphData) {s : Store} (hs : s.Bound) :
    Reachable (ofData registry data s).1 (ofData registry data s).2
  | operate (op : Operation) {g : Graph} {s : Store} (hop : op.Inner) (hg : Reachable g s) :
    Reachable (op.apply (g, s)).1 (op.apply (g, s)).2
  | setBoard (board : Blackboard) {g : Graph} {s : Store} (hg : Reachable g s)
    (hboard : ∀ v ∈ board, v < s.vars.cells.size) :
    Reachable { g with blackboard := board } s
  | addFunction (name : String) {g f : Graph} {s : Store} (hg : Reachable g s)
    (hf : Reachable f s) (hapart : Roster.Apart g.rosters f.rosters) :
    Reachable (g.addFunction name f) s
  /-- Other work, such as a dispatch, or work on other graphs or global variables. -/
  | elsewhere {g : Graph} {s t : Store} (hg : Reachable g s) (ht : t.Bound)
    (hvars : s.vars.cells.size ≤ t.vars.cells.size) (hgraphs : s.graphs.size ≤ t.graphs.size) :
    Reachable g t

namespace Reachable

variable {g : Graph} {s : Store}

theorem consistent (h : g.Reachable s) : g.toNetwork.Consistent := by
  induction h with
  | create name hs => exact create_consistent name _
  | hydrate registry data hs => exact ofData_consistent registry data _
  | operate op hop _ ih => exact apply_consistent op _ ih
  | @setBoard board g s _ _ ih =>
    exact Network.Keeps.consistent (n := g.toNetwork) (.of_nodes rfl rfl) ih
  | addFunction name _ _ _ ih => exact ih
  | elsewhere _ _ _ _ ih => exact ih

/-- One operation. -/
theorem sound_apply (op : Operation) (hop : op.Inner) (hg : Roster.Sound g.rosters s)
    (harena : g.nodes.WellFormed) :
    Roster.Sound (op.apply (g, s)).1.rosters (op.apply (g, s)).2 := by
  cases op with
  | addNode registry data => exact addNode_sound hg harena registry data
  | addLive guid descriptor behavior => exact addLive_sound hg harena guid descriptor behavior
  | removeNode h => exact removeNode_sound hg h
  | connect source target => exact (g.connect_revises source target s).sound hg
  | setConstant slot v => exact (g.setConstant_revises slot v s).sound hg
  | addGroup group =>
    have hsame : g.Revises (g.addGroup group) s s := ⟨⟨rfl, rfl, rfl⟩, rfl, rfl, rfl⟩
    exact hsame.sound hg
  | clearPaths =>
    have hsame : g.Revises g.clearPaths s s := ⟨⟨rfl, rfl, rfl⟩, rfl, rfl, rfl⟩
    exact hsame.sound hg
  | dispose => exact dispose_sound hg
  | compile conversions => exact compile_sound hg conversions
  | addFunction name f => cases hop
  | elsewhere work => cases hop

/-- **The variables of reachable graphs.** -/
theorem sound (h : g.Reachable s) : Roster.Sound g.rosters s := by
  induction h with
  | create name hs => exact create_sound name hs
  | hydrate registry data hs => exact ofData_sound registry data hs
  | operate op hop hg ih =>
    -- inserting and removing need the arena to be in order
    exact sound_apply op hop ih hg.consistent.sound.arena
  | @setBoard board g s _ hboard ih =>
    rw [rosters_eq] at ih ⊢
    refine ih.replace rfl ih.bound le_rfl le_rfl (List.forall_mem_append.mpr ⟨hboard, ?_⟩)
      fun v hv => .inl hv
    exact fun v hv => ih.housed _ List.mem_cons_self v (List.mem_append_right _ hv)
  | addFunction name _ _ hapart ihg ihf => exact addFunction_sound ihg ihf hapart name
  | elsewhere _ ht hvars hgraphs ih => exact ih.grow ht hvars hgraphs

end Reachable

end Graph

end FlowGraph
