import FlowGraph.Proofs.Graph.Failing
import FlowGraph.Proofs.Variable.Bound

/-! # Which graphs are disposed

    The store has a place for every graph, named by the graph's id, and marks those that were
    disposed.  Hydrating makes room for the new graphs, each with an id of its own
    (`Graph.ofData_ids`).  Edits and bindings keep the id of a graph, its functions and all
    marks (`Graph.Stays`); only compiling and disposing set marks. -/

namespace FlowGraph

/-! ## Section 1: Marks -/

/-- The marks of all graphs. -/
def Store.marks (s : Store) : Array Bool := s.graphs.map (·.disposed)

namespace Store

variable {s t : Store}

theorem isDisposed_eq_marks (s : Store) (id : GraphId) :
    s.isDisposed id = (s.marks[id]?).getD false := by
  unfold isDisposed marks
  rw [Array.getElem?_map]

theorem size_marks (s : Store) : s.marks.size = s.graphs.size := Array.size_map

theorem isDisposed_congr (h : t.marks = s.marks) (id : GraphId) :
    t.isDisposed id = s.isDisposed id := by
  rw [isDisposed_eq_marks, isDisposed_eq_marks, h]

theorem size_congr (h : t.marks = s.marks) : t.graphs.size = s.graphs.size := by
  rw [← size_marks, ← size_marks, h]

/-- Whatever else changes of a graph, its mark stays. -/
theorem map_disposed_modify (graphs : Array GraphState) (id : GraphId) (f : GraphState → GraphState)
    (hf : ∀ x, (f x).disposed = x.disposed) :
    (graphs.modify id f).map (·.disposed) = graphs.map (·.disposed) := by
  apply Array.ext_getElem?
  intro i
  rw [Array.getElem?_map, Array.getElem?_map, Array.getElem?_modify]
  split
  · cases graphs[i]? with
    | none => rfl
    | some x => simp [hf]
  · rfl

theorem marks_fill (s : Store) (id : GraphId) (h : NodeHandle) (values : List Value) :
    (s.fill id h values).marks = s.marks := by
  show (s.graphs.modify id fun x => { x with cells := setRow x.cells h.index values.toArray }).map
    (·.disposed) = s.marks
  exact map_disposed_modify _ _ _ fun _ => rfl

theorem marks_writeCell (s : Store) (g : GraphId) (a : PortAddress) (v : Value) :
    (s.writeCell g a v).marks = s.marks := by
  show (s.graphs.modify g fun x =>
    { x with cells := x.cells.modify a.node.index (·.setIfInBounds a.port v) }).map
      (·.disposed) = s.marks
  exact map_disposed_modify _ _ _ fun _ => rfl

theorem isDisposed_setDisposed (s : Store) (id k : GraphId) (disposed : Bool)
    (hid : disposed = true → id < s.graphs.size) :
    (s.setDisposed id disposed).isDisposed k = if k = id then disposed else s.isDisposed k := by
  unfold isDisposed setDisposed
  rw [Array.getElem?_modify]
  by_cases hk : k = id
  · subst hk
    rw [if_pos rfl, if_pos rfl]
    cases hget : s.graphs[k]? with
    | some x => rfl
    | none =>
      -- a graph that is not there can only be unmarked
      cases disposed with
      | false => rfl
      | true =>
        rw [Array.getElem?_eq_getElem (hid rfl)] at hget
        cases hget
  · rw [if_neg (Ne.symm hk), if_neg hk]

theorem size_setDisposed (s : Store) (id : GraphId) (disposed : Bool) :
    (s.setDisposed id disposed).graphs.size = s.graphs.size := Array.size_modify

end Store

namespace Graph

/-! ## Section 2: Edits -/

/-- The graph keeps its id and its functions, and no graph is marked. -/
structure Stays (g k : Graph) (s t : Store) : Prop where
  id : k.id = g.id
  functions : k.functions = g.functions
  marks : t.marks = s.marks

theorem Stays.refl (g : Graph) (s : Store) : g.Stays g s s := ⟨rfl, rfl, rfl⟩

theorem Stays.trans {g k l : Graph} {s t u : Store} (h : g.Stays k s t) (h' : k.Stays l t u) :
    g.Stays l s u :=
  ⟨h'.id.trans h.id, h'.functions.trans h.functions, h'.marks.trans h.marks⟩

theorem marks_makeVariables (guid : String) (fields : Json) (ds : List VariableDescriptor)
    (s : Store) : (makeVariables guid fields ds s).2.marks = s.marks := by
  induction ds generalizing s with
  | nil => rfl
  | cons d rest ih => exact ih _

theorem insert_stays (g : Graph) (x : GraphNode) (s : Store) :
    g.Stays (g.insert x s).1.2 s (g.insert x s).2 := by
  obtain ⟨_, _, t, ht, heq⟩ := g.insert_eq x s
  rw [heq]
  refine ⟨rfl, rfl, ?_⟩
  rw [Store.marks_fill]
  unfold Store.marks
  rw [ht]

theorem addNode_stays (g : Graph) (registry : Registry) (data : NodeData) (s : Store) :
    g.Stays (g.addNode registry data s).1.2 s (g.addNode registry data s).2 :=
  -- only variables are made before the node is inserted
  have hmade := insert_stays g _ _
  ⟨hmade.id, hmade.functions, hmade.marks.trans (marks_makeVariables _ _ _ _)⟩

theorem addLive_stays (g : Graph) (guid : String) (descriptor : NodeDescriptor)
    (behavior : Behavior) (s : Store) :
    g.Stays (g.addLive guid descriptor behavior s).1.2 s (g.addLive guid descriptor behavior s).2 :=
  have hmade := insert_stays g _ _
  ⟨hmade.id, hmade.functions, hmade.marks.trans (marks_makeVariables _ _ _ _)⟩

theorem addNodes_stays (g : Graph) (registry : Registry) (data : List NodeData) (s : Store) :
    g.Stays (g.addNodes registry data s).1 s (g.addNodes registry data s).2 := by
  induction data generalizing g s with
  | nil => exact .refl g s
  | cons d rest ih => exact (g.addNode_stays registry d s).trans (ih _ _)

theorem addVariables_stays (g : Graph) (data : List VariableData) (s : Store) :
    g.Stays (g.addVariables data s).1 s (g.addVariables data s).2 := by
  induction data generalizing g s with
  | nil => exact .refl g s
  | cons d rest ih =>
    have hrest := ih { g with blackboard := g.blackboard ++ [(s.vars.add (Variable.ofData d)).1] }
      { s with vars := (s.vars.add (Variable.ofData d)).2 }
    exact ⟨hrest.id, hrest.functions, hrest.marks⟩

theorem layOut_stays (g : Graph) (h : NodeHandle) (s : Store) :
    g.Stays (g.layOut h s).1 s (g.layOut h s).2 := by
  refine ⟨by rw [layOut_graph], by rw [layOut_graph], ?_⟩
  unfold layOut
  cases g.node? h with
  | none => rfl
  | some x => exact Store.marks_fill _ _ _ _

theorem modifyRecords_stays (g : Graph) (h : NodeHandle) (f : List PortData → List PortData)
    (s : Store) : g.Stays (g.modifyRecords h f) s s := ⟨rfl, rfl, rfl⟩

theorem layOutAll_stays (g : Graph) (hs : List NodeHandle) (s : Store) :
    g.Stays (g.layOutAll hs s).1 s (g.layOutAll hs s).2 := by
  induction hs generalizing g s with
  | nil => exact .refl g s
  | cons h rest ih => exact (g.layOut_stays h s).trans (ih _ _)

theorem addIncomingSlots_stays (g : Graph) (s : Store) :
    g.Stays (g.addIncomingSlots s).1 s (g.addIncomingSlots s).2 := by
  -- the slots are recorded one after the other, then their nodes are laid out
  have hrecord : ∀ (missing : List MissingSlot) (k : Graph), k.Stays
      (missing.foldl (fun g m => g.modifyRecords m.handle (recordSlot m.port m.index)) k) s s := by
    intro missing
    induction missing with
    | nil => exact fun k => .refl k s
    | cons m rest ih => exact fun k => (k.modifyRecords_stays m.handle _ s).trans (ih _)
  have hlaid := layOutAll_stays
    (((g.missingSlots.filterMap fun r => r.getLeft?).foldl
      (fun g m => g.modifyRecords m.handle (recordSlot m.port m.index)) g))
    (distinct ((g.missingSlots.filterMap fun r => r.getLeft?).map (·.handle)))
    (s.reportAll (g.missingSlots.filterMap fun r => r.getRight?))
  exact (hrecord _ g).trans ⟨hlaid.id, hlaid.functions, hlaid.marks⟩

theorem openSlot_stays (g : Graph) (target : SlotRef) (s : Store) :
    g.Stays (g.openSlot target s).1 s (g.openSlot target s).2 := by
  rcases g.openSlot_cases target s with ⟨heq, _⟩ | ⟨k, _, _, _, _, _, heq⟩
  · rw [heq]
    exact .refl g s
  · rw [heq]
    exact (g.modifyRecords_stays k _ s).trans (layOut_stays _ k s)

theorem recordConnection_stays (g : Graph) (h : NodeHandle) (d : PortDescriptor)
    (source target : SlotRef) (s : Store) :
    g.Stays (g.recordConnection h d source target s).1 s
      (g.recordConnection h d source target s).2 := by
  unfold recordConnection
  cases d.array with
  | true => exact (g.modifyRecords_stays h _ s).trans (layOut_stays _ h s)
  | false => exact g.modifyRecords_stays h _ s

theorem connect_stays (g : Graph) (source target : SlotRef) (s : Store) :
    (g.connect source target s).2.marks = s.marks ∧
      ∀ k, (g.connect source target s).1 = .ok k → g.Stays k s (g.connect source target s).2 := by
  rcases g.connect_cases source target s with ⟨e, heq⟩ | ⟨h, x, d, hc⟩
  · rw [heq]
    exact ⟨rfl, fun _ h => by cases h⟩
  · rw [hc.connect_eq s]
    have hstays := (g.recordConnection_stays h d source target s).trans (openSlot_stays _ target _)
    refine ⟨hstays.marks, fun k hk => ?_⟩
    rw [← Except.ok.inj hk]
    exact ⟨hstays.id, hstays.functions, hstays.marks⟩

theorem removeNode_stays (g : Graph) (h : NodeHandle) (s : Store) :
    g.Stays (g.removeNode s.vars h).2 s s := by
  unfold removeNode
  cases g.nodes.remove h with
  | none => exact .refl g s
  | some r => exact ⟨rfl, rfl, rfl⟩

/-! ## Section 3: Ids -/

/-- The ids of a graph, its functions, their functions and so on. -/
def ids : Graph → List GraphId
  | ⟨n, _, functions, _⟩ => n.id :: functionIds functions
where
  /-- The ids of functions. -/
  functionIds : List (String × Graph) → List GraphId
    | [] => []
    | (_, f) :: rest => f.ids ++ functionIds rest

theorem ids_eq (g : Graph) : g.ids = g.id :: ids.functionIds g.functions := by
  obtain ⟨n, groups, functions, compiled⟩ := g
  unfold ids
  rfl

theorem functionIds_eq (functions : List (String × Graph)) :
    ids.functionIds functions = functions.flatMap (·.2.ids) := by
  induction functions with
  | nil => rfl
  | cons first rest ih =>
    unfold ids.functionIds
    rw [ih, List.flatMap_cons]

theorem mem_functionIds_iff (functions : List (String × Graph)) (id : GraphId) :
    id ∈ ids.functionIds functions ↔ ∃ e ∈ functions, id ∈ e.2.ids := by
  rw [functionIds_eq, List.mem_flatMap]

theorem Stays.ids_eq {g k : Graph} {s t : Store} (h : g.Stays k s t) : k.ids = g.ids := by
  rw [Graph.ids_eq, Graph.ids_eq, h.id, h.functions]

/-- The ids are those of the graphs within. -/
theorem mem_ids_of_within {f g : Graph} (h : f.Within g) : f.id ∈ g.ids := by
  induction h with
  | self =>
    rw [ids_eq]
    exact List.mem_cons_self
  | function g e he _ ih =>
    rw [ids_eq]
    exact List.mem_cons_of_mem _ ((mem_functionIds_iff _ _).mpr ⟨e, he, ih⟩)

/-! ### Hydrating -/

/-- New graphs get the next ids, and none is marked. -/
structure Numbers (s t : Store) (ids : List GraphId) (n : Nat) : Prop where
  ids : ids = List.range' s.graphs.size n
  marks : t.marks = s.marks ++ Array.replicate n false

theorem Numbers.size {s t : Store} {ids : List GraphId} {n : Nat} (h : Numbers s t ids n) :
    t.graphs.size = s.graphs.size + n := by
  rw [← Store.size_marks, h.marks, Array.size_append, Array.size_replicate, Store.size_marks]

theorem Numbers.append {s t u : Store} {ids ids' : List GraphId} {m n : Nat}
    (h : Numbers s t ids m) (h' : Numbers t u ids' n) : Numbers s u (ids ++ ids') (m + n) := by
  refine ⟨?_, ?_⟩
  · rw [h.ids, h'.ids, h.size, ← List.range'_append_1]
  · rw [h'.marks, h.marks, Array.append_assoc, Array.replicate_append_replicate]

theorem placeAll_numbers (registry : Registry) (data : GraphData) (s : Store) :
    Numbers s (placeAll registry data s).2 [(placeAll registry data s).1.id] 1 := by
  have hmarks : (create data.name s).2.marks = s.marks ++ Array.replicate 1 false := by
    show (s.graphs.push {}).map (·.disposed) = _
    rw [Array.map_push]
    rfl
  have hstays : (create data.name s).1.Stays (placeAll registry data s).1 (create data.name s).2
      (placeAll registry data s).2 :=
    ((addNodes_stays _ registry data.nodes _).trans (addVariables_stays _ data.vars _)).trans
      (addIncomingSlots_stays _ _)
  refine ⟨?_, hstays.marks.trans hmarks⟩
  rw [hstays.id]
  rfl

mutual

theorem ofData_numbers (registry : Registry) (data : GraphData) (s : Store) :
    ∃ n, Numbers s (ofData registry data s).2 (ofData registry data s).1.ids n := by
  obtain ⟨name, nodes, vars, groups, functions⟩ := data
  rw [ofData_eq]
  have hplaced := placeAll_numbers registry ⟨name, nodes, vars, groups, functions⟩ s
  obtain ⟨n, hfunctions⟩ := functionsOfData_numbers registry functions
    (placeAll registry ⟨name, nodes, vars, groups, functions⟩ s).2
  refine ⟨1 + n, ?_⟩
  rw [ids_eq]
  exact hplaced.append hfunctions

theorem functionsOfData_numbers (registry : Registry) (functions : List (String × GraphData))
    (s : Store) : ∃ n, Numbers s (functionsOfData registry functions s).2
      (ids.functionIds (functionsOfData registry functions s).1) n := by
  match functions with
  | [] => exact ⟨0, rfl, by simp [functionsOfData, StateT.pure, pure]⟩
  | (name, data) :: rest =>
    obtain ⟨m, hfirst⟩ := ofData_numbers registry data s
    obtain ⟨n, hrest⟩ := functionsOfData_numbers registry rest (ofData registry data s).2
    exact ⟨m + n, hfirst.append hrest⟩

end

mutual

/-- What holds of every hydrated graph holds of the functions of one. -/
theorem ofData_within (P : Graph → Prop) (registry : Registry)
    (hdata : ∀ data s, P (ofData registry data s).1) (data : GraphData) (s : Store) (f : Graph)
    (hf : f.Within (ofData registry data s).1) : P f := by
  obtain ⟨name, nodes, vars, groups, functions⟩ := data
  rcases (within_iff _ _).mp hf with rfl | ⟨e, he, hfe⟩
  · exact hdata _ s
  · rw [ofData_eq] at he
    exact functionsOfData_within P registry hdata functions _ e he f hfe

theorem functionsOfData_within (P : Graph → Prop) (registry : Registry)
    (hdata : ∀ data s, P (ofData registry data s).1) (functions : List (String × GraphData))
    (s : Store) (e : String × Graph) (he : e ∈ (functionsOfData registry functions s).1) (f : Graph)
    (hf : f.Within e.2) : P f := by
  match functions with
  | [] => cases he
  | (name, data) :: rest =>
    rcases List.mem_cons.mp he with rfl | he
    · exact ofData_within P registry hdata data s f hf
    · exact functionsOfData_within P registry hdata rest _ e he f hf

end

end Graph
end FlowGraph
