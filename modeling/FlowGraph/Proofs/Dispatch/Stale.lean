import FlowGraph.Proofs.Dispatch.Trace
import FlowGraph.Proofs.Graph.Happening

/-! # Stale graphs do not run

    A host keeps graphs in variables.  It hydrates, edits, compiles and disposes them, and
    moves one into another as a function; the history tells what happened to which graph
    (`Host`).

    A graph can be run exactly if the latest that happened to it is that it was compiled
    (`Host.Invariant`).  Every operation preserves this (`Host.apply_invariant`).  So a graph
    to which anything else happened since is refused, by a dispatch as well as by a call,
    before anything is done (`Host.stale_refused`). -/

namespace FlowGraph

namespace Graph

/-! ## Section 1: Edits of one graph -/

/-- An edit of the structure of a graph. -/
inductive Edit where
  | addNode (registry : Registry) (data : NodeData)
  | addLive (guid : String) (descriptor : NodeDescriptor) (behavior : Behavior)
  | removeNode (h : NodeHandle)
  | connect (source target : SlotRef)
  | clearPaths

namespace Edit

/-- The operation that makes the edit. -/
def operation : Edit → Operation
  | .addNode registry data => .addNode registry data
  | .addLive guid descriptor behavior => .addLive guid descriptor behavior
  | .removeNode h => .removeNode h
  | .connect source target => .connect source target
  | .clearPaths => .clearPaths

/-- Whether the edit is made.  There may be no such node, or no such slots. -/
def isMade (e : Edit) (st : State) : Bool :=
  match e with
  | .removeNode h => (st.1.nodes.remove h).isSome
  | .connect source target => (st.1.connect source target st.2).1.isOk
  | _ => true

theorem stays (e : Edit) (st : State) :
    st.1.Stays (e.operation.apply st).1 st.2 (e.operation.apply st).2 := by
  obtain ⟨g, s⟩ := st
  cases e with
  | addNode registry data => exact g.addNode_stays registry data s
  | addLive guid descriptor behavior => exact g.addLive_stays guid descriptor behavior s
  | removeNode h => exact g.removeNode_stays h s
  | connect source target =>
    obtain ⟨hmarks, hstays⟩ := g.connect_stays source target s
    unfold operation Operation.apply
    dsimp only
    split
    · rename_i k t heq
      have := hstays k (by rw [heq])
      rwa [heq] at this
    · rename_i e t heq
      rw [heq] at hmarks
      exact ⟨rfl, rfl, hmarks⟩
  | clearPaths => exact ⟨rfl, rfl, rfl⟩

/-- After an edit the graph has to be compiled again. -/
theorem compiled_of_isMade (e : Edit) (st : State) (h : e.isMade st = true) :
    (e.operation.apply st).1.compiled = false := by
  obtain ⟨g, s⟩ := st
  cases e with
  | addNode registry data => exact (insert_fresh _ _ _).compiled
  | addLive guid descriptor behavior => exact (insert_fresh _ _ _).compiled
  | removeNode h' =>
    obtain ⟨r, hr⟩ := Option.isSome_iff_exists.mp h
    show (g.removeNode s.vars h').2.compiled = false
    unfold Graph.removeNode
    rw [hr]
    rfl
  | connect source target =>
    unfold isMade at h
    unfold operation Operation.apply
    dsimp only at h ⊢
    split
    · rename_i k t heq
      obtain ⟨l, _, rfl⟩ := g.connect_invalidates source target s k (by rw [heq])
      rfl
    · rename_i e t heq
      rw [heq] at h
      cases h
  | clearPaths => rfl

/-- An edit that is refused changes nothing. -/
theorem unchanged (e : Edit) (st : State) (h : e.isMade st = false) :
    (e.operation.apply st).1 = st.1 := by
  obtain ⟨g, s⟩ := st
  cases e with
  | addNode registry data => cases h
  | addLive guid descriptor behavior => cases h
  | removeNode h' =>
    show (g.removeNode s.vars h').2 = g
    unfold Graph.removeNode
    rw [Option.isSome_eq_false_iff.mp h |> Option.isNone_iff_eq_none.mp]
  | connect source target =>
    unfold isMade at h
    unfold operation Operation.apply
    dsimp only at h ⊢
    split
    · rename_i k t heq
      rw [heq] at h
      cases h
    · rfl
  | clearPaths => cases h

end Edit

/-- The function at a path of names: a function of a function and so on. -/
def at? : Graph → List String → Option Graph
  | g, [] => some g
  | g, name :: rest => (g.function? name).bind (·.at? rest)

theorem within_of_at? (g f : Graph) (path : List String) (h : g.at? path = some f) :
    f.Within g := by
  induction path generalizing g with
  | nil =>
    cases h
    exact .self
  | cons name rest ih =>
    obtain ⟨k, hk, hf⟩ := Option.bind_eq_some_iff.mp h
    obtain ⟨e, he, rfl⟩ := Option.map_eq_some_iff.mp hk
    exact .function g e (List.mem_of_find?_eq_some he) (ih e.2 hf)

/-- At a path that is not empty there is a function of the graph, or one within a function. -/
theorem among_of_at? (g f : Graph) (path : List String) (hpath : path ≠ [])
    (h : g.at? path = some f) : Among g.functions f := by
  cases path with
  | nil => exact absurd rfl hpath
  | cons name rest =>
    obtain ⟨k, hk, hf⟩ := Option.bind_eq_some_iff.mp h
    obtain ⟨e, he, rfl⟩ := Option.map_eq_some_iff.mp hk
    exact ⟨e, List.mem_of_find?_eq_some he, within_of_at? e.2 f rest hf⟩

theorem ids_subset_of_within {f g : Graph} (h : f.Within g) : f.ids ⊆ g.ids := by
  induction h with
  | self => exact fun _ hid => hid
  | function g e he _ ih =>
    intro id hid
    rw [ids_eq g]
    exact List.mem_cons_of_mem _ ((mem_functionIds_iff _ _).mpr ⟨e, he, ih hid⟩)

end Graph

/-! ## Section 2: Hosts -/

/-- The graphs of a host, by the numbers of its variables, the store, and what happened to
    graphs, the oldest first. -/
structure Host where
  graphs : Nat → Option Graph := fun _ => none
  store : Store
  history : List Happening := []

namespace Host

/-- What a host can do. -/
inductive Operation where
  | hydrate (i : Nat) (registry : Registry) (data : GraphData)
  | edit (i : Nat) (e : Graph.Edit)
  /-- Move the second graph into the first. -/
  | addFunction (i : Nat) (name : String) (j : Nat)
  | compile (i : Nat) (conversions : Conversions)
  /-- Dispose a graph, or the function at a path in it. -/
  | dispose (i : Nat) (path : List String)
  /-- Work on the store that marks no graph, such as that of dispatches. -/
  | elsewhere (work : Store → Store) (keeps : ∀ s, (work s).marks = s.marks)

/-- Do an operation; nothing if a variable is empty. -/
def Operation.apply (op : Operation) (w : Host) : Host :=
  match op with
  | .hydrate i registry data =>
    let made := Graph.ofData registry data w.store
    { w with graphs := Function.update w.graphs i (some made.1), store := made.2 }
  | .edit i e =>
    match w.graphs i with
    | none => w
    | some g =>
      let st := e.operation.apply (g, w.store)
      { graphs := Function.update w.graphs i (some st.1)
        store := st.2
        history := w.history ++ if e.isMade (g, w.store) then [⟨g.id, .edited⟩] else [] }
  | .addFunction i name j =>
    match w.graphs i, w.graphs j with
    | some g, some f =>
      if i = j then w
      else
        { w with
          graphs := Function.update (Function.update w.graphs j none) i (some (g.addFunction name f))
          history := w.history ++ [⟨g.id, .edited⟩] }
    | _, _ => w
  | .compile i conversions =>
    match w.graphs i with
    | none => w
    | some g =>
      let c := g.compile conversions w.store
      { graphs := Function.update w.graphs i (some c.1.1)
        store := c.2
        history := w.history ++ g.compileHappenings conversions w.store }
  | .dispose i path =>
    match (w.graphs i).bind (·.at? path) with
    | none => w
    | some f =>
      { w with
        store := (f.dispose w.store).2
        history := w.history ++ f.disposeHappenings w.store }
  | .elsewhere work _ => { w with store := work w.store }

/-- Do operations in order. -/
def run (ops : List Operation) (w : Host) : Host := ops.foldl (fun w op => op.apply w) w

/-- A graph is replaced by what compiling makes of it, if there is one. -/
theorem apply_compile (w : Host) (i : Nat) (conversions : Conversions) :
    (w.graphs i = none ∧ (Operation.compile i conversions).apply w = w) ∨
      ∃ g, w.graphs i = some g ∧ (Operation.compile i conversions).apply w =
        ⟨Function.update w.graphs i (some (g.compile conversions w.store).1.1),
          (g.compile conversions w.store).2,
          w.history ++ g.compileHappenings conversions w.store⟩ := by
  unfold Operation.apply
  cases hi : w.graphs i with
  | none => exact .inl ⟨rfl, by simp only [hi]⟩
  | some g => exact .inr ⟨g, rfl, by simp only [hi]⟩

/-- The graph at the path is disposed, if there is one. -/
theorem apply_dispose (w : Host) (i : Nat) (path : List String) :
    ((w.graphs i).bind (·.at? path) = none ∧ (Operation.dispose i path).apply w = w) ∨
      ∃ g f, w.graphs i = some g ∧ g.at? path = some f ∧ (Operation.dispose i path).apply w =
        ⟨w.graphs, (f.dispose w.store).2, w.history ++ f.disposeHappenings w.store⟩ := by
  unfold Operation.apply
  cases hf : (w.graphs i).bind (·.at? path) with
  | none => exact .inl ⟨rfl, by simp only [hf]⟩
  | some f =>
    obtain ⟨g, hi, hat⟩ := Option.bind_eq_some_iff.mp hf
    exact .inr ⟨g, f, hi, hat, by simp only [hf]⟩

/-! ## Section 3: The invariant -/

/-- No two graphs share an id; a graph can be run if the latest that happened to it is that it
    was compiled; and once a graph is compiled so are its functions. -/
structure Invariant (w : Host) : Prop where
  distinct : ∀ i g, w.graphs i = some g → g.ids.Nodup
  apart : ∀ i j g k, i ≠ j → w.graphs i = some g → w.graphs j = some k → ∀ id ∈ g.ids, id ∉ k.ids
  room : ∀ i g, w.graphs i = some g → ∀ id ∈ g.ids, id < w.store.graphs.size
  past : ∀ e ∈ w.history, e.graph < w.store.graphs.size
  current : ∀ i g, w.graphs i = some g → ∀ f : Graph, f.Within g →
    (f.isRunnable w.store = true ↔ latest w.history f.id = some .compiled)
  settled : ∀ i g, w.graphs i = some g → g.Settled

theorem invariant_empty (s : Store) : Invariant { store := s } where
  distinct := fun _ _ h => by cases h
  apart := fun _ _ _ _ _ h => by cases h
  room := fun _ _ h => by cases h
  past := List.forall_mem_nil _
  current := fun _ _ h => by cases h
  settled := fun _ _ h => by cases h

/-- The graph of a variable is the new one, or one of another variable. -/
theorem graphs_update (w : Host) (i : Nat) (k : Graph) (j : Nat) (l : Graph)
    (h : Function.update w.graphs i (some k) j = some l) :
    (j = i ∧ l = k) ∨ (j ≠ i ∧ w.graphs j = some l) := by
  by_cases hj : j = i
  · subst hj
    rw [Function.update_self] at h
    exact .inl ⟨rfl, (Option.some.inj h).symm⟩
  · rw [Function.update_of_ne hj] at h
    exact .inr ⟨hj, h⟩

theorem isRunnable_iff (f : Graph) (s : Store) :
    f.isRunnable s = true ↔ f.compiled = true ∧ s.isDisposed f.id = false := by
  unfold Graph.isRunnable
  simp

theorem isRunnable_congr (f : Graph) {s t : Store} (h : t.isDisposed f.id = s.isDisposed f.id) :
    f.isRunnable t = f.isRunnable s := by
  unfold Graph.isRunnable
  rw [h]

namespace Invariant

variable {w : Host}

/-- What happens to other graphs does not matter. -/
theorem current_of_apart (hw : w.Invariant) {i : Nat} {g f : Graph} (hi : w.graphs i = some g)
    (hf : f.Within g) {t : Store} {new : List Happening} (hnew : ∀ e ∈ new, e.graph ≠ f.id)
    (ht : t.isDisposed f.id = w.store.isDisposed f.id) :
    f.isRunnable t = true ↔ latest (w.history ++ new) f.id = some .compiled := by
  rw [isRunnable_congr f ht, latest_append, latest_eq_none new f.id hnew, Option.none_or]
  exact hw.current i g hi f hf

/-- A graph is put into a variable. -/
theorem put (hw : w.Invariant) {i : Nat} {k : Graph} {t : Store} {new : List Happening}
    (hdistinct : k.ids.Nodup)
    (hapart : ∀ j l, j ≠ i → w.graphs j = some l → ∀ id ∈ l.ids, id ∉ k.ids)
    (hroom : ∀ id ∈ k.ids, id < t.graphs.size) (hsize : w.store.graphs.size ≤ t.graphs.size)
    (hnamed : ∀ e ∈ new, e.graph ∈ k.ids)
    (hothers : ∀ id < w.store.graphs.size, id ∉ k.ids → t.isDisposed id = w.store.isDisposed id)
    (hcurrent : ∀ f : Graph, f.Within k →
      (f.isRunnable t = true ↔ latest (w.history ++ new) f.id = some .compiled))
    (hsettled : k.Settled) :
    Invariant ⟨Function.update w.graphs i (some k), t, w.history ++ new⟩ := by
  have hcases := graphs_update w i k
  refine ⟨fun j l h => ?_, fun j j' l l' hne h h' => ?_, fun j l h => ?_, ?_, fun j l h f hf => ?_,
    fun j l h => ?_⟩
  · rcases hcases j l h with ⟨_, rfl⟩ | ⟨_, h⟩
    · exact hdistinct
    · exact hw.distinct j l h
  · rcases hcases j l h with ⟨rfl, rfl⟩ | ⟨hj, hl⟩
    · rcases hcases j' l' h' with ⟨rfl, _⟩ | ⟨hj', hl'⟩
      · exact absurd rfl hne
      · exact fun id hid hid' => hapart j' l' hj' hl' id hid' hid
    · rcases hcases j' l' h' with ⟨rfl, rfl⟩ | ⟨_, hl'⟩
      · exact hapart j l hj hl
      · exact hw.apart j j' l l' hne hl hl'
  · rcases hcases j l h with ⟨_, rfl⟩ | ⟨_, h⟩
    · exact hroom
    · exact fun id hid => (hw.room j l h id hid).trans_le hsize
  · exact List.forall_mem_append.mpr ⟨fun e he => (hw.past e he).trans_le hsize,
      fun e he => hroom _ (hnamed e he)⟩
  · rcases hcases j l h with ⟨_, rfl⟩ | ⟨hj, h⟩
    · exact hcurrent f hf
    · have hid := Graph.mem_ids_of_within hf
      have hout : f.id ∉ k.ids := hapart j l hj h _ hid
      exact hw.current_of_apart h hf (fun e he heq => hout (heq ▸ hnamed e he))
        (hothers _ (hw.room j l h _ hid) hout)
  · rcases hcases j l h with ⟨_, rfl⟩ | ⟨_, h⟩
    · exact hsettled
    · exact hw.settled j l h

/-- A graph becomes another one of the same ids. -/
theorem replace (hw : w.Invariant) {i : Nat} {g k : Graph} (hi : w.graphs i = some g) {t : Store}
    {new : List Happening} (hids : k.ids = g.ids) (hsize : t.graphs.size = w.store.graphs.size)
    (hnamed : ∀ e ∈ new, e.graph ∈ g.ids)
    (hothers : ∀ id, id ∉ g.ids → t.isDisposed id = w.store.isDisposed id)
    (hcurrent : ∀ f : Graph, f.Within k →
      (f.isRunnable t = true ↔ latest (w.history ++ new) f.id = some .compiled))
    (hsettled : k.Settled) :
    Invariant ⟨Function.update w.graphs i (some k), t, w.history ++ new⟩ := by
  rw [← hids] at hnamed hothers
  refine hw.put (hids ▸ hw.distinct i g hi) (fun j l hj hl => ?_) ?_ hsize.ge hnamed
    (fun id _ => hothers id) hcurrent hsettled
  · rw [hids]
    exact hw.apart j i l g hj hl hi
  · rw [hids, hsize]
    exact hw.room i g hi

/-- A variable is emptied. -/
theorem clear (hw : w.Invariant) (j : Nat) :
    Invariant { w with graphs := Function.update w.graphs j none } := by
  have hkept : ∀ i g, Function.update w.graphs j none i = some g → w.graphs i = some g := by
    intro i g h
    by_cases hi : i = j
    · subst hi
      rw [Function.update_self] at h
      cases h
    · rwa [Function.update_of_ne hi] at h
  exact ⟨fun i g h => hw.distinct i g (hkept i g h),
    fun i i' g k hne h h' => hw.apart i i' g k hne (hkept i g h) (hkept i' k h'),
    fun i g h => hw.room i g (hkept i g h), hw.past,
    fun i g h => hw.current i g (hkept i g h), fun i g h => hw.settled i g (hkept i g h)⟩

/-! ## Section 4: Operations -/

theorem hydrate (hw : w.Invariant) (i : Nat) (registry : Registry) (data : GraphData) :
    ((Operation.hydrate i registry data).apply w).Invariant := by
  obtain ⟨n, hnumbers⟩ := Graph.ofData_numbers registry data w.store
  -- the ids of the new graphs are those that were not in use
  have hnew : ∀ id ∈ (Graph.ofData registry data w.store).1.ids,
      w.store.graphs.size ≤ id ∧ id < w.store.graphs.size + n := by
    rw [hnumbers.ids]
    exact fun id hid => List.mem_range'_1.mp hid
  have hfresh : ∀ f : Graph, f.Within (Graph.ofData registry data w.store).1 →
      f.compiled = false :=
    Graph.ofData_within (·.compiled = false) registry
      (fun data s => (Graph.ofData_fresh registry data s).compiled) data w.store
  have hput : Invariant ⟨Function.update w.graphs i (some (Graph.ofData registry data w.store).1),
      (Graph.ofData registry data w.store).2, w.history ++ []⟩ := hw.put
    (by rw [hnumbers.ids]; exact List.nodup_range')
    (fun j l _ hl id hid hid' => absurd (hnew id hid').1 (hw.room j l hl id hid).not_ge)
    (by rw [hnumbers.size]; exact fun id hid => (hnew id hid).2)
    (by rw [hnumbers.size]; exact Nat.le_add_right _ _) (List.forall_mem_nil _)
    (fun id hid _ => ?_) (fun f hf => ?_)
    (fun f hf hcompiled => by rw [hfresh f hf] at hcompiled; cases hcompiled)
  · rw [List.append_nil] at hput
    exact hput
  · rw [Store.isDisposed_eq_marks, Store.isDisposed_eq_marks, hnumbers.marks,
      Array.getElem?_append_left (by rwa [Store.size_marks])]
  · -- nothing happened to a new graph
    have hnone : latest (w.history ++ []) f.id = none := by
      rw [List.append_nil]
      exact latest_eq_none _ _ fun e he heq => absurd (hnew _ (Graph.mem_ids_of_within hf)).1
        (heq ▸ hw.past e he).not_ge
    rw [isRunnable_iff, hfresh f hf, hnone]
    simp

theorem edit (hw : w.Invariant) (i : Nat) (e : Graph.Edit) :
    ((Operation.edit i e).apply w).Invariant := by
  unfold Operation.apply
  cases hi : w.graphs i with
  | none => simpa only [hi] using hw
  | some g =>
    simp only [hi]
    obtain ⟨k, t, hst⟩ : ∃ k t, e.operation.apply (g, w.store) = (k, t) := ⟨_, _, rfl⟩
    have hstays := e.stays (g, w.store)
    have hmade := e.compiled_of_isMade (g, w.store)
    have hsame := e.unchanged (g, w.store)
    simp only [hst] at hstays hmade hsame ⊢
    have hdistinct := hw.distinct i g hi
    rw [Graph.ids_eq, List.nodup_cons] at hdistinct
    refine hw.replace hi hstays.ids_eq (Store.size_congr hstays.marks) ?_
      (fun id _ => Store.isDisposed_congr hstays.marks id) (fun f hf => ?_) ?_
    · cases e.isMade (g, w.store) with
      | false => exact List.forall_mem_nil _
      | true =>
        exact List.forall_mem_singleton.mpr (Graph.mem_ids_of_within .self)
    · cases hdo : e.isMade (g, w.store) with
      | false =>
        obtain rfl : k = g := hsame hdo
        exact hw.current_of_apart hi hf (List.forall_mem_nil _)
          (Store.isDisposed_congr hstays.marks _)
      | true =>
        rcases (Graph.within_iff f k).mp hf with rfl | ⟨x, hx, hfx⟩
        · -- the graph itself was edited
          rw [isRunnable_iff, hmade hdo, latest_append, hstays.id]
          simp [latest]
        · rw [hstays.functions] at hx
          have hid : g.id ≠ f.id := fun heq =>
            hdistinct.1 ((Graph.mem_functionIds_iff _ _).mpr
              ⟨x, hx, heq ▸ Graph.mem_ids_of_within hfx⟩)
          exact hw.current_of_apart hi (.function g x hx hfx) (List.forall_mem_singleton.mpr hid)
            (Store.isDisposed_congr hstays.marks _)
    · cases hdo : e.isMade (g, w.store) with
      | false =>
        obtain rfl : k = g := hsame hdo
        exact hw.settled i k hi
      | true =>
        refine Graph.settled_of_functions (hmade hdo) fun x hx => ?_
        rw [hstays.functions] at hx
        exact (hw.settled i g hi).within (.function g x hx .self)

/-- The ids of a graph to which a function is added. -/
theorem ids_addFunction (g : Graph) (name : String) (f : Graph) :
    ∃ kept, kept.Sublist g.ids ∧ g.id ∈ kept ∧ (g.addFunction name f).ids = kept ++ f.ids := by
  refine ⟨g.id :: Graph.ids.functionIds (g.functions.filter (·.1 ≠ name)), ?_,
    List.mem_cons_self, ?_⟩
  · rw [Graph.ids_eq g, Graph.functionIds_eq, Graph.functionIds_eq]
    exact (List.filter_sublist.flatMap _).cons_cons g.id
  · rw [Graph.ids_eq]
    show g.id :: Graph.ids.functionIds (g.functions.filter (·.1 ≠ name) ++ [(name, f)]) = _
    rw [Graph.functionIds_eq, List.flatMap_append, List.flatMap_singleton, ← Graph.functionIds_eq,
      List.cons_append]

theorem addFunction (hw : w.Invariant) (i : Nat) (name : String) (j : Nat) :
    ((Operation.addFunction i name j).apply w).Invariant := by
  unfold Operation.apply
  cases hi : w.graphs i with
  | none => simpa only [hi] using hw
  | some g =>
    cases hj : w.graphs j with
    | none => simpa only [hi, hj] using hw
    | some f =>
      simp only [hi, hj]
      split
      · exact hw
      · rename_i hne
        obtain ⟨kept, hkept, hown, hids⟩ := ids_addFunction g name f
        have hapart : ∀ id ∈ g.ids, id ∉ f.ids := hw.apart i j g f hne hi hj
        refine (hw.clear j).put (k := g.addFunction name f) (t := w.store) ?_
          (fun j' l hj' hl id hid => ?_) ?_ le_rfl ?_ (fun _ _ _ => rfl) (fun x hx => ?_) ?_
        · rw [hids]
          exact List.nodup_append.mpr ⟨(hw.distinct i g hi).sublist hkept, hw.distinct j f hj,
            fun a ha b hb hab => hapart a (hkept.subset ha) (hab ▸ hb)⟩
        · -- a third graph has no id of either
          change Function.update w.graphs j none j' = some l at hl
          rw [hids, List.mem_append, not_or]
          have hjj : j' ≠ j := by
            rintro rfl
            rw [Function.update_self] at hl
            cases hl
          rw [Function.update_of_ne hjj] at hl
          exact ⟨fun hin => hw.apart j' i l g hj' hl hi id hid (hkept.subset hin),
            hw.apart j' j l f hjj hl hj id hid⟩
        · rw [hids]
          exact List.forall_mem_append.mpr ⟨fun id hid => hw.room i g hi id (hkept.subset hid),
            hw.room j f hj⟩
        · rw [hids]
          exact List.forall_mem_singleton.mpr (List.mem_append_left _ hown)
        · rcases (Graph.within_iff x _).mp hx with rfl | ⟨e, he, hxe⟩
          · rw [isRunnable_iff, latest_append]
            simp [latest, Graph.addFunction]
          · rcases List.mem_append.mp he with he | he
            · -- a function that was there
              have he' := (List.mem_filter.mp he).1
              have hdistinct := hw.distinct i g hi
              rw [Graph.ids_eq, List.nodup_cons] at hdistinct
              have hid : g.id ≠ x.id := fun heq =>
                hdistinct.1 ((Graph.mem_functionIds_iff _ _).mpr
                  ⟨e, he', heq ▸ Graph.mem_ids_of_within hxe⟩)
              exact hw.current_of_apart hi (.function g e he' hxe)
                (List.forall_mem_singleton.mpr hid) rfl
            · obtain rfl := List.mem_singleton.mp he
              have hid : g.id ≠ x.id := fun heq =>
                hapart g.id (Graph.mem_ids_of_within .self) (heq ▸ Graph.mem_ids_of_within hxe)
              exact hw.current_of_apart hj hxe (List.forall_mem_singleton.mpr hid) rfl
        · refine Graph.settled_of_functions rfl fun e he => ?_
          rcases List.mem_append.mp he with he | he
          · exact (hw.settled i g hi).within (.function g e (List.mem_filter.mp he).1 .self)
          · obtain rfl := List.mem_singleton.mp he
            exact hw.settled j f hj

theorem compile (hw : w.Invariant) (i : Nat) (conversions : Conversions) :
    ((Operation.compile i conversions).apply w).Invariant := by
  rcases w.apply_compile i conversions with ⟨_, heq⟩ | ⟨g, hi, heq⟩ <;> rw [heq]
  · exact hw
  · have hdistinct := hw.distinct i g hi
    have hcompiles := g.compile_compiles conversions w.store
    refine hw.replace hi hcompiles.ids hcompiles.unmarks.size hcompiles.named (fun id hid => ?_)
      (fun f hf => ?_) (g.compile_settled conversions w.store (hw.settled i g hi)).1
    · rw [Bool.eq_iff_iff, hcompiles.unmarks.disposed]
      exact and_iff_left fun e he heq => hid (heq ▸ hcompiles.named e he)
    · have hnodup := hcompiles.nodup hdistinct
      -- a graph is listed once, so that is the latest that happened to it
      have hlisted : ∀ change, ⟨f.id, change⟩ ∈ g.compileHappenings conversions w.store →
          latest (w.history ++ g.compileHappenings conversions w.store) f.id = some change := by
        intro change hin
        rw [latest_append, latest_of_nodup _ hnodup ⟨f.id, change⟩ hin, Option.some_or]
      rcases hcompiles.told hdistinct f hf with ⟨hin, hcompiled⟩ | ⟨hin, hcompiled⟩ | ⟨hout, hold⟩
      · have hmark : (g.compile conversions w.store).2.isDisposed f.id = false := by
          rw [Bool.eq_false_iff, Ne, hcompiles.unmarks.disposed]
          exact fun h => h.2 _ hin rfl
        rw [isRunnable_iff, hlisted _ hin, hcompiled, hmark]
        simp
      · rw [isRunnable_iff, hlisted _ hin, hcompiled]
        simp
      · refine hw.current_of_apart hi hold hout ?_
        rw [Bool.eq_iff_iff, hcompiles.unmarks.disposed]
        exact and_iff_left hout

theorem dispose (hw : w.Invariant) (i : Nat) (path : List String) :
    ((Operation.dispose i path).apply w).Invariant := by
  rcases w.apply_dispose i path with ⟨_, heq⟩ | ⟨g, f, hi, hat, heq⟩ <;> rw [heq]
  · exact hw
  · have hsubset := Graph.ids_subset_of_within (Graph.within_of_at? g f path hat)
    obtain ⟨hmarks, hnamed⟩ := f.dispose_marks w.store
      fun id hid => hw.room i g hi id (hsubset hid)
    have hsize := hmarks.size
    refine ⟨hw.distinct, hw.apart, fun j k hj => ?_, ?_, fun j k hj x hx => ?_, hw.settled⟩
    · show ∀ id ∈ k.ids, id < (f.dispose w.store).2.graphs.size
      rw [hsize]
      exact hw.room j k hj
    · show ∀ e ∈ w.history ++ _, e.graph < (f.dispose w.store).2.graphs.size
      rw [hsize]
      exact List.forall_mem_append.mpr
        ⟨hw.past, fun e he => hw.room i g hi _ (hsubset (hnamed e he))⟩
    · by_cases hin : ∃ e ∈ f.disposeHappenings w.store, e.graph = x.id
      · obtain ⟨e, he, hid⟩ := hin
        obtain ⟨e', he', _, hlatest⟩ := latest_of_mem _ x.id e he hid
        rw [isRunnable_iff, (hmarks.disposed x.id).mpr (.inr ⟨e, he, hid⟩), latest_append, hlatest,
          Option.some_or, hmarks.change e' he']
        simp
      · have hout : ∀ e ∈ f.disposeHappenings w.store, e.graph ≠ x.id :=
          fun e he heq => hin ⟨e, he, heq⟩
        refine hw.current_of_apart hj hx hout ?_
        rw [Bool.eq_iff_iff, hmarks.disposed]
        exact or_iff_left hin

theorem elsewhere (hw : w.Invariant) (work : Store → Store)
    (keeps : ∀ s, (work s).marks = s.marks) :
    ((Operation.elsewhere work keeps).apply w).Invariant := by
  have hsize := Store.size_congr (keeps w.store)
  refine ⟨hw.distinct, hw.apart, fun i g hi => ?_, ?_, fun i g hi f hf => ?_, hw.settled⟩
  · show ∀ id ∈ g.ids, id < (work w.store).graphs.size
    rw [hsize]
    exact hw.room i g hi
  · show ∀ e ∈ w.history, e.graph < (work w.store).graphs.size
    rw [hsize]
    exact hw.past
  · show f.isRunnable (work w.store) = true ↔ _
    rw [isRunnable_congr f (Store.isDisposed_congr (keeps w.store) f.id)]
    exact hw.current i g hi f hf

end Invariant

theorem apply_invariant (op : Operation) (w : Host) (hw : w.Invariant) :
    (op.apply w).Invariant := by
  cases op with
  | hydrate i registry data => exact hw.hydrate i registry data
  | edit i e => exact hw.edit i e
  | addFunction i name j => exact hw.addFunction i name j
  | compile i conversions => exact hw.compile i conversions
  | dispose i path => exact hw.dispose i path
  | elsewhere work keeps => exact hw.elsewhere work keeps

theorem run_invariant (ops : List Operation) (w : Host) (hw : w.Invariant) :
    (run ops w).Invariant := by
  induction ops generalizing w with
  | nil => exact hw
  | cons op rest ih => exact ih (op.apply w) (apply_invariant op w hw)

/-! ## Section 5: Running -/

/-- A dispatch of a graph that cannot be run is refused, and nothing is done. -/
theorem start_refused (fuel : Nat) (engine : Engine) (f : Graph) (r : DispatchRequest) (s : Store)
    (h : f.isRunnable s = false) :
    Dispatch.start fuel engine f r s = .done (.error (.notCompiled f.name)) { store := s } := by
  unfold Dispatch.start
  rw [h]
  rfl

/-- A call of a graph that cannot be run is refused, and nothing is done. -/
theorem call_refused (chain : Chain) (site : Site) (name : String) (arguments : List Value)
    (f : Graph) (st : DispatchState) (hf : site.function? name = some f)
    (h : f.isRunnable st.store = false) :
    site.call chain name arguments st = .done (.error (.notCompiled f.name)) st := by
  have hcallee : site.callee name st.store = .error (.notCompiled f.name) := by
    unfold Site.callee
    rw [hf]
    simp [h]
  show (Exec.ofResult (site.callee name st.store) >>= _ : Exec Value) st = _
  rw [hcallee]
  rfl

/-- **Main theorem: stale graphs do not run.**  Whatever a host does with its graphs, each
    graph of it, and each function of one at any depth, can be run exactly if the latest that
    happened to it is that it was compiled.  If anything else happened since, a dispatch of it
    is refused, and so is each call of it, with nothing done.  And the functions of a
    compiled graph are compiled, at all depths. -/
theorem stale_refused (s : Store) (ops : List Operation) :
    let w := run ops { store := s }
    ∀ i g, w.graphs i = some g → ∀ f : Graph, f.Within g →
      (f.isRunnable w.store = true ↔ latest w.history f.id = some .compiled) ∧
      (latest w.history f.id ≠ some .compiled →
        (∀ fuel engine r, Dispatch.start fuel engine f r w.store
          = .done (.error (.notCompiled f.name)) { store := w.store }) ∧
        ∀ (chain : Chain) (site : Site) name (st : DispatchState),
          site.function? name = some f → st.store.marks = w.store.marks →
            site.execute chain (.invokeFunction name) st
              = .done (.error (.notCompiled f.name)) st ∧
            ∀ arguments, site.call chain name arguments st
              = .done (.error (.notCompiled f.name)) st) ∧
      (f.compiled = true → ∀ k : Graph, k.Within f → k.compiled = true) := by
  intro w i g hi f hf
  have hw : w.Invariant := run_invariant ops _ (invariant_empty s)
  have hcurrent := hw.current i g hi f hf
  refine ⟨hcurrent, fun hstale => ?_, hw.settled i g hi f hf⟩
  have hrefused : f.isRunnable w.store = false := by
    rw [Bool.eq_false_iff]
    exact mt hcurrent.mp hstale
  refine ⟨fun fuel engine r => start_refused fuel engine f r w.store hrefused, ?_⟩
  intro chain site name st hsite hmarks
  have hcall := fun arguments => call_refused chain site name arguments f st hsite
    ((isRunnable_congr f (Store.isDisposed_congr hmarks f.id)).trans hrefused)
  refine ⟨?_, hcall⟩
  -- the node reads its arguments and then calls
  show (site.call chain name (site.inputs "args" st.store) st).bind _ = _
  rw [hcall]
  rfl

/-- A compiled greeting of which the function was disposed. -/
def silenced : Host :=
  run [.hydrate 0 Registry.builtin Dispatch.greeting, .compile 0 .standard,
    .dispose 0 ["answer"]] { store := default }

/-- The greeting can still be run, but its function is refused, also where the greeting calls
    it. -/
theorem stale_refused_silenced :
    let s := silenced.store
    ∃ g f, silenced.graphs 0 = some g ∧ g.at? ["answer"] = some f ∧
      g.isRunnable s = true ∧ f.compiled = true ∧ latest silenced.history f.id = some .disposed ∧
      Dispatch.start 10 {} f { entry := .event "answer" } s
        = .done (.error (.notCompiled "answering")) { store := s } ∧
      ∀ chain h, (Site.mk (Dispatch.frameOf {} g { entry := .event "go" } s) h).execute chain
          (.invokeFunction "answer") { store := s }
        = .done (.error (.notCompiled "answering")) { store := s } := by
  obtain ⟨g, hg⟩ : ∃ g, silenced.graphs 0 = some g :=
    Option.isSome_iff_exists.mp (by decide +kernel)
  obtain ⟨f, hboth⟩ : ∃ f, (silenced.graphs 0).bind (·.at? ["answer"]) = some f :=
    Option.isSome_iff_exists.mp (by decide +kernel)
  have hlatest : ((silenced.graphs 0).map fun g => latest silenced.history g.id)
      = some (some .compiled) := by decide +kernel
  have hstale : (((silenced.graphs 0).bind (·.at? ["answer"])).map fun f =>
      (latest silenced.history f.id, f.compiled, f.name))
      = some (some .disposed, true, "answering") := by decide +kernel
  rw [hboth] at hstale
  rw [hg] at hlatest hboth
  have hf : g.at? ["answer"] = some f := hboth
  simp only [Option.map_some, Option.some.injEq, Prod.mk.injEq] at hlatest hstale
  obtain ⟨hdisposed, hcompiled, hname⟩ := hstale
  have hhost := stale_refused default [.hydrate 0 Registry.builtin Dispatch.greeting,
    .compile 0 .standard, .dispose 0 ["answer"]]
  rw [← silenced] at hhost
  generalize silenced = w at *
  obtain ⟨_, hstopped, _⟩ := hhost 0 g hg f (g.within_of_at? f _ hf)
  obtain ⟨hrefused, hcalls⟩ := hstopped (by rw [hdisposed]; decide)
  rw [hname] at hrefused hcalls
  refine ⟨g, f, hg, hf, (hhost 0 g hg g .self).1.mpr hlatest, hcompiled, hdisposed, hrefused 10 {} _, ?_⟩
  intro chain h
  refine (hcalls chain _ "answer" { store := w.store } ?_ rfl).1
  -- the greeting has the function itself
  obtain ⟨k, hk, hsame⟩ := Option.bind_eq_some_iff.mp hf
  obtain rfl : k = f := Option.some.inj hsame
  unfold Site.function?
  show (g.function? "answer").or _ = _
  rw [hk, Option.some_or]

end Host
end FlowGraph
