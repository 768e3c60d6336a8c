import FlowGraph.Proofs.Dispatch.Stale
import FlowGraph.Proofs.Graph.Rebinding

/-! # Hosts and the variables of their graphs

    The graphs of a host own different variables (`Host.Wired`).  So what a host does with
    other graphs does not change the bindings of a graph's own variables, and variables that
    are joined stay so (`Host.run_steady`).

    A graph that can be run was compiled, and since then it was neither hydrated, compiled
    nor disposed (`Host.exists_last_compile`).  If the table of globals was clear when it was
    compiled, its variables are joined to their sources (`Host.compile_joined`). -/

namespace FlowGraph

namespace Host

/-! ## Section 1: Operations -/

/-- The host hydrates, compiles and disposes graphs, and does other work that leaves chains of
    bindings open and may add variables. -/
def Operation.Plain : Operation → Prop
  | .hydrate _ _ _ => True
  | .edit _ _ => False
  | .addFunction _ _ _ => False
  | .compile _ _ => True
  | .dispose _ _ => True
  | .elsewhere work _ => ∀ s : Store, s.Bound →
      (work s).Bound ∧ s.vars.cells.size ≤ (work s).vars.cells.size

/-- The host itself changes no binding of a variable that is there. -/
def Operation.Steady : Operation → Prop
  | .elsewhere work _ => ∀ s : Store, s.vars.Rewired ∅ (work s).vars
  | _ => True

/-- The graph of a variable is neither hydrated, compiled nor disposed. -/
def Operation.Spares (i : Nat) : Operation → Prop
  | .hydrate j _ _ => j ≠ i
  | .compile j _ => j ≠ i
  | .dispose j path => j ≠ i ∨ path ≠ []
  | _ => True

/-- The graph of a variable that is spared is the same one afterwards. -/
theorem graphs_spares (op : Operation) (hop : op.Plain) (w : Host) (i : Nat) (h : op.Spares i) :
    (op.apply w).graphs i = w.graphs i := by
  cases op with
  | hydrate j registry data => exact Function.update_of_ne (Ne.symm h) _ _
  | edit _ _ => exact hop.elim
  | addFunction _ _ _ => exact hop.elim
  | compile j conversions =>
    rcases w.apply_compile j conversions with ⟨_, heq⟩ | ⟨k, _, heq⟩ <;> rw [heq]
    exact Function.update_of_ne (Ne.symm h) _ _
  | dispose j path =>
    rcases w.apply_dispose j path with ⟨_, heq⟩ | ⟨k, f, _, _, heq⟩ <;> rw [heq]
  | elsewhere _ _ => rfl

/-- A graph that is spared is the same one after a run. -/
theorem graphs_run_spares (ops : List Operation) (w : Host) (i : Nat)
    (hops : ∀ op ∈ ops, op.Plain ∧ op.Spares i) : (run ops w).graphs i = w.graphs i := by
  induction ops generalizing w with
  | nil => rfl
  | cons op rest ih =>
    obtain ⟨hplain, hspares⟩ := hops op List.mem_cons_self
    exact (ih _ fun o ho => hops o (List.mem_cons_of_mem op ho)).trans
      (graphs_spares op hplain w i hspares)

/-- A graph that was just compiled comes from one that was there. -/
theorem graphs_compile {w : Host} {i : Nat} {conversions : Conversions} {g : Graph}
    (h : ((Operation.compile i conversions).apply w).graphs i = some g) :
    ∃ k, w.graphs i = some k ∧ (k.compile conversions w.store).1.1 = g ∧
      ((Operation.compile i conversions).apply w).store = (k.compile conversions w.store).2 := by
  rcases w.apply_compile i conversions with ⟨hnone, heq⟩ | ⟨k, hk, heq⟩ <;> rw [heq] at h ⊢
  · rw [hnone] at h
    cases h
  · refine ⟨k, hk, Option.some.inj ?_, rfl⟩
    exact (Function.update_self i _ w.graphs).symm.trans h

/-! ## Section 2: The invariant -/

/-- Each variable is owned in one place. -/
structure Wired (w : Host) : Prop where
  bound : w.store.Bound
  nodup : ∀ i g, w.graphs i = some g → g.owned.Nodup
  apart : ∀ i j g k, i ≠ j → w.graphs i = some g → w.graphs j = some k → ∀ v ∈ g.owned, v ∉ k.owned
  room : ∀ i g, w.graphs i = some g → ∀ v ∈ g.owned, v < w.store.vars.cells.size

theorem wired_empty (s : Store) (hs : s.Bound) : Wired { store := s } where
  bound := hs
  nodup := fun _ _ h => by cases h
  apart := fun _ _ _ _ _ h => by cases h
  room := fun _ _ h => by cases h

/-- The variables that graphs own. -/
def owned (w : Host) : Set VarId := {v | ∃ i g, w.graphs i = some g ∧ v ∈ g.owned}

/-- The variables that graphs own other than that of a variable of the host. -/
def loose (w : Host) (i : Nat) : Set VarId :=
  {v | v ∈ w.owned ∧ ∀ g, w.graphs i = some g → v ∉ g.toNetwork.owned}

namespace Wired

variable {w : Host} (hw : w.Wired)

include hw

/-- A graph is put into a variable. -/
theorem put {i : Nat} {k : Graph} {t : Store} {history : List Happening} (ht : t.Bound)
    (hsize : w.store.vars.cells.size ≤ t.vars.cells.size) (hnodup : k.owned.Nodup)
    (hapart : ∀ j l, j ≠ i → w.graphs j = some l → ∀ v ∈ l.owned, v ∉ k.owned)
    (hroom : ∀ v ∈ k.owned, v < t.vars.cells.size) :
    Wired ⟨Function.update w.graphs i (some k), t, history⟩ := by
  have hcases := graphs_update w i k
  refine ⟨ht, fun j l h => ?_, fun j j' l l' hne h h' => ?_, fun j l h => ?_⟩
  · rcases hcases j l h with ⟨_, rfl⟩ | ⟨_, h⟩
    · exact hnodup
    · exact hw.nodup j l h
  · rcases hcases j l h with ⟨rfl, rfl⟩ | ⟨hj, hl⟩
    · rcases hcases j' l' h' with ⟨rfl, _⟩ | ⟨hj', hl'⟩
      · exact absurd rfl hne
      · exact fun v hv hv' => hapart j' l' hj' hl' v hv' hv
    · rcases hcases j' l' h' with ⟨rfl, rfl⟩ | ⟨_, hl'⟩
      · exact hapart j l hj hl
      · exact hw.apart j j' l l' hne hl hl'
  · rcases hcases j l h with ⟨_, rfl⟩ | ⟨_, h⟩
    · exact hroom
    · exact fun v hv => (hw.room j l h v hv).trans_le hsize

theorem compile_table {i : Nat} {g : Graph} (hi : w.graphs i = some g) (conversions : Conversions) :
    w.store.vars.Rewired {v | v ∈ g.owned} (g.compile conversions w.store).2.vars ∧
      (g.compile conversions w.store).2.Bound :=
  (g.compile_steps conversions w.store).rebinds.table hw.bound (hw.room i g hi)

theorem dispose_table {i : Nat} {f g : Graph} (hi : w.graphs i = some g) (hf : f.Within g) :
    w.store.vars.Rewired {v | v ∈ f.owned} (f.dispose w.store).2.vars ∧
      (f.dispose w.store).2.Bound :=
  (f.dispose_rebinds w.store).table hw.bound fun v hv =>
    hw.room i g hi v (Graph.owned_subset_of_within hf hv)

theorem apply (op : Operation) (hop : op.Plain) : (op.apply w).Wired := by
  cases op with
  | hydrate i registry data =>
    have hmade := Graph.ofData_makes registry data w.store
    refine hw.put ⟨hmade.wellBound hw.bound.wellBound, fun name t ht => ?_⟩ hmade.rewired.size
      hmade.nodup (fun j l _ hl v hv hv' => ?_) fun v hv => (hmade.fresh v hv).2
    · rw [hmade.globals] at ht
      exact (hw.bound.globals name t ht).trans_le hmade.rewired.size
    · exact (hw.room j l hl v hv).not_ge (hmade.fresh v hv').1
  | edit i e => exact hop.elim
  | addFunction i name j => exact hop.elim
  | compile i conversions =>
    rcases w.apply_compile i conversions with ⟨_, heq⟩ | ⟨g, hi, heq⟩ <;> rw [heq]
    · exact hw
    · obtain ⟨hrewired, hbound⟩ := hw.compile_table hi conversions
      have howned := (g.compile_steps conversions w.store).rebinds.owned
      refine hw.put hbound hrewired.size ?_ (fun j l hj hl => ?_) ?_
      · rw [howned]
        exact hw.nodup i g hi
      · rw [howned]
        exact hw.apart j i l g hj hl hi
      · rw [howned]
        exact fun v hv => (hw.room i g hi v hv).trans_le hrewired.size
  | dispose i path =>
    rcases w.apply_dispose i path with ⟨_, heq⟩ | ⟨g, f, hi, hat, heq⟩ <;> rw [heq]
    · exact hw
    · obtain ⟨hrewired, hbound⟩ := hw.dispose_table hi (g.within_of_at? f path hat)
      exact ⟨hbound, hw.nodup, hw.apart, fun j k hj v hv =>
        (hw.room j k hj v hv).trans_le hrewired.size⟩
  | elsewhere work keeps =>
    obtain ⟨hbound, hsize⟩ := hop w.store hw.bound
    exact ⟨hbound, hw.nodup, hw.apart, fun j k hj v hv => (hw.room j k hj v hv).trans_le hsize⟩

theorem run (ops : List Operation) (hops : ∀ op ∈ ops, op.Plain) : (Host.run ops w).Wired := by
  induction ops generalizing w with
  | nil => exact hw
  | cons op rest ih =>
    exact ih (hw.apply op (hops op List.mem_cons_self)) fun o ho => hops o (List.mem_cons_of_mem op ho)

end Wired

/-! ## Section 3: The last compilation -/

theorem run_append (first second : List Operation) (w : Host) :
    run (first ++ second) w = run second (run first w) := List.foldl_append

/-- A disposed graph that is spared stays disposed. -/
theorem isDisposed_spares (op : Operation) (hop : op.Plain) {w : Host} (hw : w.Invariant) (i : Nat)
    (g : Graph) (hg : w.graphs i = some g) (hspares : op.Spares i)
    (h : w.store.isDisposed g.id = true) : (op.apply w).store.isDisposed g.id = true := by
  cases op with
  | edit _ _ => exact hop.elim
  | addFunction _ _ _ => exact hop.elim
  | hydrate j registry data =>
    obtain ⟨n, hnumbers⟩ := Graph.ofData_numbers registry data w.store
    have hid := hw.room i g hg _ (Graph.mem_ids_of_within .self)
    show (Graph.ofData registry data w.store).2.isDisposed g.id = true
    rw [Store.isDisposed_eq_marks, hnumbers.marks,
      Array.getElem?_append_left (by rwa [Store.size_marks]), ← Store.isDisposed_eq_marks]
    exact h
  | compile j conversions =>
    rcases w.apply_compile j conversions with ⟨_, heq⟩ | ⟨k, hk, heq⟩ <;> rw [heq]
    · exact h
    · rw [(k.compile_compiles conversions w.store).unmarks.disposed]
      exact ⟨h, fun e he heq => hw.apart j i k g hspares hk hg _
        ((k.compile_compiles conversions w.store).named e he)
        (heq ▸ Graph.mem_ids_of_within .self)⟩
  | dispose j path =>
    rcases w.apply_dispose j path with ⟨_, heq⟩ | ⟨k, f, hj, hat, heq⟩ <;> rw [heq]
    · exact h
    · obtain ⟨hmarks, _⟩ := f.dispose_marks w.store fun id hid =>
        hw.room j k hj id (Graph.ids_subset_of_within (k.within_of_at? f path hat) hid)
      exact (hmarks.disposed _).mpr (.inl h)
  | elsewhere work keeps =>
    show (work w.store).isDisposed g.id = true
    rw [Store.isDisposed_congr (keeps w.store)]
    exact h

/-- An operation after which a graph can be run compiled it or spared it. -/
theorem spares_or_compile (op : Operation) (hop : op.Plain) {w : Host} (hw : w.Invariant) (i : Nat)
    (g : Graph) (hg : (op.apply w).graphs i = some g)
    (hrun : g.isRunnable (op.apply w).store = true) :
    (∃ conversions, op = .compile i conversions) ∨ op.Spares i := by
  obtain ⟨hcompiled, hmark⟩ := (isRunnable_iff _ _).mp hrun
  cases op with
  | edit _ _ => exact hop.elim
  | addFunction _ _ _ => exact hop.elim
  | hydrate j registry data =>
    refine .inr fun hj => ?_
    -- a new graph was not compiled
    subst hj
    change Function.update w.graphs j (some (Graph.ofData registry data w.store).1) j = some g at hg
    rw [Function.update_self] at hg
    cases hg
    rw [(Graph.ofData_fresh registry data w.store).compiled] at hcompiled
    cases hcompiled
  | compile j conversions =>
    by_cases hj : j = i
    · exact .inl ⟨conversions, by rw [hj]⟩
    · exact .inr hj
  | dispose j path =>
    right
    by_contra hspares
    obtain ⟨rfl, rfl⟩ : j = i ∧ path = [] := by
      rwa [Operation.Spares, not_or, not_not, not_not] at hspares
    -- the graph itself was disposed
    rcases w.apply_dispose j [] with ⟨hnone, heq⟩ | ⟨k, f, hj, hat, heq⟩ <;> rw [heq] at hg hmark
    · rw [hg] at hnone
      cases hnone
    · cases hat
      obtain rfl : k = g := Option.some.inj (hj.symm.trans hg)
      rw [k.isDisposed_dispose w.store (hw.room j k hj)] at hmark
      cases hmark
  | elsewhere work keeps => exact .inr trivial

/-- A graph that can be run was compiled, and was spared since. -/
theorem exists_last_compile (s : Store) (ops : List Operation) (hops : ∀ op ∈ ops, op.Plain)
    (i : Nat) (g : Graph) (hg : (run ops { store := s }).graphs i = some g)
    (hrun : g.isRunnable (run ops { store := s }).store = true) :
    ∃ before conversions after, ops = before ++ .compile i conversions :: after ∧
      ∀ op ∈ after, op.Spares i := by
  induction ops using List.reverseRecOn with
  | nil => cases hg
  | append_singleton ops op ih =>
    rw [run_append] at hg hrun
    have hplain := hops op (by simp)
    have hw : (run ops { store := s }).Invariant := run_invariant ops _ (invariant_empty s)
    rcases spares_or_compile op hplain hw i g hg hrun with ⟨conversions, rfl⟩ | hspares
    · exact ⟨ops, conversions, [], rfl, List.forall_mem_nil _⟩
    · -- the graph could be run before
      have hgraph := (graphs_spares op hplain _ i hspares).symm.trans hg
      obtain ⟨hcompiled, hmark⟩ := (isRunnable_iff _ _).mp hrun
      have hbefore : (run ops { store := s }).store.isDisposed g.id = false := by
        rw [Bool.eq_false_iff] at hmark ⊢
        exact mt (isDisposed_spares op hplain hw i g hgraph hspares) hmark
      obtain ⟨before, conversions, after, rfl, hafter⟩ :=
        ih (fun o ho => hops o (List.mem_append_left _ ho)) hgraph
          ((isRunnable_iff _ _).mpr ⟨hcompiled, hbefore⟩)
      exact ⟨before, conversions, after ++ [op], by simp,
        List.forall_mem_append.mpr ⟨hafter, List.forall_mem_singleton.mpr hspares⟩⟩

/-! ## Section 4: Joined variables -/

/-- Compiling a graph makes no variables loose. -/
theorem loose_compile {w : Host} {i : Nat} {conversions : Conversions} (v : VarId)
    (h : v ∈ ((Operation.compile i conversions).apply w).loose i) : v ∈ w.loose i := by
  rcases w.apply_compile i conversions with ⟨_, heq⟩ | ⟨k, hk, heq⟩ <;> rw [heq] at h
  · exact h
  have hsteps := k.compile_steps conversions w.store
  obtain ⟨⟨j, l, hj, hv⟩, hout⟩ := h
  refine ⟨?_, fun l' hl' hin => ?_⟩
  · rcases graphs_update w i _ j l hj with ⟨rfl, rfl⟩ | ⟨_, hl⟩
    · exact ⟨j, k, hk, hsteps.rebinds.owned ▸ hv⟩
    · exact ⟨j, l, hl, hv⟩
  · rw [hk] at hl'
    cases hl'
    refine hout _ (Function.update_self ..) ?_
    rwa [hsteps.network_owned]

/-- No chain of bindings from a global variable passes one that a graph owns on its way to one of
    the network. -/
def Clear (w : Host) (n : Network) : Prop :=
  ∀ name t, w.store.globals.find? name = some t →
    w.store.vars.Clear w.owned {v | v ∈ n.owned} t

namespace Wired

variable {w : Host} (hw : w.Wired) {i : Nat} {g : Graph} (hi : w.graphs i = some g)

include hw hi

theorem network_nodup : g.toNetwork.owned.Nodup ∧
    (Graph.owned.functionsOwned g.functions).Nodup ∧
    ∀ v ∈ g.toNetwork.owned, v ∉ Graph.owned.functionsOwned g.functions := by
  have hnodup := hw.nodup i g hi
  rw [Graph.owned_eq, List.nodup_append] at hnodup
  exact ⟨hnodup.1, hnodup.2.1, fun v hv hv' => hnodup.2.2 v hv v hv' rfl⟩

theorem network_room (v : VarId) (hv : v ∈ g.toNetwork.owned) : v < w.store.vars.cells.size :=
  hw.room i g hi v (g.network_owned_subset hv)

/-- What another graph owns is loose. -/
theorem loose_of_other {j : Nat} {k : Graph} (hj : w.graphs j = some k) (hne : j ≠ i) (v : VarId)
    (hv : v ∈ k.owned) : v ∈ w.loose i := by
  refine ⟨⟨j, k, hj, hv⟩, fun l hl hin => ?_⟩
  rw [hi] at hl
  cases hl
  exact hw.apart j i k g hne hj hi v hv (g.network_owned_subset hin)

/-- What the functions of the graph own is loose. -/
theorem loose_of_function (v : VarId) (hv : v ∈ Graph.owned.functionsOwned g.functions) :
    v ∈ w.loose i := by
  refine ⟨⟨i, g, hi, g.functionsOwned_subset hv⟩, fun l hl hin => ?_⟩
  rw [hi] at hl
  cases hl
  exact (hw.network_nodup hi).2.2 v hin hv

/-- Operations that spare a graph change no bindings of its own variables. -/
theorem spares (op : Operation) (hop : op.Plain) (hsteady : op.Steady) (hspares : op.Spares i) :
    w.store.vars.Rewired (w.loose i) (op.apply w).store.vars ∧
      ∀ v < w.store.vars.cells.size, v ∈ (op.apply w).loose i → v ∈ w.loose i := by
  have hgraph : (op.apply w).graphs i = some g := (graphs_spares op hop w i hspares).trans hi
  -- what is owned afterwards was owned before, or it is new
  have hloose : (∀ v < w.store.vars.cells.size, v ∈ (op.apply w).owned → v ∈ w.owned) →
      ∀ v < w.store.vars.cells.size, v ∈ (op.apply w).loose i → v ∈ w.loose i := by
    refine fun howned v hv hin => ⟨howned v hv hin.1, fun l hl => hin.2 l ?_⟩
    rwa [hi, ← hgraph] at hl
  cases op with
  | edit _ _ => exact hop.elim
  | addFunction _ _ _ => exact hop.elim
  | hydrate j registry data =>
    have hmade := Graph.ofData_makes registry data w.store
    refine ⟨hmade.rewired.mono (Set.empty_subset _), hloose ?_⟩
    rintro v hv ⟨j', k, hj', hvk⟩
    rcases graphs_update w j _ j' k hj' with ⟨rfl, rfl⟩ | ⟨_, hk⟩
    · exact absurd hv (hmade.fresh v hvk).1.not_gt
    · exact ⟨j', k, hk, hvk⟩
  | compile j conversions =>
    rcases w.apply_compile j conversions with ⟨_, heq⟩ | ⟨k, hj, heq⟩ <;> rw [heq] at hloose ⊢
    · exact ⟨.refl _, fun _ _ h => h⟩
    · refine ⟨(hw.compile_table hj conversions).1.mono fun v hv =>
        hw.loose_of_other hi hj hspares v hv, hloose ?_⟩
      rintro v _ ⟨j', l, hj', hvl⟩
      rcases graphs_update w j _ j' l hj' with ⟨rfl, rfl⟩ | ⟨_, hl⟩
      · rw [(k.compile_steps conversions w.store).rebinds.owned] at hvl
        exact ⟨j', k, hj, hvl⟩
      · exact ⟨j', l, hl, hvl⟩
  | dispose j path =>
    rcases w.apply_dispose j path with ⟨_, heq⟩ | ⟨k, f, hj, hat, heq⟩ <;> rw [heq]
    · exact ⟨.refl _, fun _ _ h => h⟩
    · refine ⟨(hw.dispose_table hj (k.within_of_at? f path hat)).1.mono fun v hv => ?_,
        fun _ _ h => h⟩
      by_cases hne : j = i
      · -- a function of the graph, or of one of its functions
        subst hne
        rw [hi] at hj
        cases hj
        obtain ⟨e, he, hfe⟩ := g.among_of_at? f path (hspares.resolve_left (not_not.mpr rfl)) hat
        refine hw.loose_of_function hi v ?_
        rw [Graph.functionsOwned_eq]
        exact List.mem_flatMap.mpr ⟨e, he, Graph.owned_subset_of_within hfe hv⟩
      · exact hw.loose_of_other hi hj hne v (Graph.owned_subset_of_within
          (k.within_of_at? f path hat) hv)
  | elsewhere work keeps =>
    exact ⟨(hsteady w.store).mono (Set.empty_subset _), fun _ _ h => h⟩

/-- **Joined variables stay joined** while their graph is spared. -/
theorem run_steady (ops : List Operation)
    (hops : ∀ op ∈ ops, op.Plain ∧ op.Steady ∧ op.Spares i) :
    w.store.vars.Rewired Set.univ (Host.run ops w).store.vars ∧
      ∀ v u, w.store.vars.Joined (w.loose i) v u →
        (Host.run ops w).store.vars.Joined ((Host.run ops w).loose i) v u := by
  induction ops generalizing w with
  | nil => exact ⟨.refl _, fun _ _ h => h⟩
  | cons op rest ih =>
    obtain ⟨hplain, hsteady, hspares⟩ := hops op List.mem_cons_self
    obtain ⟨hrewired, hloose⟩ := hw.spares hi op hplain hsteady hspares
    obtain ⟨hrewired', hjoined⟩ := ih (hw.apply op hplain)
      ((graphs_spares op hplain w i hspares).trans hi) fun o ho => hops o (List.mem_cons_of_mem op ho)
    exact ⟨(hrewired.mono (Set.subset_univ _)).trans hrewired',
      fun v u h => hjoined v u (h.rewired hrewired hloose)⟩

/-- Compiling joins the variables of a graph to their sources. -/
theorem compile_joined (conversions : Conversions) (k : Graph) (t : Store)
    (hk : (g.compile conversions w.store).1.1 = k) (ht : (g.compile conversions w.store).2 = t) :
    let loose := w.loose i
    (∀ v ∈ (Graph.ownVariables g.toNetwork).map (·.2.2), ∀ e ∈ g.blackboard,
      w.store.vars.ownSource w.store.globals g.blackboard v = some e →
      w.store.vars.boardSource w.store.globals e = none → t.vars.Joined loose v e) ∧
    (w.Clear g.toNetwork →
      (∀ e ∈ g.blackboard, ∀ u, w.store.vars.boardSource w.store.globals e = some u →
        t.vars.Joined loose e u) ∧
      ∀ v ∈ (Graph.ownVariables g.toNetwork).map (·.2.2), ∀ u,
        w.store.vars.ownSource w.store.globals g.blackboard v = some u →
        t.vars.Joined loose v u) := by
  intro loose
  obtain ⟨hnodup, _, _⟩ := hw.network_nodup hi
  have hroom := hw.network_room hi
  have hsteps := g.compile_steps conversions w.store
  rw [hk, ht] at hsteps
  obtain ⟨u, hvars, hglobals, hfunctions⟩ := hsteps.steps
  obtain ⟨hrewired, hu⟩ := (Graph.Rebinds.network g.toNetwork hvars hglobals).table hw.bound hroom
  -- binding the variables of functions changes bindings of loose variables only
  have hlater : ∀ v x, u.vars.Joined loose v x → t.vars.Joined loose v x := by
    have htable := (hfunctions.table hu fun v hv => ?_).1
    · exact fun v x h => h.rewired (htable.mono fun v hv => hw.loose_of_function hi v hv)
        fun _ _ h => h
    · exact (hw.room i g hi v (g.functionsOwned_subset hv)).trans_le hrewired.size
  have hbound := hw.bound
  refine ⟨fun v hv e he hsource hnone => hlater v e (.inl (.single ⟨?_, ?_⟩)), fun hclear => ?_⟩
  · exact fun hin => hin.2 g hi (List.mem_append_right _ hv)
  · show u.vars.targetOf v = some e
    rw [hvars]
    exact Graph.boundVariables_shared hroom hbound.globals hbound.wellBound hnodup v hv e he hsource
      hnone
  · have howned : ∀ v ∈ g.toNetwork.owned, v ∈ w.owned := fun v hv =>
      ⟨i, g, hi, g.network_owned_subset hv⟩
    have hjoined := Graph.boundVariables_joined hroom hbound.globals hbound.wellBound hnodup
      howned hclear
    have hsets : w.owned \ {v | v ∈ g.toNetwork.owned} = loose := by
      ext v
      refine and_congr_right fun _ => ⟨fun h l hl => ?_, fun h => h g hi⟩
      rw [hi] at hl
      cases hl
      exact h
    rw [← hvars, hsets] at hjoined
    exact ⟨fun e he x hx => hlater e x (hjoined.1 e he x hx),
      fun v hv x hx => hlater v x (hjoined.2 v hv x hx)⟩

end Wired

end Host
end FlowGraph
