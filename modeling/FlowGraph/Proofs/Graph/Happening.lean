import FlowGraph.Proofs.Graph.Marks

/-! # What happens to graphs

    Compiling a graph compiles its functions as well, up to the first that fails, and
    disposing a graph disposes those of its functions that were not disposed before.  So one
    operation makes things happen to several graphs; they are listed by
    `Graph.compileHappenings` and `Graph.disposeHappenings`.

    After compiling, every graph within that was reached is compiled or not as listed, and is
    not disposed; the others are as they were (`Graph.compile_compiles`).  After disposing, the
    listed graphs are disposed (`Graph.dispose_marks`). -/

namespace FlowGraph

/-! ## Section 1: Happenings -/

/-- What can happen to a graph. -/
inductive Change where
  /-- Its structure was edited, or its paths were dropped. -/
  | edited
  | disposed
  /-- It failed to compile. -/
  | failed
  | compiled
  deriving DecidableEq, Repr

/-- Something that happened to a graph. -/
structure Happening where
  graph : GraphId
  change : Change
  deriving DecidableEq, Repr

/-- The latest of some happenings, the oldest first, that is one of a graph. -/
def latest (history : List Happening) (id : GraphId) : Option Change :=
  ((history.filter (·.graph = id)).getLast?).map (·.change)

theorem latest_append (history new : List Happening) (id : GraphId) :
    latest (history ++ new) id = (latest new id).or (latest history id) := by
  unfold latest
  rw [List.filter_append, List.getLast?_append]
  cases (new.filter (·.graph = id)).getLast? with
  | none => rfl
  | some e => rfl

theorem latest_eq_none (history : List Happening) (id : GraphId)
    (h : ∀ e ∈ history, e.graph ≠ id) : latest history id = none := by
  unfold latest
  rw [List.filter_eq_nil_iff.mpr fun e he => by simpa using h e he]
  rfl

/-- A graph that something happened to has a latest happening. -/
theorem latest_of_mem (history : List Happening) (id : GraphId) (e : Happening)
    (he : e ∈ history) (hid : e.graph = id) :
    ∃ e' ∈ history, e'.graph = id ∧ latest history id = some e'.change := by
  have hmem : e ∈ history.filter (·.graph = id) := List.mem_filter.mpr ⟨he, by simpa using hid⟩
  obtain ⟨e', he'⟩ := Option.isSome_iff_exists.mp
    (List.getLast?_isSome.mpr (List.ne_nil_of_mem hmem))
  obtain ⟨hin, hgraph⟩ := List.mem_filter.mp (List.mem_of_getLast? he')
  refine ⟨e', hin, by simpa using hgraph, ?_⟩
  unfold latest
  rw [he']
  rfl

/-- If each graph is listed once, its only happening is the latest. -/
theorem latest_of_nodup (history : List Happening) (hnodup : (history.map (·.graph)).Nodup)
    (e : Happening) (he : e ∈ history) : latest history e.graph = some e.change := by
  obtain ⟨e', he', hgraph, hlatest⟩ := latest_of_mem history e.graph e he rfl
  rw [hlatest, List.inj_on_of_nodup_map hnodup he' he hgraph]

namespace Graph

/-! ## Section 2: Compiling -/

/-- How a compilation ended. -/
def outcome : Except GraphError Unit → Change
  | .ok () => .compiled
  | .error _ => .failed

mutual

/-- What happens to graphs when one is compiled. -/
def compileHappenings (conversions : Conversions) : Graph → Store → List Happening
  | ⟨network, _, functions, _⟩, s =>
    let prepared := prepare conversions network s
    match findPaths prepared.1.1 with
    | .error _ => [⟨network.id, .failed⟩]
    | .ok n =>
      compileFunctionsHappenings conversions functions prepared.2
        ++ [⟨network.id, outcome (compileFunctions conversions n.name functions prepared.2).1.2⟩]

/-- What happens to graphs when functions are compiled. -/
def compileFunctionsHappenings (conversions : Conversions) :
    List (String × Graph) → Store → List Happening
  | [], _ => []
  | (_, f) :: rest, s =>
    compileHappenings conversions f s ++
      match (f.compile conversions s).1.2 with
      | .ok () => compileFunctionsHappenings conversions rest (f.compile conversions s).2
      | .error _ => []

end

/-- The marks of the listed graphs are taken back. -/
structure Unmarks (s t : Store) (new : List Happening) : Prop where
  size : t.graphs.size = s.graphs.size
  disposed : ∀ id, t.isDisposed id = true ↔ s.isDisposed id = true ∧ ∀ e ∈ new, e.graph ≠ id

theorem Unmarks.refl (s : Store) : Unmarks s s [] := ⟨rfl, fun id => by simp⟩

theorem Unmarks.append {s t u : Store} {new new' : List Happening} (h : Unmarks s t new)
    (h' : Unmarks t u new') : Unmarks s u (new ++ new') := by
  refine ⟨h'.size.trans h.size, fun id => ?_⟩
  rw [h'.disposed, h.disposed, and_assoc]
  simp only [List.forall_mem_append]

/-- Only the listed graphs matter, not their order. -/
theorem Unmarks.perm {s t : Store} {new new' : List Happening} (h : Unmarks s t new)
    (hperm : new.Perm new') : Unmarks s t new' := by
  refine ⟨h.size, fun id => ?_⟩
  rw [h.disposed]
  simp only [hperm.mem_iff]

theorem Unmarks.of_marks {s t u : Store} {new : List Happening} (h : Unmarks s t new)
    (hu : u.marks = t.marks) : Unmarks s u new := by
  refine ⟨(Store.size_congr hu).trans h.size, fun id => ?_⟩
  rw [Store.isDisposed_congr hu, h.disposed]

theorem prepare_unmarks (conversions : Conversions) (n : Network) (s : Store) (change : Change) :
    Unmarks s (prepare conversions n s).2 [⟨n.id, change⟩] := by
  obtain ⟨log, hbound⟩ := bindVariables_eq n (s.setDisposed n.id false)
  have hprepared : (prepare conversions n s).2.marks = (s.setDisposed n.id false).marks := by
    show (bindVariables n (s.setDisposed n.id false)).2.marks = _
    rw [hbound]
    rfl
  refine Unmarks.of_marks ⟨s.size_setDisposed _ _, fun id => ?_⟩ hprepared
  rw [s.isDisposed_setDisposed _ _ _ fun h => by cases h]
  by_cases hid : id = n.id
  · simp [hid]
  · simp [hid, Ne.symm hid]

/-- What is known of a graph after a compilation: it is listed as compiled or as failed, and is so,
    or it is not listed and was there before. -/
def Told (new : List Happening) (f : Graph) (before : Prop) : Prop :=
  (⟨f.id, .compiled⟩ ∈ new ∧ f.compiled = true) ∨ (⟨f.id, .failed⟩ ∈ new ∧ f.compiled = false) ∨
    ((∀ e ∈ new, e.graph ≠ f.id) ∧ before)

/-- More that happens to other graphs does not matter. -/
theorem Told.append {new new' : List Happening} {f : Graph} {before before' : Prop}
    (h : Told new f before) (hnew : ∀ e ∈ new', e.graph ≠ f.id) (hbefore : before → before') :
    Told (new ++ new') f before' ∧ Told (new' ++ new) f before' := by
  rcases h with ⟨hin, hcompiled⟩ | ⟨hin, hcompiled⟩ | ⟨hout, hb⟩
  · exact ⟨.inl ⟨List.mem_append_left _ hin, hcompiled⟩, .inl ⟨List.mem_append_right _ hin, hcompiled⟩⟩
  · exact ⟨.inr (.inl ⟨List.mem_append_left _ hin, hcompiled⟩),
      .inr (.inl ⟨List.mem_append_right _ hin, hcompiled⟩)⟩
  · exact ⟨.inr (.inr ⟨List.forall_mem_append.mpr ⟨hout, hnew⟩, hbefore hb⟩),
      .inr (.inr ⟨List.forall_mem_append.mpr ⟨hnew, hout⟩, hbefore hb⟩)⟩

/-- What a compilation does to the graphs within. -/
structure Compiles (old now : List GraphId) (s t : Store) (new : List Happening)
    (before after : Graph → Prop) : Prop where
  ids : now = old
  named : ∀ e ∈ new, e.graph ∈ old
  unmarks : Unmarks s t new
  nodup : old.Nodup → (new.map (·.graph)).Nodup
  told : old.Nodup → ∀ f, after f → Told new f (before f)

/-- A graph is one of some functions, or within one. -/
def Among (functions : List (String × Graph)) (f : Graph) : Prop := ∃ e ∈ functions, f.Within e.2

theorem Among.mem_ids {functions : List (String × Graph)} {f : Graph} (h : Among functions f) :
    f.id ∈ ids.functionIds functions := by
  obtain ⟨e, he, hf⟩ := h
  exact (mem_functionIds_iff _ _).mpr ⟨e, he, mem_ids_of_within hf⟩

/-- Functions that are not reached stay as they were. -/
theorem Compiles.skip (functions : List (String × Graph)) {s t : Store} (h : t.marks = s.marks) :
    Compiles (ids.functionIds functions) (ids.functionIds functions) s t [] (Among functions)
      (Among functions) where
  ids := rfl
  named := List.forall_mem_nil _
  unmarks := (Unmarks.refl s).of_marks h
  nodup := fun _ => .nil
  told := fun _ _ hf => .inr (.inr ⟨List.forall_mem_nil _, hf⟩)

/-- Functions are compiled one after the other. -/
theorem Compiles.cons {name : String} {f k : Graph} {s t u : Store} {new new' : List Happening}
    {rest rest' : List (String × Graph)}
    (h : Compiles f.ids k.ids s t new (·.Within f) (·.Within k))
    (h' : Compiles (ids.functionIds rest) (ids.functionIds rest') t u new' (Among rest)
      (Among rest')) :
    Compiles (ids.functionIds ((name, f) :: rest)) (ids.functionIds ((name, k) :: rest')) s u
      (new ++ new') (Among ((name, f) :: rest)) (Among ((name, k) :: rest')) := by
  refine ⟨?_, fun e he => ?_, h.unmarks.append h'.unmarks, fun hnodup => ?_, fun hnodup x hx => ?_⟩
  · unfold ids.functionIds
    rw [h.ids, h'.ids]
  · unfold ids.functionIds
    rcases List.mem_append.mp he with he | he
    · exact List.mem_append_left _ (h.named e he)
    · exact List.mem_append_right _ (h'.named e he)
  · unfold ids.functionIds at hnodup
    obtain ⟨hfirst, hrest, hapart⟩ := List.nodup_append.mp hnodup
    rw [List.map_append, List.nodup_append]
    refine ⟨h.nodup hfirst, h'.nodup hrest, fun a ha b hb => ?_⟩
    obtain ⟨e, he, rfl⟩ := List.mem_map.mp ha
    obtain ⟨e', he', rfl⟩ := List.mem_map.mp hb
    exact hapart _ (h.named e he) _ (h'.named e' he')
  · unfold ids.functionIds at hnodup
    obtain ⟨hfirst, hrest, hapart⟩ := List.nodup_append.mp hnodup
    obtain ⟨e, he, hxe⟩ := hx
    -- what happens to one function does not happen to another one
    rcases List.mem_cons.mp he with rfl | he
    · refine ((h.told hfirst x hxe).append (fun e' he' heq => ?_)
        fun hb => ⟨(name, f), List.mem_cons_self, hb⟩).1
      exact hapart _ (h.ids ▸ mem_ids_of_within hxe) _ (h'.named e' he') heq.symm
    · have hlater : ∀ b, Among rest b → Among ((name, f) :: rest) b := by
        rintro b ⟨e', he', hb⟩
        exact ⟨e', List.mem_cons_of_mem _ he', hb⟩
      refine ((h'.told hrest x ⟨e, he, hxe⟩).append (fun e' he' heq => ?_) (hlater _)).2
      exact hapart _ (h.named e' he') _ (h'.ids ▸ Among.mem_ids ⟨e, he, hxe⟩) heq

/-- A graph is compiled after its functions. -/
theorem Compiles.graph {g k : Graph} {s t u v : Store} {new : List Happening}
    (result : Except GraphError Unit) (hid : k.id = g.id) (hcompiled : k.compiled = result.isOk)
    (hown : Unmarks s t [⟨g.id, outcome result⟩])
    (h : Compiles (ids.functionIds g.functions) (ids.functionIds k.functions) t u new
      (Among g.functions) (Among k.functions)) (hv : v.marks = u.marks) :
    Compiles g.ids k.ids s v (new ++ [⟨g.id, outcome result⟩]) (·.Within g) (·.Within k) := by
  have hends : Unmarks s v (new ++ [⟨g.id, outcome result⟩]) :=
    ((hown.append h.unmarks).perm List.perm_append_comm).of_marks hv
  refine ⟨?_, ?_, hends, fun hnodup => ?_, fun hnodup f hf => ?_⟩
  · rw [ids_eq, ids_eq, hid, h.ids]
  · rw [ids_eq, List.forall_mem_append, List.forall_mem_singleton]
    exact ⟨fun e he => List.mem_cons_of_mem _ (h.named e he), List.mem_cons_self⟩
  · rw [ids_eq, List.nodup_cons] at hnodup
    rw [List.map_append, List.nodup_append]
    refine ⟨h.nodup hnodup.2, List.nodup_singleton _, fun a ha b hb => ?_⟩
    obtain ⟨e, he, rfl⟩ := List.mem_map.mp ha
    rw [List.mem_singleton.mp hb]
    exact fun heq => hnodup.1 ((show e.graph = g.id from heq) ▸ h.named e he)
  · rw [ids_eq, List.nodup_cons] at hnodup
    rcases (within_iff f k).mp hf with rfl | hamong
    · -- the graph itself is listed last
      have hlast : (⟨f.id, outcome result⟩ : Happening) ∈ new ++ [⟨g.id, outcome result⟩] := by
        rw [hid]
        exact List.mem_append_right _ (List.mem_singleton_self _)
      cases result with
      | ok _ => exact .inl ⟨hlast, hcompiled⟩
      | error e => exact .inr (.inl ⟨hlast, hcompiled⟩)
    · refine ((h.told hnodup.2 f hamong).append (List.forall_mem_singleton.mpr fun heq => ?_)
        fun hb => (within_iff f g).mpr (.inr hb)).1
      apply hnodup.1
      rw [show g.id = f.id from heq, ← h.ids]
      exact Among.mem_ids hamong

mutual

/-- After compiling, the graphs within are as they are listed. -/
theorem compile_compiles (conversions : Conversions) (g : Graph) (s : Store) :
    Compiles g.ids (g.compile conversions s).1.1.ids s (g.compile conversions s).2
      (g.compileHappenings conversions s) (·.Within g)
      (·.Within (g.compile conversions s).1.1) := by
  obtain ⟨n, groups, functions, compiled⟩ := g
  obtain ⟨t, ht⟩ : ∃ t, prepare conversions n s
      = (((n.link conversions).1, (n.link conversions).2.1), t) := ⟨_, rfl⟩
  have hown := fun change => prepare_unmarks conversions n s change
  rw [ht] at hown
  unfold compile compileHappenings
  simp only [bind, StateT.bind, ht]
  cases hfind : findPaths (n.link conversions).1 with
  | error e =>
    exact Compiles.graph (g := ⟨n, groups, functions, compiled⟩)
      (k := ⟨(n.link conversions).1, groups, functions, false⟩) (.error e)
      (n.link_id conversions) rfl (hown _) (.skip functions rfl) rfl
  | ok m =>
    have hfunctions := compileFunctions_compiles conversions m.name functions t
    have hid : m.id = n.id := by
      obtain ⟨_, rfl⟩ := findPaths_ok _ m hfind
      exact n.link_id conversions
    obtain ⟨fs, result, u, hcompiled⟩ : ∃ fs result u,
        compileFunctions conversions m.name functions t = ((fs, result), u) := ⟨_, _, _, rfl⟩
    rw [hcompiled] at hfunctions
    simp only [StateT.bind, hcompiled]
    cases result with
    | error e =>
      exact Compiles.graph (g := ⟨n, groups, functions, compiled⟩)
        (k := ⟨m, groups, fs, false⟩) (.error e) hid rfl (hown _) hfunctions rfl
    | ok _ =>
      exact Compiles.graph (g := ⟨n, groups, functions, compiled⟩)
        (k := ⟨m, groups, fs, true⟩) (.ok ()) hid rfl (hown _) hfunctions rfl

theorem compileFunctions_compiles (conversions : Conversions) (graph : String)
    (functions : List (String × Graph)) (s : Store) :
    Compiles (ids.functionIds functions)
      (ids.functionIds (compileFunctions conversions graph functions s).1.1) s
      (compileFunctions conversions graph functions s).2
      (compileFunctionsHappenings conversions functions s) (Among functions)
      (Among (compileFunctions conversions graph functions s).1.1) := by
  match functions with
  | [] => exact .skip [] rfl
  | (name, f) :: rest =>
    have hfirst := compile_compiles conversions f s
    obtain ⟨k, result, t, hcompile⟩ : ∃ k result t,
        f.compile conversions s = ((k, result), t) := ⟨_, _, _, rfl⟩
    have hrest := compileFunctions_compiles conversions graph rest t
    rw [hcompile] at hfirst
    unfold compileFunctions compileFunctionsHappenings
    simp only [bind, StateT.bind, hcompile]
    cases result with
    | error e => exact hfirst.cons (.skip rest rfl)
    | ok _ => exact hfirst.cons hrest

end

/-! ### All functions -/

/-- Once a graph is compiled each graph within is. -/
def Settled (g : Graph) : Prop :=
  ∀ f : Graph, f.Within g → f.compiled = true → ∀ k : Graph, k.Within f → k.compiled = true

theorem Settled.within {f g : Graph} (hg : g.Settled) (hf : f.Within g) : f.Settled :=
  fun k hk => hg k (hk.trans hf)

/-- A graph that is not compiled is settled if its functions are. -/
theorem settled_of_functions {g : Graph} (hcompiled : g.compiled = false)
    (h : ∀ e ∈ g.functions, e.2.Settled) : g.Settled := by
  intro f hf hcf
  rcases (within_iff f g).mp hf with rfl | ⟨e, he, hfe⟩
  · rw [hcompiled] at hcf
    cases hcf
  · exact h e he f hfe hcf

/-- A graph of which each graph within is compiled is settled. -/
theorem settled_of_all {g : Graph} (h : ∀ f : Graph, f.Within g → f.compiled = true) : g.Settled :=
  fun _ hf _ k hk => h k (hk.trans hf)

mutual

/-- Compiling settles a graph, and if it succeeds then each graph within is compiled. -/
theorem compile_settled (conversions : Conversions) (g : Graph) (s : Store) (hg : g.Settled) :
    (g.compile conversions s).1.1.Settled ∧ ((g.compile conversions s).1.2 = .ok () →
      ∀ f : Graph, f.Within (g.compile conversions s).1.1 → f.compiled = true) := by
  obtain ⟨n, groups, functions, compiled⟩ := g
  have hlocals : ∀ e ∈ functions, e.2.Settled := fun e he => hg.within (.function _ e he .self)
  obtain ⟨t, ht⟩ : ∃ t, prepare conversions n s
      = (((n.link conversions).1, (n.link conversions).2.1), t) := ⟨_, rfl⟩
  unfold compile
  simp only [bind, StateT.bind, ht]
  cases hfind : findPaths (n.link conversions).1 with
  | error e => exact ⟨settled_of_functions rfl hlocals, fun h => by cases h⟩
  | ok m =>
    have hfunctions := compileFunctions_settled conversions m.name functions t hlocals
    obtain ⟨fs, result, u, hcompiled⟩ : ∃ fs result u,
        compileFunctions conversions m.name functions t = ((fs, result), u) := ⟨_, _, _, rfl⟩
    rw [hcompiled] at hfunctions
    simp only [StateT.bind, hcompiled]
    cases result with
    | error e => exact ⟨settled_of_functions rfl hfunctions.1, fun h => by cases h⟩
    | ok _ =>
      have hall : ∀ f : Graph, f.Within ⟨m, groups, fs, true⟩ → f.compiled = true := by
        intro f hf
        rcases (within_iff f _).mp hf with rfl | hamong
        · rfl
        · exact hfunctions.2 rfl f hamong
      exact ⟨settled_of_all hall, fun _ => hall⟩

theorem compileFunctions_settled (conversions : Conversions) (graph : String)
    (functions : List (String × Graph)) (s : Store) (hfunctions : ∀ e ∈ functions, e.2.Settled) :
    (∀ e ∈ (compileFunctions conversions graph functions s).1.1, e.2.Settled) ∧
      ((compileFunctions conversions graph functions s).1.2 = .ok () →
        ∀ f : Graph, Among (compileFunctions conversions graph functions s).1.1 f →
          f.compiled = true) := by
  match functions with
  | [] => exact ⟨List.forall_mem_nil _, fun _ f ⟨_, he, _⟩ => by cases he⟩
  | (name, f) :: rest =>
    rw [List.forall_mem_cons] at hfunctions
    have hfirst := compile_settled conversions f s hfunctions.1
    obtain ⟨k, result, t, hcompile⟩ : ∃ k result t,
        f.compile conversions s = ((k, result), t) := ⟨_, _, _, rfl⟩
    have hrest := compileFunctions_settled conversions graph rest t hfunctions.2
    rw [hcompile] at hfirst
    unfold compileFunctions
    simp only [bind, StateT.bind, hcompile]
    cases result with
    | error e =>
      exact ⟨List.forall_mem_cons.mpr ⟨hfirst.1, hfunctions.2⟩, fun h => by cases h⟩
    | ok _ =>
      refine ⟨List.forall_mem_cons.mpr ⟨hfirst.1, hrest.1⟩, fun hok x ⟨e, he, hx⟩ => ?_⟩
      rcases List.mem_cons.mp he with rfl | he
      · exact hfirst.2 rfl x hx
      · exact hrest.2 hok x ⟨e, he, hx⟩

end

/-! ## Section 3: Disposing -/

mutual

/-- What happens to graphs when one is disposed. -/
def disposeHappenings : Graph → Store → List Happening
  | ⟨network, _, functions, _⟩, s =>
    if s.isDisposed network.id then []
    else
      ⟨network.id, .disposed⟩ ::
        disposeFunctionsHappenings functions (unbindVariables network (s.setDisposed network.id true)).2

/-- What happens to graphs when functions are disposed. -/
def disposeFunctionsHappenings : List (String × Graph) → Store → List Happening
  | [], _ => []
  | (_, f) :: rest, s => f.disposeHappenings s ++ disposeFunctionsHappenings rest (f.dispose s).2

end

/-- The listed graphs are marked. -/
structure Marks (s t : Store) (new : List Happening) : Prop where
  size : t.graphs.size = s.graphs.size
  disposed : ∀ id, t.isDisposed id = true ↔ s.isDisposed id = true ∨ ∃ e ∈ new, e.graph = id
  change : ∀ e ∈ new, e.change = .disposed

theorem Marks.refl (s : Store) : Marks s s [] := ⟨rfl, fun id => by simp, List.forall_mem_nil _⟩

theorem Marks.append {s t u : Store} {new new' : List Happening} (h : Marks s t new)
    (h' : Marks t u new') : Marks s u (new ++ new') := by
  refine ⟨h'.size.trans h.size, fun id => ?_, List.forall_mem_append.mpr ⟨h.change, h'.change⟩⟩
  rw [h'.disposed, h.disposed, or_assoc]
  simp only [List.mem_append, or_and_right, exists_or]

mutual

/-- After disposing, the listed graphs are disposed as well. -/
theorem dispose_marks (g : Graph) (s : Store) (hids : ∀ id ∈ g.ids, id < s.graphs.size) :
    Marks s (g.dispose s).2 (g.disposeHappenings s) ∧
      ∀ e ∈ g.disposeHappenings s, e.graph ∈ g.ids := by
  obtain ⟨n, groups, functions, compiled⟩ := g
  rw [ids_eq, List.forall_mem_cons] at hids
  unfold dispose disposeHappenings
  simp only [bind, StateT.bind, get, getThe, MonadStateOf.get, StateT.get, pure]
  split
  · exact ⟨.refl s, List.forall_mem_nil _⟩
  · have hown : Marks s (unbindVariables n (s.setDisposed n.id true)).2 [⟨n.id, .disposed⟩] := by
      refine ⟨s.size_setDisposed _ _, fun id => ?_, List.forall_mem_singleton.mpr rfl⟩
      have hmark := s.isDisposed_setDisposed n.id id true fun _ => hids.1
      show (s.setDisposed n.id true).isDisposed id = true ↔ _
      rw [hmark]
      by_cases hid : id = n.id
      · simp [hid]
      · simp [hid, Ne.symm hid]
    obtain ⟨hrest, hnamed⟩ := disposeFunctions_marks functions
      (unbindVariables n (s.setDisposed n.id true)).2 (by rw [hown.size]; exact hids.2)
    refine ⟨hown.append hrest, List.forall_mem_cons.mpr ⟨?_, fun e he => ?_⟩⟩
    · exact List.mem_cons_self
    · exact List.mem_cons_of_mem _ (hnamed e he)

theorem disposeFunctions_marks (functions : List (String × Graph)) (s : Store)
    (hids : ∀ id ∈ ids.functionIds functions, id < s.graphs.size) :
    Marks s (disposeFunctions functions s).2 (disposeFunctionsHappenings functions s) ∧
      ∀ e ∈ disposeFunctionsHappenings functions s, e.graph ∈ ids.functionIds functions := by
  match functions with
  | [] => exact ⟨.refl s, List.forall_mem_nil _⟩
  | (name, f) :: rest =>
    unfold ids.functionIds at hids ⊢
    rw [List.forall_mem_append] at hids
    obtain ⟨hfirst, hnamed⟩ := dispose_marks f s hids.1
    obtain ⟨hrest, hnamed'⟩ := disposeFunctions_marks rest (f.dispose s).2
      (by rw [hfirst.size]; exact hids.2)
    refine ⟨hfirst.append hrest, List.forall_mem_append.mpr ⟨fun e he => ?_, fun e he => ?_⟩⟩
    · exact List.mem_append_left _ (hnamed e he)
    · exact List.mem_append_right _ (hnamed' e he)

end

theorem isDisposed_dispose (g : Graph) (s : Store) (hids : ∀ id ∈ g.ids, id < s.graphs.size) :
    (g.dispose s).2.isDisposed g.id = true := by
  obtain ⟨hmarks, _⟩ := g.dispose_marks s hids
  rw [hmarks.disposed]
  by_cases h : s.isDisposed g.id = true
  · exact .inl h
  · obtain ⟨n, groups, functions, compiled⟩ := g
    unfold disposeHappenings
    rw [if_neg h]
    exact .inr ⟨_, List.mem_cons_self, rfl⟩

end Graph
end FlowGraph
