import FlowGraph.Proofs.Graph.Adding
import FlowGraph.Proofs.Graph.Recompiling
import FlowGraph.Proofs.Variable.Settling

/-! # What compiling and disposing do to the store

    All that matters of a graph for binding its variables are its rosters: the ids, the
    blackboards and the variables of the nodes of its network and of those of its functions
    (`Graph.rosters`).  A compilation unmarks the ids that it comes to, and carries out the plan
    of their variables (`Graph.compile_store`).  It comes to all of them if it succeeds
    (`Graph.reached_of_ok`).

    Disposing marks the ids that were not marked, and unbinds their variables
    (`Graph.dispose_store`). -/

namespace FlowGraph

/-! ## Section 1: Rosters -/

/-- What matters of a network for binding its variables. -/
structure Roster where
  id : GraphId
  board : Blackboard
  /-- The variables of its nodes. -/
  own : List VarId

/-- The variables of a roster, in the order in which they are bound. -/
def Roster.owned (r : Roster) : List VarId := r.board ++ r.own

def Network.roster (n : Network) : Roster :=
  ⟨n.id, n.blackboard, (Graph.ownVariables n).map (·.2.2)⟩

namespace Graph

/-- The rosters of a graph, its functions, their functions and so on. -/
def rosters : Graph → List Roster
  | ⟨n, _, functions, _⟩ => n.roster :: functionRosters functions
where
  /-- The rosters of functions. -/
  functionRosters : List (String × Graph) → List Roster
    | [] => []
    | (_, f) :: rest => f.rosters ++ functionRosters rest

theorem rosters_eq (g : Graph) :
    g.rosters = g.toNetwork.roster :: rosters.functionRosters g.functions := by
  obtain ⟨n, groups, functions, compiled⟩ := g
  unfold rosters
  rfl

theorem functionRosters_eq (functions : List (String × Graph)) :
    rosters.functionRosters functions = functions.flatMap (·.2.rosters) := by
  induction functions with
  | nil => rfl
  | cons first rest ih =>
    unfold rosters.functionRosters
    rw [ih, List.flatMap_cons]

theorem functionRosters_cons (name : String) (f : Graph) (rest : List (String × Graph)) :
    rosters.functionRosters ((name, f) :: rest)
      = f.rosters ++ rosters.functionRosters rest := by
  conv_lhs => unfold rosters.functionRosters

/-- The rosters are those of the graphs within. -/
theorem roster_mem_of_within {f g : Graph} (h : f.Within g) : f.toNetwork.roster ∈ g.rosters := by
  induction h with
  | self =>
    rw [rosters_eq]
    exact List.mem_cons_self
  | function g e he _ ih =>
    rw [rosters_eq, functionRosters_eq]
    exact List.mem_cons_of_mem _ (List.mem_flatMap.mpr ⟨e, he, ih⟩)

mutual

theorem ids_eq_rosters (g : Graph) : g.ids = g.rosters.map (·.id) := by
  obtain ⟨n, groups, functions, compiled⟩ := g
  unfold ids rosters
  rw [List.map_cons, functionIds_eq_rosters functions]
  rfl

theorem functionIds_eq_rosters (functions : List (String × Graph)) :
    ids.functionIds functions = (rosters.functionRosters functions).map (·.id) := by
  match functions with
  | [] => rfl
  | (name, f) :: rest =>
    unfold ids.functionIds rosters.functionRosters
    rw [List.map_append, ids_eq_rosters f, functionIds_eq_rosters rest]

end

mutual

theorem owned_eq_rosters (g : Graph) : g.owned = g.rosters.flatMap (·.owned) := by
  obtain ⟨n, groups, functions, compiled⟩ := g
  unfold owned rosters
  rw [List.flatMap_cons, functionsOwned_eq_rosters functions]
  rfl

theorem functionsOwned_eq_rosters (functions : List (String × Graph)) :
    owned.functionsOwned functions = (rosters.functionRosters functions).flatMap (·.owned) := by
  match functions with
  | [] => rfl
  | (name, f) :: rest =>
    unfold owned.functionsOwned rosters.functionRosters
    rw [List.flatMap_append, owned_eq_rosters f, functionsOwned_eq_rosters rest]

end

theorem roster_link (n : Network) (conversions : Conversions) :
    (n.link conversions).1.roster = n.roster := by
  unfold Network.roster
  rw [n.link_id, n.link_blackboard, ownVariables_link]

mutual

/-- Compiling changes no roster. -/
theorem rosters_compile (conversions : Conversions) (g : Graph) (s : Store) :
    (g.compile conversions s).1.1.rosters = g.rosters := by
  obtain ⟨n, groups, functions, compiled⟩ := g
  rw [compile_eq]
  cases hfind : findPaths (n.link conversions).1 with
  | error e =>
    rw [rosters_eq, rosters_eq]
    exact congrArg (· :: _) (roster_link n conversions)
  | ok m =>
    obtain ⟨paths, rfl⟩ := findPaths_ok _ m hfind
    have hroster : Network.roster { (n.link conversions).1 with paths } = n.roster :=
      roster_link n conversions
    have hfunctions := functionRosters_compile conversions (n.link conversions).1.name functions
      (prepare conversions n s).2
    dsimp only
    split <;> rw [rosters_eq, rosters_eq, hroster, hfunctions]

theorem functionRosters_compile (conversions : Conversions) (graph : String)
    (functions : List (String × Graph)) (s : Store) :
    rosters.functionRosters (compileFunctions conversions graph functions s).1.1
      = rosters.functionRosters functions := by
  match functions with
  | [] => rfl
  | (name, f) :: rest =>
    have hfirst := rosters_compile conversions f s
    rw [compileFunctions_cons]
    dsimp only
    split
    · rw [functionRosters_cons, functionRosters_cons, hfirst]
    · rw [functionRosters_cons, functionRosters_cons, hfirst,
        functionRosters_compile conversions graph rest]

end

end Graph

/-! ## Section 2: Marks -/

namespace Store

/-- Mark graphs as disposed or not. -/
def markAll (s : Store) (ids : List GraphId) (disposed : Bool) : Store :=
  ids.foldl (fun t id => t.setDisposed id disposed) s

theorem markAll_eq (s : Store) (ids : List GraphId) (disposed : Bool) :
    s.markAll ids disposed = { s with graphs := (s.markAll ids disposed).graphs } := by
  induction ids generalizing s with
  | nil => rfl
  | cons id rest ih => exact ih (s.setDisposed id disposed)

theorem getElem?_markAll (s : Store) (ids : List GraphId) (disposed : Bool) (i : Nat) :
    (s.markAll ids disposed).graphs[i]?
      = if i ∈ ids then (s.graphs[i]?).map fun x => { x with disposed } else s.graphs[i]? := by
  induction ids generalizing s with
  | nil => simp [markAll]
  | cons id rest ih =>
    show ((s.setDisposed id disposed).markAll rest disposed).graphs[i]? = _
    have hfirst : (s.setDisposed id disposed).graphs[i]?
        = if id = i then (s.graphs[i]?).map fun x => { x with disposed } else s.graphs[i]? :=
      Array.getElem?_modify
    rw [ih, hfirst]
    by_cases hid : id = i
    · subst hid
      cases s.graphs[id]? <;> simp
    · simp [hid, Ne.symm hid]

/-- Marks that are there are not changed. -/
theorem map_disposed_of_isDisposed (s : Store) (i : Nat) (disposed : Bool)
    (h : s.isDisposed i = disposed) :
    ((s.graphs[i]?).map fun x => { x with disposed }) = s.graphs[i]? := by
  unfold isDisposed at h
  cases hget : s.graphs[i]? with
  | none => rfl
  | some x =>
    rw [hget] at h
    subst h
    rfl

theorem markAll_of_unmarked (s : Store) (ids : List GraphId)
    (h : ∀ id ∈ ids, s.isDisposed id = false) : s.markAll ids false = s := by
  have hgraphs : (s.markAll ids false).graphs = s.graphs := by
    refine Array.ext_getElem? fun i => ?_
    rw [getElem?_markAll]
    split
    · rename_i hi
      exact s.map_disposed_of_isDisposed i false (h i hi)
    · rfl
  rw [markAll_eq, hgraphs]

/-- Marking graphs and unmarking them again. -/
theorem markAll_markAll (s : Store) (ids : List GraphId) (h : ∀ id ∈ ids, s.isDisposed id = false) :
    (s.markAll ids true).markAll ids false = s := by
  have hgraphs : ((s.markAll ids true).markAll ids false).graphs = s.graphs := by
    refine Array.ext_getElem? fun i => ?_
    rw [getElem?_markAll, getElem?_markAll]
    split
    · rename_i hi
      rw [Option.map_map]
      exact s.map_disposed_of_isDisposed i false (h i hi)
    · rfl
  rw [markAll_eq, hgraphs, markAll_eq s]

theorem markAll_withVars (s : Store) (vars : Variables) (ids : List GraphId) (disposed : Bool) :
    ({ s with vars }).markAll ids disposed = { s.markAll ids disposed with vars } := by
  induction ids generalizing s with
  | nil => rfl
  | cons id rest ih => exact ih (s.setDisposed id disposed)

theorem isDisposed_markAll_false (s : Store) (ids : List GraphId) (id : GraphId) (h : id ∈ ids) :
    (s.markAll ids false).isDisposed id = false := by
  unfold isDisposed
  rw [getElem?_markAll, if_pos h]
  cases s.graphs[id]? <;> rfl

end Store

/-! ## Section 3: What compiling does to the store -/

namespace Variables

variable {vs ws : Variables} (hcut : ws.cut = vs.cut)

include hcut

/-- Bindings do not matter for sources. -/
theorem boardSource_of_cut (globals : Globals) (v : VarId) :
    ws.boardSource globals v = vs.boardSource globals v := by
  have hsource : ∀ us : Variables, us.boardSource globals v
      = (us.cut.find? v).bind fun x => if x.isGlobal then globals.find? x.name else none := by
    intro us
    rw [find?_cut, Option.bind_map]
    rfl
  rw [hsource ws, hcut, ← hsource vs]

theorem find?_of_cut (board : Blackboard) (name : String) :
    board.find? ws name = board.find? vs name := by
  have hname : ∀ us : Variables, ∀ v, us.nameOf v = us.cut.nameOf v := by
    intro us v
    unfold nameOf
    rw [find?_cut, Option.map_map]
    rfl
  unfold Blackboard.find?
  exact List.find?_congr fun v _ => by rw [hname ws, hcut, ← hname vs]

theorem ownSource_of_cut (globals : Globals) (board : Blackboard) (v : VarId) :
    ws.ownSource globals board v = vs.ownSource globals board v := by
  have hsource : ∀ us : Variables, us.ownSource globals board v
      = (us.cut.find? v).bind (ownTarget globals board us) := by
    intro us
    rw [find?_cut, Option.bind_map]
    rfl
  have htarget : ownTarget globals board ws = ownTarget globals board vs := by
    funext x
    unfold ownTarget
    rw [find?_of_cut hcut]
  rw [hsource ws, hcut, htarget, ← hsource vs]

end Variables

/-- The variables of a roster with their sources. -/
def Roster.plan (globals : Globals) (vs : Variables) (r : Roster) : Plan :=
  r.board.map (fun v => (v, vs.boardSource globals v))
    ++ r.own.map fun v => (v, vs.ownSource globals r.board v)

namespace Roster

theorem ids_plan (globals : Globals) (vs : Variables) (r : Roster) :
    (r.plan globals vs).ids = r.owned := by
  unfold Plan.ids plan owned
  rw [List.map_append, List.map_map, List.map_map]
  simp [Function.comp_def]

theorem plan_of_cut {vs ws : Variables} (hcut : ws.cut = vs.cut) (globals : Globals) (r : Roster) :
    r.plan globals ws = r.plan globals vs := by
  unfold plan
  simp only [Variables.boardSource_of_cut hcut, Variables.ownSource_of_cut hcut]

end Roster

namespace Store

/-- Bind the variables of a roster, and unmark its id. -/
def prepared (s : Store) (r : Roster) : Store :=
  { s.setDisposed r.id false with vars := s.vars.carryOut (r.plan s.globals s.vars) }

def preparedAll (s : Store) (rs : List Roster) : Store := rs.foldl prepared s

/-- The variables of rosters with their sources. -/
def planOf (s : Store) (rs : List Roster) : Plan := rs.flatMap (·.plan s.globals s.vars)

theorem planOf_cons (s : Store) (r : Roster) (rs : List Roster) :
    s.planOf (r :: rs) = r.plan s.globals s.vars ++ s.planOf rs := List.flatMap_cons

theorem planOf_congr {s t : Store} (hcut : t.vars.cut = s.vars.cut)
    (hglobals : t.globals = s.globals) (rs : List Roster) : t.planOf rs = s.planOf rs := by
  unfold planOf
  rw [hglobals]
  simp only [Roster.plan_of_cut hcut]

theorem preparedAll_append (s : Store) (rs rs' : List Roster) :
    s.preparedAll (rs ++ rs') = (s.preparedAll rs).preparedAll rs' := List.foldl_append

theorem preparedAll_withLog (s : Store) (rs : List Roster) (log : Log) :
    (s.withLog log).preparedAll rs = (s.preparedAll rs).withLog log := by
  induction rs generalizing s with
  | nil => rfl
  | cons r rest ih => exact ih (s.prepared r)

/-- The plan of all rosters is carried out, and all their ids are unmarked. -/
theorem preparedAll_eq (s : Store) (rs : List Roster) : s.preparedAll rs
    = { s.markAll (rs.map (·.id)) false with vars := s.vars.carryOut (s.planOf rs) } := by
  induction rs generalizing s with
  | nil => rfl
  | cons r rest ih =>
    have hcut : (s.prepared r).vars.cut = s.vars.cut := Variables.cut_carryOut _
    show (s.prepared r).preparedAll rest = _
    rw [ih, planOf_congr hcut rfl, planOf_cons, Variables.carryOut_append]
    unfold prepared
    rw [markAll_withVars]
    rfl

theorem cut_preparedAll (s : Store) (rs : List Roster) :
    (s.preparedAll rs).vars.cut = s.vars.cut := by
  rw [preparedAll_eq]
  exact Variables.cut_carryOut _

end Store

namespace Graph

mutual

/-- The rosters that a compilation comes to: it stops at a function that cannot be compiled. -/
def reached (conversions : Conversions) : Graph → List Roster
  | ⟨n, _, functions, _⟩ =>
    n.roster ::
      match findPaths (n.link conversions).1 with
      | .error _ => []
      | .ok _ => functionsReached conversions functions

/-- The rosters that compiling functions comes to. -/
def functionsReached (conversions : Conversions) : List (String × Graph) → List Roster
  | [] => []
  | (_, f) :: rest =>
    f.reached conversions ++
      match (f.compile conversions default).1.2 with
      | .error _ => []
      | .ok _ => functionsReached conversions rest

end

theorem functionsReached_cons (conversions : Conversions) (name : String) (f : Graph)
    (rest : List (String × Graph)) (s : Store) :
    functionsReached conversions ((name, f) :: rest) = f.reached conversions ++
      match (f.compile conversions s).1.2 with
      | .error _ => []
      | .ok _ => functionsReached conversions rest := by
  rw [compile_graph_congr conversions f default s]
  conv_lhs => unfold functionsReached

/-- The variables of rosters are in the table. -/
def Housed (rs : List Roster) (vs : Variables) : Prop :=
  ∀ r ∈ rs, ∀ v ∈ r.owned, v < vs.cells.size

theorem prepare_store (conversions : Conversions) (n : Network) (s : Store)
    (hroom : ∀ v ∈ n.owned, v < s.vars.cells.size) :
    ∃ log, (prepare conversions n s).2 = (s.prepared n.roster).withLog log := by
  obtain ⟨log, hbind⟩ := bindVariables_eq n (s.setDisposed n.id false)
  have hvars : boundVariables s.globals n s.vars
      = s.vars.carryOut (n.roster.plan s.globals s.vars) := by
    rw [boundVariables_rewire hroom, Variables.rewire_eq_carryOut, Variables.rewire_eq_carryOut,
      ← Variables.carryOut_append]
    rfl
  refine ⟨log ++ (n.link conversions).2.2.toArray, ?_⟩
  have hprepare : (prepare conversions n s).2
      = (bindVariables n (s.setDisposed n.id false)).2.reportAll (n.link conversions).2.2 := rfl
  have hprepared : s.prepared n.roster
      = { s.setDisposed n.id false with vars := boundVariables s.globals n s.vars } := by
    rw [hvars]
    rfl
  rw [hprepare, hbind, hprepared]
  rfl

mutual

/-- **What a compilation does to the store.** -/
theorem compile_store (conversions : Conversions) (g : Graph) (s : Store)
    (hroom : Housed g.rosters s.vars) :
    ∃ log, (g.compile conversions s).2
      = (s.preparedAll (g.reached conversions)).withLog log := by
  obtain ⟨n, groups, functions, compiled⟩ := g
  rw [rosters_eq] at hroom
  obtain ⟨hown, hothers⟩ := List.forall_mem_cons.mp hroom
  obtain ⟨log, hprepare⟩ := prepare_store conversions n s hown
  rw [compile_eq]
  unfold reached
  cases hfind : findPaths (n.link conversions).1 with
  | error e =>
    dsimp only
    rw [hprepare]
    exact ⟨_, rfl⟩
  | ok m =>
    have hcut : (s.prepared n.roster).vars.cut = s.vars.cut := Variables.cut_carryOut _
    have hlater : Housed (rosters.functionRosters functions) (prepare conversions n s).2.vars := by
      rw [hprepare]
      intro r hr v hv
      exact (hothers r hr v hv).trans_eq (Variables.size_of_cut hcut).symm
    obtain ⟨log', hfunctions⟩ := compileFunctions_store conversions m.name functions
      (prepare conversions n s).2 hlater
    dsimp only
    rw [hfunctions, hprepare, Store.preparedAll_withLog]
    split
    · exact ⟨_, rfl⟩
    · exact ⟨_, rfl⟩

theorem compileFunctions_store (conversions : Conversions) (graph : String)
    (functions : List (String × Graph)) (s : Store)
    (hroom : Housed (rosters.functionRosters functions) s.vars) :
    ∃ log, (compileFunctions conversions graph functions s).2
      = (s.preparedAll (functionsReached conversions functions)).withLog log := by
  match functions with
  | [] => exact ⟨s.log, by unfold functionsReached; rfl⟩
  | (name, f) :: rest =>
    rw [functionRosters_cons] at hroom
    obtain ⟨hown, hothers⟩ := List.forall_mem_append.mp hroom
    obtain ⟨log, hfirst⟩ := compile_store conversions f s hown
    rw [compileFunctions_cons, functionsReached_cons conversions name f rest s]
    cases hresult : (f.compile conversions s).1.2 with
    | error e =>
      dsimp only
      rw [hresult, List.append_nil, hfirst]
      exact ⟨_, rfl⟩
    | ok _ =>
      have hlater : Housed (rosters.functionRosters rest) (f.compile conversions s).2.vars := by
        rw [hfirst]
        intro r hr v hv
        exact (hothers r hr v hv).trans_eq
          (Variables.size_of_cut (s.cut_preparedAll (f.reached conversions))).symm
      obtain ⟨log', hrest⟩ := compileFunctions_store conversions graph rest
        (f.compile conversions s).2 hlater
      dsimp only
      rw [hresult, Store.preparedAll_append]
      dsimp only
      rw [hrest, hfirst, Store.preparedAll_withLog]
      exact ⟨_, rfl⟩

end

mutual

/-- A compilation without errors comes to all rosters. -/
theorem reached_of_ok (conversions : Conversions) (g : Graph) (s : Store)
    (hok : (g.compile conversions s).1.2 = .ok ()) : g.reached conversions = g.rosters := by
  obtain ⟨n, groups, functions, compiled⟩ := g
  rw [compile_eq] at hok
  rw [rosters_eq]
  unfold reached
  cases hfind : findPaths (n.link conversions).1 with
  | error e =>
    rw [hfind] at hok
    cases hok
  | ok m =>
    rw [hfind] at hok
    dsimp only at hok
    split at hok
    · cases hok
    · rename_i hresult
      exact congrArg _ (functionsReached_of_ok conversions m.name functions _ hresult)

theorem functionsReached_of_ok (conversions : Conversions) (graph : String)
    (functions : List (String × Graph)) (s : Store)
    (hok : (compileFunctions conversions graph functions s).1.2 = .ok ()) :
    functionsReached conversions functions = rosters.functionRosters functions := by
  match functions with
  | [] => unfold functionsReached; rfl
  | (name, f) :: rest =>
    rw [compileFunctions_cons] at hok
    rw [functionsReached_cons conversions name f rest s, functionRosters_cons]
    dsimp only at hok
    split at hok
    · cases hok
    · rename_i hresult
      rw [hresult, reached_of_ok conversions f s hresult,
        functionsReached_of_ok conversions graph rest _ hok]

end

mutual

/-- A compilation comes to no other rosters. -/
theorem reached_sublist (conversions : Conversions) (g : Graph) :
    (g.reached conversions).Sublist g.rosters := by
  obtain ⟨n, groups, functions, compiled⟩ := g
  rw [rosters_eq]
  unfold reached
  refine List.Sublist.cons_cons _ ?_
  split
  · exact List.nil_sublist _
  · exact functionsReached_sublist conversions functions

theorem functionsReached_sublist (conversions : Conversions) (functions : List (String × Graph)) :
    (functionsReached conversions functions).Sublist (rosters.functionRosters functions) := by
  match functions with
  | [] =>
    unfold functionsReached
    exact List.nil_sublist _
  | (name, f) :: rest =>
    rw [functionsReached_cons conversions name f rest default, functionRosters_cons]
    refine (reached_sublist conversions f).append ?_
    split
    · exact List.nil_sublist _
    · exact functionsReached_sublist conversions rest

end

mutual

/-- What was compiled is compiled up to the same roster. -/
theorem reached_compiled (conversions : Conversions) (g : Graph) (s : Store) :
    (g.compile conversions s).1.1.reached conversions = g.reached conversions := by
  obtain ⟨n, groups, functions, compiled⟩ := g
  rw [compile_eq]
  conv_rhs => unfold reached
  cases hfind : findPaths (n.link conversions).1 with
  | error e =>
    dsimp only
    unfold reached
    rw [n.link_link, hfind, roster_link]
  | ok m =>
    obtain ⟨paths, rfl⟩ := findPaths_ok _ m hfind
    have hlink : ({ (n.link conversions).1 with paths } : Network).link conversions
        = ({ (n.link conversions).1 with paths }, (n.link conversions).2) := by
      rw [Network.link_withPaths, n.link_link]
    have hroster : Network.roster { (n.link conversions).1 with paths } = n.roster :=
      roster_link n conversions
    have hfunctions := functionsReached_compiled conversions (n.link conversions).1.name functions
      (prepare conversions n s).2
    dsimp only
    split
    all_goals
      unfold reached
      rw [hlink, hroster]
      dsimp only
      rw [findPaths_found hfind]
      exact congrArg _ hfunctions

theorem functionsReached_compiled (conversions : Conversions) (graph : String)
    (functions : List (String × Graph)) (s : Store) :
    functionsReached conversions (compileFunctions conversions graph functions s).1.1
      = functionsReached conversions functions := by
  match functions with
  | [] => rfl
  | (name, f) :: rest =>
    have hfirst := reached_compiled conversions f s
    have hsame := compile_compiled conversions f s s
    rw [compileFunctions_cons, functionsReached_cons conversions name f rest s]
    dsimp only
    cases hresult : (f.compile conversions s).1.2 with
    | error e =>
      dsimp only
      rw [functionsReached_cons conversions name _ rest s, hfirst, hsame, hresult]
    | ok _ =>
      dsimp only
      rw [functionsReached_cons conversions name _ _ s, hfirst, hsame, hresult,
        functionsReached_compiled conversions graph rest]

end

end Graph

/-! ## Section 4: What disposing does to the store -/

namespace Store

theorem isDisposed_markAll_of_notMem (s : Store) (ids : List GraphId) (disposed : Bool)
    {id : GraphId} (h : id ∉ ids) : (s.markAll ids disposed).isDisposed id = s.isDisposed id := by
  unfold isDisposed
  rw [getElem?_markAll, if_neg h]

/-- Unbind the variables of a roster, and mark its id. -/
def released (s : Store) (r : Roster) : Store :=
  { s.setDisposed r.id true with vars := s.vars.unbindAll r.owned }

def releasedAll (s : Store) (rs : List Roster) : Store := rs.foldl released s

theorem releasedAll_append (s : Store) (rs rs' : List Roster) :
    s.releasedAll (rs ++ rs') = (s.releasedAll rs).releasedAll rs' := List.foldl_append

theorem releasedAll_eq (s : Store) (rs : List Roster) : s.releasedAll rs
    = { s.markAll (rs.map (·.id)) true with vars := s.vars.unbindAll (rs.flatMap (·.owned)) } := by
  induction rs generalizing s with
  | nil => rfl
  | cons r rest ih =>
    have hunbind : s.vars.unbindAll ((r :: rest).flatMap (·.owned))
        = (s.vars.unbindAll r.owned).unbindAll (rest.flatMap (·.owned)) := by
      rw [List.flatMap_cons]
      exact List.foldl_append
    show (s.released r).releasedAll rest = _
    rw [ih, hunbind]
    unfold released
    rw [markAll_withVars]
    rfl

theorem isDisposed_releasedAll (s : Store) (rs : List Roster) {id : GraphId}
    (h : id ∉ rs.map (·.id)) : (s.releasedAll rs).isDisposed id = s.isDisposed id := by
  rw [releasedAll_eq]
  exact s.isDisposed_markAll_of_notMem _ true h

end Store

namespace Graph

mutual

/-- The rosters of a graph and of its functions, without those that are disposed and what is
    behind them. -/
def undisposed (s : Store) : Graph → List Roster
  | ⟨n, _, functions, _⟩ =>
    if s.isDisposed n.id then [] else n.roster :: functionsUndisposed s functions

/-- The rosters of functions, without those that are disposed and what is behind them. -/
def functionsUndisposed (s : Store) : List (String × Graph) → List Roster
  | [] => []
  | (_, f) :: rest => f.undisposed s ++ functionsUndisposed s rest

end

theorem functionsUndisposed_cons (s : Store) (name : String) (f : Graph)
    (rest : List (String × Graph)) :
    functionsUndisposed s ((name, f) :: rest)
      = f.undisposed s ++ functionsUndisposed s rest := by
  conv_lhs => unfold functionsUndisposed

mutual

theorem undisposed_sublist (s : Store) (g : Graph) : (g.undisposed s).Sublist g.rosters := by
  obtain ⟨n, groups, functions, compiled⟩ := g
  rw [rosters_eq]
  unfold undisposed
  split
  · exact List.nil_sublist _
  · exact List.Sublist.cons_cons _ (functionsUndisposed_sublist s functions)

theorem functionsUndisposed_sublist (s : Store) (functions : List (String × Graph)) :
    (functionsUndisposed s functions).Sublist (rosters.functionRosters functions) := by
  match functions with
  | [] =>
    unfold functionsUndisposed
    exact List.nil_sublist _
  | (name, f) :: rest =>
    rw [functionsUndisposed_cons, functionRosters_cons]
    exact (undisposed_sublist s f).append (functionsUndisposed_sublist s rest)

end

section Congruence

variable {s t : Store}

mutual

/-- Only the marks of the graphs within matter. -/
theorem undisposed_congr (g : Graph)
    (h : ∀ r ∈ g.rosters, t.isDisposed r.id = s.isDisposed r.id) :
    g.undisposed t = g.undisposed s := by
  obtain ⟨n, groups, functions, compiled⟩ := g
  rw [rosters_eq] at h
  obtain ⟨hown, hothers⟩ := List.forall_mem_cons.mp h
  have hid : t.isDisposed n.id = s.isDisposed n.id := hown
  unfold undisposed
  rw [hid, functionsUndisposed_congr functions hothers]

theorem functionsUndisposed_congr (functions : List (String × Graph))
    (h : ∀ r ∈ rosters.functionRosters functions, t.isDisposed r.id = s.isDisposed r.id) :
    functionsUndisposed t functions = functionsUndisposed s functions := by
  match functions with
  | [] =>
    unfold functionsUndisposed
    rfl
  | (name, f) :: rest =>
    rw [functionRosters_cons] at h
    obtain ⟨hfirst, hrest⟩ := List.forall_mem_append.mp h
    rw [functionsUndisposed_cons, functionsUndisposed_cons, undisposed_congr f hfirst,
      functionsUndisposed_congr rest hrest]

end

mutual

/-- If no graph within is disposed there is nothing to leave out. -/
theorem undisposed_eq_rosters (g : Graph) (h : ∀ r ∈ g.rosters, s.isDisposed r.id = false) :
    g.undisposed s = g.rosters := by
  obtain ⟨n, groups, functions, compiled⟩ := g
  rw [rosters_eq] at h ⊢
  obtain ⟨hown, hothers⟩ := List.forall_mem_cons.mp h
  have hid : ¬ s.isDisposed n.id = true := by
    rw [Bool.not_eq_true]
    exact hown
  unfold undisposed
  rw [if_neg hid, functionsUndisposed_eq_rosters functions hothers]

theorem functionsUndisposed_eq_rosters (functions : List (String × Graph))
    (h : ∀ r ∈ rosters.functionRosters functions, s.isDisposed r.id = false) :
    functionsUndisposed s functions = rosters.functionRosters functions := by
  match functions with
  | [] =>
    unfold functionsUndisposed
    rfl
  | (name, f) :: rest =>
    rw [functionRosters_cons] at h ⊢
    obtain ⟨hfirst, hrest⟩ := List.forall_mem_append.mp h
    rw [functionsUndisposed_cons, undisposed_eq_rosters f hfirst,
      functionsUndisposed_eq_rosters rest hrest]

end

end Congruence

mutual

/-- **What disposing does to the store.** -/
theorem dispose_store (g : Graph) (s : Store) (hnodup : (g.rosters.map (·.id)).Nodup) :
    (g.dispose s).2 = s.releasedAll (g.undisposed s) := by
  obtain ⟨n, groups, functions, compiled⟩ := g
  rw [rosters_eq, List.map_cons, List.nodup_cons] at hnodup
  unfold dispose undisposed
  simp only [bind, StateT.bind, get, getThe, MonadStateOf.get, StateT.get, pure]
  split
  · rfl
  · have hfirst : (unbindVariables n (s.setDisposed n.id true)).2 = s.released n.roster := rfl
    -- the mark of the graph is not one of its functions
    have hothers : ∀ r ∈ rosters.functionRosters functions,
        (s.released n.roster).isDisposed r.id = s.isDisposed r.id := by
      intro r hr
      refine s.isDisposed_releasedAll [n.roster] fun hin => hnodup.1 ?_
      rw [List.map_singleton, List.mem_singleton] at hin
      rw [← hin]
      exact List.mem_map_of_mem hr
    have hrest := disposeFunctions_store functions (s.released n.roster) hnodup.2
    rw [functionsUndisposed_congr functions hothers] at hrest
    exact hrest

theorem disposeFunctions_store (functions : List (String × Graph)) (s : Store)
    (hnodup : ((rosters.functionRosters functions).map (·.id)).Nodup) :
    (disposeFunctions functions s).2 = s.releasedAll (functionsUndisposed s functions) := by
  match functions with
  | [] =>
    unfold functionsUndisposed
    rfl
  | (name, f) :: rest =>
    rw [functionRosters_cons, List.map_append, List.nodup_append] at hnodup
    obtain ⟨hfirst, hrest, hapart⟩ := hnodup
    have hothers : ∀ r ∈ rosters.functionRosters rest,
        (s.releasedAll (f.undisposed s)).isDisposed r.id = s.isDisposed r.id := by
      intro r hr
      refine s.isDisposed_releasedAll _ fun hin => ?_
      exact hapart _ (((undisposed_sublist s f).map _).subset hin) _ (List.mem_map_of_mem hr) rfl
    have hdisposed := disposeFunctions_store rest (s.releasedAll (f.undisposed s)) hrest
    rw [functionsUndisposed_congr rest hothers] at hdisposed
    rw [functionsUndisposed_cons, Store.releasedAll_append, ← hdisposed]
    show (disposeFunctions rest (f.dispose s).2).2 = _
    rw [dispose_store f s hfirst]

end

/-- A disposed graph is left as it is. -/
theorem dispose_of_disposed (g : Graph) (s : Store) (h : s.isDisposed g.id = true) :
    (g.dispose s).2 = s := by
  obtain ⟨n, groups, functions, compiled⟩ := g
  unfold dispose
  simp only [bind, StateT.bind, get, getThe, MonadStateOf.get, StateT.get, pure]
  rw [if_pos h]
  rfl

end Graph

end FlowGraph
