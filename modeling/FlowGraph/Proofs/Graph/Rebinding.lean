import FlowGraph.Proofs.Graph.Owning

/-! # What compiling and disposing bind and unbind

    A compilation binds the variables of the blackboard and then those of the nodes, each to
    its source (`Graph.boundVariables_rewire`).  A variable of the blackboard has a source if
    it is flagged global and there is a global one of its name; a shared variable of a node
    has the first variable of its name on the blackboard.

    Such a variable of a node is bound to its source in the end, if that one has none itself
    (`Graph.boundVariables_shared`).  In general variables are joined to their sources if no
    chain of bindings from a global variable passes a loose variable on its way to one of the
    graph (`Graph.boundVariables_joined`). -/

namespace FlowGraph

/-- No chain of bindings is closed, and the variables in the table of globals are there. -/
structure Store.Bound (s : Store) : Prop where
  wellBound : s.vars.WellBound
  globals : ∀ name t, s.globals.find? name = some t → t < s.vars.cells.size

theorem Store.Bound.of_vars {s t : Store} (hs : s.Bound) (hvars : t.vars = s.vars)
    (hglobals : t.globals = s.globals) : t.Bound := by
  refine ⟨hvars ▸ hs.wellBound, fun name v hv => ?_⟩
  rw [hvars]
  rw [hglobals] at hv
  exact hs.globals name v hv

namespace Variables

variable {vs ws : Variables}

/-! ## Section 1: Sources -/

/-- What a variable of the blackboard is bound to. -/
def boardSource (globals : Globals) (vs : Variables) (v : VarId) : Option VarId :=
  (vs.find? v).bind fun x => if x.isGlobal then globals.find? x.name else none

/-- What a variable of a node is bound to. -/
def ownSource (globals : Globals) (board : Blackboard) (vs : Variables) (v : VarId) :
    Option VarId :=
  (vs.find? v).bind (ownTarget globals board vs)

variable {globals : Globals} {board : Blackboard}

theorem boardSource_congr {ids : Set VarId} (h : vs.Rewired ids ws) {v : VarId}
    (hv : v < vs.cells.size) : ws.boardSource globals v = vs.boardSource globals v := by
  have hlabel := h.label v hv
  unfold boardSource
  generalize vs.find? v = x, ws.find? v = y at hlabel
  cases x with
  | none =>
    rw [Option.map_eq_none_iff.mp hlabel]
  | some x =>
    obtain ⟨y, rfl, hy⟩ := Option.map_eq_some_iff.mp hlabel
    simp only [Variable.label, Prod.mk.injEq] at hy
    simp only [Option.bind_some, hy]

theorem ownSource_congr {ids : Set VarId} (h : vs.Rewired ids ws)
    (hboard : ∀ v ∈ board, v < vs.cells.size) {v : VarId} (hv : v < vs.cells.size) :
    ws.ownSource globals board v = vs.ownSource globals board v := by
  have hlabel := h.label v hv
  unfold ownSource ownTarget
  simp only [h.board hboard]
  generalize vs.find? v = x, ws.find? v = y at hlabel
  cases x with
  | none =>
    rw [Option.map_eq_none_iff.mp hlabel]
  | some x =>
    obtain ⟨y, rfl, hy⟩ := Option.map_eq_some_iff.mp hlabel
    simp only [Variable.label, Prod.mk.injEq] at hy
    simp only [Option.bind_some, hy]

/-- A source is a global variable or one of the blackboard. -/
theorem ownSource_cases {v t : VarId} (h : vs.ownSource globals board v = some t) :
    (∃ name, globals.find? name = some t) ∨ t ∈ board := by
  obtain ⟨x, _, htarget⟩ := Option.bind_eq_some_iff.mp h
  unfold ownTarget at htarget
  split at htarget
  · exact .inl ⟨_, htarget⟩
  · split at htarget
    · exact .inr (List.mem_of_find?_eq_some htarget)
    · cases htarget

theorem boardSource_cases {v t : VarId} (h : vs.boardSource globals v = some t) :
    ∃ name, globals.find? name = some t := by
  obtain ⟨x, _, htarget⟩ := Option.bind_eq_some_iff.mp h
  split at htarget
  · exact ⟨_, htarget⟩
  · cases htarget

/-- A variable is never bound to itself. -/
theorem bound_self (v : VarId) : vs.bound v v = vs := by
  have hreaches : vs.reaches v vs.cells.size v = true :=
    (reaches_iff_chase vs v _ v).mpr ⟨0, Nat.zero_le _, rfl⟩
  unfold bound bind
  rw [if_pos hreaches]

theorem boundGlobal_eq (v : VarId) :
    vs.boundGlobal globals v = (globals.find? (vs.nameOf v)).elim vs (vs.bound v) := by
  unfold boundGlobal
  cases globals.find? (vs.nameOf v) with
  | none => rfl
  | some w =>
    dsimp only [Option.elim]
    split
    · rfl
    · rename_i hsame
      rw [not_not.mp hsame, bound_self]

theorem rebound_eq_elim (v : VarId) (source : Option VarId) :
    vs.rebound v source = source.elim (vs.unbind v) ((vs.unbind v).bound v) := by
  cases source <;> rfl

theorem find?_unbind_self (v : VarId) :
    (vs.unbind v).find? v = (vs.find? v).map fun x => { x with target := none } := by
  unfold unbind
  rw [find?_modify, if_pos rfl]

theorem boundBoard_eq (v : VarId) :
    vs.boundBoard globals v = vs.rebound v (vs.boardSource globals v) := by
  unfold boundBoard
  rw [find?_unbind_self, rebound_eq_elim, boundGlobal_eq]
  unfold boardSource nameOf
  rw [find?_unbind_self]
  cases vs.find? v with
  | none => rfl
  | some x =>
    simp only [Option.map_some, Option.getD_some, Option.bind_some]
    split
    · rfl
    · rfl

theorem boundOwn_eq (v : VarId) :
    vs.boundOwn globals board v = vs.rebound v (vs.ownSource globals board v) := by
  have hboard : ∀ name, board.find? (vs.unbind v) name = board.find? vs name :=
    fun name => board_congr (fun u => nameOf_modify_target v u fun _ => none) name
  unfold boundOwn
  rw [find?_unbind_self, rebound_eq_elim, boundGlobal_eq]
  unfold ownSource ownTarget nameOf
  rw [find?_unbind_self]
  cases vs.find? v with
  | none => rfl
  | some x =>
    simp only [Option.map_some, Option.getD_some, Option.bind_some, hboard]
    split
    · rfl
    · split
      · cases board.find? vs x.name with
        | none => rfl
        | some w => rfl
      · rfl

/-- Binding does not change the sources. -/
theorem foldl_eq_rewire {step : Variables → VarId → Variables}
    {source : Variables → VarId → Option VarId} {f : VarId → Option VarId}
    (hstep : ∀ us v, step us v = us.rebound v (source us v)) (ids : List VarId)
    (hsource : ∀ us, vs.Rewired Set.univ us → ∀ v ∈ ids, source us v = f v) :
    ids.foldl step vs = vs.rewire f ids := by
  induction ids generalizing vs with
  | nil => rfl
  | cons v rest ih =>
    have hfirst : step vs v = vs.rebound v (f v) := by
      rw [hstep, hsource vs (.refl vs) v List.mem_cons_self]
    rw [List.foldl_cons, hfirst]
    refine ih fun us hus u hu => hsource us ?_ u (List.mem_cons_of_mem v hu)
    exact ((rewired_rebound v (f v)).mono (Set.subset_univ _)).trans hus

end Variables

namespace Graph

/-! ## Section 2: Networks -/

section Networks

open Variables

variable {globals : Globals} {n : Network} {vs : Variables}
  (hrange : ∀ v ∈ n.owned, v < vs.cells.size)

include hrange

theorem board_lt (v : VarId) (hv : v ∈ n.blackboard) : v < vs.cells.size :=
  hrange v (List.mem_append_left _ hv)

theorem own_lt (v : VarId) (hv : v ∈ (ownVariables n).map (·.2.2)) : v < vs.cells.size :=
  hrange v (List.mem_append_right _ hv)

/-- Each variable is bound to its source, those of the blackboard first. -/
theorem boundVariables_rewire : boundVariables globals n vs
    = (vs.rewire (vs.boardSource globals) n.blackboard).rewire
        (vs.ownSource globals n.blackboard) ((ownVariables n).map (·.2.2)) := by
  have hboard : n.blackboard.foldl (Variables.boundBoard globals) vs
      = vs.rewire (vs.boardSource globals) n.blackboard :=
    foldl_eq_rewire (fun us v => boundBoard_eq v) n.blackboard
      fun us hus v hv => boardSource_congr hus (board_lt hrange v hv)
  unfold boundVariables
  rw [hboard]
  refine foldl_eq_rewire (fun us v => boundOwn_eq v) _ fun us hus v hv => ?_
  have hall := ((vs.rewired_rewire (vs.boardSource globals) n.blackboard).mono
    (Set.subset_univ _)).trans hus
  exact ownSource_congr hall (board_lt hrange) (own_lt hrange v hv)

theorem boundVariables_rewired : vs.Rewired {v | v ∈ n.owned} (boundVariables globals n vs) := by
  rw [boundVariables_rewire hrange]
  exact ((rewired_rewire _ _ _).mono fun v hv => List.mem_append_left _ hv).trans
    ((rewired_rewire _ _ _).mono fun v hv => List.mem_append_right _ hv)

section Sources

variable (hglobals : ∀ name t, globals.find? name = some t → t < vs.cells.size)

include hglobals

omit hrange in
theorem boardSource_lt (v t : VarId) (h : vs.boardSource globals v = some t) :
    t < vs.cells.size := by
  obtain ⟨name, hname⟩ := boardSource_cases h
  exact hglobals name t hname

theorem ownSource_lt (v t : VarId) (h : vs.ownSource globals n.blackboard v = some t) :
    t < vs.cells.size := by
  rcases ownSource_cases h with ⟨name, hname⟩ | hboard
  · exact hglobals name t hname
  · exact board_lt hrange t hboard

variable (hvs : vs.WellBound)

include hvs

theorem boundVariables_wellBound : (boundVariables globals n vs).WellBound := by
  rw [boundVariables_rewire hrange]
  refine (hvs.rewire fun v _ => boardSource_lt hglobals v).rewire fun v _ t ht => ?_
  rw [size_rewire]
  exact ownSource_lt hrange hglobals v t ht

variable (hnodup : n.owned.Nodup)

include hnodup

/-- A variable of a node is bound to one of the blackboard that has no source itself. -/
theorem boundVariables_shared (v : VarId) (hv : v ∈ (ownVariables n).map (·.2.2)) (e : VarId)
    (he : e ∈ n.blackboard) (hsource : vs.ownSource globals n.blackboard v = some e)
    (hnone : vs.boardSource globals e = none) :
    (boundVariables globals n vs).targetOf v = some e := by
  obtain ⟨hboard, hown, hapart⟩ := List.nodup_append.mp hnodup
  rw [boundVariables_rewire hrange]
  refine targetOf_rewire_some (hvs.rewire fun u _ => boardSource_lt hglobals u) _ hown
    (fun u _ t ht => ?_) v hv ?_ e hsource (fun hin => hapart e he e hin rfl) ?_
  · rw [size_rewire]
    exact ownSource_lt hrange hglobals u t ht
  · rw [size_rewire]
    exact own_lt hrange v hv
  · exact targetOf_rewire_none _ hboard e he (board_lt hrange e he) hnone

/-- Variables are joined to their sources. -/
theorem boundVariables_joined {loose : Set VarId} (hloose : ∀ v ∈ n.owned, v ∈ loose)
    (hclear : ∀ name t, globals.find? name = some t → vs.Clear loose {v | v ∈ n.owned} t) :
    (∀ e ∈ n.blackboard, ∀ t, vs.boardSource globals e = some t →
      (boundVariables globals n vs).Joined (loose \ {v | v ∈ n.owned}) e t) ∧
    ∀ v ∈ (ownVariables n).map (·.2.2), ∀ t, vs.ownSource globals n.blackboard v = some t →
      (boundVariables globals n vs).Joined (loose \ {v | v ∈ n.owned}) v t := by
  obtain ⟨hboard, hown, hapart⟩ := List.nodup_append.mp hnodup
  let middle := vs.rewire (vs.boardSource globals) n.blackboard
  let rest := loose \ {v | v ∈ n.blackboard}
  have hends : loose \ {v | v ∈ n.owned} = rest \ {v | v ∈ (ownVariables n).map (·.2.2)} := by
    ext v
    simp only [rest, Set.mem_sdiff, Set.mem_ofPred_eq, Network.owned, List.mem_append, not_or,
      and_assoc]
  -- the variables of the blackboard are joined to theirs
  have hours : ∀ v ∈ n.blackboard, v ∈ {v | v ∈ n.owned} ∧ v ∈ loose ∧ v < vs.cells.size :=
    fun v hv => ⟨List.mem_append_left _ hv, hloose v (List.mem_append_left _ hv),
      board_lt hrange v hv⟩
  have hsources : ∀ v ∈ n.blackboard, ∀ t, vs.boardSource globals v = some t →
      t < vs.cells.size ∧ vs.Clear loose {v | v ∈ n.owned} t := by
    intro v _ t ht
    obtain ⟨name, hname⟩ := boardSource_cases ht
    exact ⟨hglobals name t hname, hclear name t hname⟩
  obtain ⟨hentries, hkept⟩ := rewire_joined hvs n.blackboard hboard hours hsources
  -- then those of the nodes
  have hsize : middle.cells.size = vs.cells.size := size_rewire _ _
  have hmiddle : middle.WellBound := hvs.rewire fun v _ => boardSource_lt hglobals v
  have hours' : ∀ v ∈ (ownVariables n).map (·.2.2),
      v ∈ {v | v ∈ n.owned} ∧ v ∈ rest ∧ v < middle.cells.size :=
    fun v hv => ⟨List.mem_append_right _ hv, ⟨hloose v (List.mem_append_right _ hv),
      fun hin => hapart v hin v hv rfl⟩, (own_lt hrange v hv).trans_eq hsize.symm⟩
  have hsources' : ∀ v ∈ (ownVariables n).map (·.2.2), ∀ t,
      vs.ownSource globals n.blackboard v = some t →
        t < middle.cells.size ∧ middle.Clear rest {v | v ∈ n.owned} t := by
    intro v _ t ht
    refine ⟨(ownSource_lt hrange hglobals v t ht).trans_eq hsize.symm, ?_⟩
    rcases ownSource_cases ht with ⟨name, hname⟩ | hin
    · exact hkept t (hclear name t hname)
    · exact (hentries t hin).1
  obtain ⟨hnodes, _⟩ := rewire_joined hmiddle _ hown hours' hsources'
  rw [boundVariables_rewire hrange, hends]
  refine ⟨fun e he t ht => ?_, fun v hv => (hnodes v hv).2⟩
  refine ((hentries e he).2 t ht).rewired ((rewired_rewire _ _ _).mono fun v hv => ?_)
    fun v _ hv => hv.1
  exact ⟨hloose v (List.mem_append_right _ hv), fun hin => hapart v hin v hv rfl⟩

end Sources
end Networks

/-! ## Section 3: Compiling -/

/-- Only bindings of some variables change. -/
structure Rebinds (old now : List VarId) (s t : Store) : Prop where
  owned : now = old
  globals : t.globals = s.globals
  table : s.Bound → (∀ v ∈ old, v < s.vars.cells.size) →
    s.vars.Rewired {v | v ∈ old} t.vars ∧ t.Bound

namespace Rebinds

variable {s t u : Store} {old now old' now' : List VarId}

theorem of_vars (ids : List VarId) (hvars : t.vars = s.vars) (hglobals : t.globals = s.globals) :
    Rebinds ids ids s t :=
  ⟨rfl, hglobals, fun hs _ => ⟨hvars ▸ .refl _, hs.of_vars hvars hglobals⟩⟩

theorem append (h : Rebinds old now s t) (h' : Rebinds old' now' t u) :
    Rebinds (old ++ old') (now ++ now') s u := by
  refine ⟨by rw [h.owned, h'.owned], h'.globals.trans h.globals, fun hs hrange => ?_⟩
  obtain ⟨hfirst, hsecond⟩ := List.forall_mem_append.mp hrange
  obtain ⟨hrewired, ht⟩ := h.table hs hfirst
  obtain ⟨hrewired', hu⟩ := h'.table ht fun v hv => (hsecond v hv).trans_le hrewired.size
  exact ⟨(hrewired.mono fun _ hv => List.mem_append_left _ hv).trans
    (hrewired'.mono fun _ hv => List.mem_append_right _ hv), hu⟩

/-- What does not touch the table afterwards. -/
theorem kept (h : Rebinds old now s t) (hvars : u.vars = t.vars) (hglobals : u.globals = t.globals) :
    Rebinds old now s u := by
  have hall := h.append (of_vars [] hvars hglobals)
  rwa [List.append_nil, List.append_nil] at hall

/-- The variables of a network are bound anew. -/
theorem network (n : Network) (hvars : t.vars = boundVariables s.globals n s.vars)
    (hglobals : t.globals = s.globals) : Rebinds n.owned n.owned s t := by
  refine ⟨rfl, hglobals, fun hs hrange => ?_⟩
  have hrewired : s.vars.Rewired {v | v ∈ n.owned} t.vars := by
    rw [hvars]
    exact boundVariables_rewired hrange
  refine ⟨hrewired, ?_, fun name v hv => ?_⟩
  · rw [hvars]
    exact boundVariables_wellBound hrange hs.globals hs.wellBound
  · rw [hglobals] at hv
    exact (hs.globals name v hv).trans_le hrewired.size

/-- Variables are unbound. -/
theorem unbound (ids : List VarId) (hvars : t.vars = s.vars.unbindAll ids)
    (hglobals : t.globals = s.globals) : Rebinds ids ids s t := by
  refine ⟨rfl, hglobals, fun hs hrange => ?_⟩
  have hrewired := s.vars.rewired_rewire (fun _ => none) ids
  have hwellBound : (s.vars.rewire (fun _ => none) ids).WellBound :=
    hs.wellBound.rewire fun _ _ _ h => by cases h
  have hunbound : t.vars = s.vars.rewire (fun _ => none) ids := hvars
  rw [← hunbound] at hrewired hwellBound
  refine ⟨hrewired, hwellBound, fun name v hv => ?_⟩
  rw [hglobals] at hv
  exact (hs.globals name v hv).trans_le hrewired.size

end Rebinds

/-- The variables of the network are bound anew, and then those of the functions. -/
structure CompileSteps (g k : Graph) (s t : Store) : Prop where
  blackboard : k.blackboard = g.blackboard
  own : ownVariables k.toNetwork = ownVariables g.toNetwork
  steps : ∃ u : Store, u.vars = boundVariables s.globals g.toNetwork s.vars ∧
    u.globals = s.globals ∧
    Rebinds (owned.functionsOwned g.functions) (owned.functionsOwned k.functions) u t

theorem CompileSteps.network_owned {g k : Graph} {s t : Store} (h : CompileSteps g k s t) :
    k.toNetwork.owned = g.toNetwork.owned := by
  unfold Network.owned
  rw [h.blackboard, h.own]

theorem CompileSteps.rebinds {g k : Graph} {s t : Store} (h : CompileSteps g k s t) :
    Rebinds g.owned k.owned s t := by
  obtain ⟨u, hvars, hglobals, hfunctions⟩ := h.steps
  have hall := (Rebinds.network g.toNetwork hvars hglobals).append hfunctions
  rwa [← owned_eq g, ← h.network_owned, ← owned_eq k] at hall

theorem prepare_vars (conversions : Conversions) (n : Network) (s : Store) :
    (prepare conversions n s).2.vars = boundVariables s.globals n s.vars ∧
      (prepare conversions n s).2.globals = s.globals := by
  obtain ⟨log, hbound⟩ := bindVariables_eq n (s.setDisposed n.id false)
  constructor
  · show (bindVariables n (s.setDisposed n.id false)).2.vars = _
    rw [hbound]
    rfl
  · show (bindVariables n (s.setDisposed n.id false)).2.globals = _
    rw [hbound]
    rfl

mutual

theorem compile_steps (conversions : Conversions) (g : Graph) (s : Store) :
    CompileSteps g (g.compile conversions s).1.1 s (g.compile conversions s).2 := by
  obtain ⟨n, groups, functions, compiled⟩ := g
  obtain ⟨hvars, hglobals⟩ := prepare_vars conversions n s
  obtain ⟨t, ht⟩ : ∃ t, prepare conversions n s
      = (((n.link conversions).1, (n.link conversions).2.1), t) := ⟨_, rfl⟩
  rw [ht] at hvars hglobals
  have hboard := n.link_blackboard conversions
  have hown := ownVariables_link n conversions
  unfold compile
  simp only [bind, StateT.bind, ht]
  cases hfind : findPaths (n.link conversions).1 with
  | error e => exact ⟨hboard, hown, t, hvars, hglobals, .of_vars _ rfl rfl⟩
  | ok m =>
    have hfunctions := compileFunctions_rebinds conversions m.name functions t
    obtain ⟨paths, rfl⟩ := findPaths_ok _ m hfind
    obtain ⟨fs, result, u, hcompiled⟩ : ∃ fs result u, compileFunctions conversions
        (n.link conversions).1.name functions t = ((fs, result), u) := ⟨_, _, _, rfl⟩
    rw [hcompiled] at hfunctions
    simp only [StateT.bind, hcompiled]
    cases result with
    | error e => exact ⟨hboard, hown, t, hvars, hglobals, hfunctions⟩
    | ok _ => exact ⟨hboard, hown, t, hvars, hglobals, hfunctions.kept rfl rfl⟩

theorem compileFunctions_rebinds (conversions : Conversions) (graph : String)
    (functions : List (String × Graph)) (s : Store) :
    Rebinds (owned.functionsOwned functions)
      (owned.functionsOwned (compileFunctions conversions graph functions s).1.1) s
      (compileFunctions conversions graph functions s).2 := by
  match functions with
  | [] => exact .of_vars [] rfl rfl
  | (name, f) :: rest =>
    have hfirst := (compile_steps conversions f s).rebinds
    obtain ⟨k, result, t, hcompile⟩ : ∃ k result t,
        f.compile conversions s = ((k, result), t) := ⟨_, _, _, rfl⟩
    have hrest := compileFunctions_rebinds conversions graph rest t
    rw [hcompile] at hfirst
    unfold compileFunctions
    simp only [bind, StateT.bind, hcompile]
    cases result with
    | error e => exact hfirst.append (.of_vars _ rfl rfl)
    | ok _ => exact hfirst.append hrest

end

/-! ## Section 4: Disposing -/

mutual

/-- Disposing unbinds variables that the graph owns. -/
theorem dispose_rebinds (g : Graph) (s : Store) : Rebinds g.owned g.owned s (g.dispose s).2 := by
  obtain ⟨n, groups, functions, compiled⟩ := g
  unfold dispose
  simp only [bind, StateT.bind, get, getThe, MonadStateOf.get, StateT.get, pure]
  split
  · exact .of_vars _ rfl rfl
  · have hfirst : Rebinds n.owned n.owned s { s.setDisposed n.id true with
        vars := s.vars.unbindAll n.owned } := .unbound _ rfl rfl
    exact hfirst.append (disposeFunctions_rebinds functions _)

theorem disposeFunctions_rebinds (functions : List (String × Graph)) (s : Store) :
    Rebinds (owned.functionsOwned functions) (owned.functionsOwned functions) s
      (disposeFunctions functions s).2 := by
  match functions with
  | [] => exact .of_vars [] rfl rfl
  | (name, f) :: rest =>
    exact (dispose_rebinds f s).append (disposeFunctions_rebinds rest (f.dispose s).2)

end

end Graph
end FlowGraph
