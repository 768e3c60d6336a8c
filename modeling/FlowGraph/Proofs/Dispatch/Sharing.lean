import FlowGraph.Dispatch.Execution
import FlowGraph.Proofs.Dispatch.Wired

/-! # Setting a variable and getting it

    A graph that can be run was compiled, and what a host did since left the bindings of its
    variables as they were (`Host.LastCompiled`).  So the nodes that follow a name of the
    blackboard all use one cell, and if the entry of this name was bound to the table of
    globals then the cell is that of the table (`Host.Sourced`).  A value that one of the nodes
    sets is the one that the others get, until the cell is written again
    (`Host.set_then_get`).

    What is bound to the table is bound as the graph is compiled only if no binding is in the
    way that the same compilation drops a little later (`Host.Clear`).  Otherwise the binding is
    refused although it would close no cycle in the end (`Host.crossing_apart`). -/

namespace FlowGraph

open Relation

namespace Variables

variable {vs ws : Variables}

/-! ## Section 1: One cell -/

/-- A variable that nodes bind to the blackboard by name. -/
def Follows (vs : Variables) (v : VarId) (name : String) : Prop :=
  ∃ x, vs.find? v = some x ∧ x.name = name ∧ x.isShared = true ∧ x.isGlobal = false

theorem follows_iff (v : VarId) (name : String) :
    vs.Follows v name ↔ (vs.find? v).map Variable.label = some (name, true, false) := by
  simp only [Follows, Option.map_eq_some_iff, Variable.label, Prod.mk.injEq]

theorem follows_congr {ids : Set VarId} (h : vs.Rewired ids ws) {v : VarId}
    (hv : v < vs.cells.size) (name : String) : ws.Follows v name ↔ vs.Follows v name := by
  rw [follows_iff, follows_iff, h.label v hv]

/-- The source of such a variable is on the blackboard. -/
theorem ownSource_of_follows {globals : Globals} {board : Blackboard} {v : VarId} {name : String}
    (h : vs.Follows v name) : vs.ownSource globals board v = board.find? vs name := by
  obtain ⟨x, hx, rfl, hshared, hglobal⟩ := h
  unfold ownSource ownTarget
  simp [hx, hshared, hglobal]

/-- Variables that are not there are not in a cell of those that are. -/
theorem lt_of_root_eq (hvs : vs.WellBound) {v u : VarId} (hu : u < vs.cells.size)
    (h : vs.root v = vs.root u) : v < vs.cells.size := by
  by_contra hv
  have hunbound : vs.targetOf v = none := by
    have hgone : vs.find? v = none := Array.getElem?_eq_none (Nat.le_of_not_lt hv)
    simp [targetOf, hgone]
  rw [root_of_unbound hvs v hunbound] at h
  exact hv (h ▸ root_lt hvs u hu)

/-- Where no binding changes the roots are the same. -/
theorem root_of_rewired (h : vs.Rewired ∅ ws) (hvs : vs.WellBound) (hws : ws.WellBound) {v : VarId}
    (hv : v < vs.cells.size) : ws.root v = vs.root v := by
  have hchain : ReflTransGen vs.Forwards v (vs.root v) := vs.reflTransGen_chase _ v
  have hstays : ∀ a t, vs.Forwards a t → ws.Forwards a t := fun a t hat =>
    (h.target a (Forwards.lt hat) (Set.notMem_empty a)).trans hat
  obtain ⟨n, hn⟩ := ws.exists_chase (ReflTransGen.mono hstays _ _ hchain)
  have hend : ws.targetOf (vs.root v) = none := by
    rw [h.target _ (root_lt hvs v hv) (Set.notMem_empty _)]
    exact targetOf_root hvs v
  rw [← hn, chase_eq_root hws n v (hn ▸ hend)]

/-- The operation makes a variable, or it writes another cell. -/
def Operation.Misses (vs : Variables) (cell : VarId) : Operation → Prop
  | .set v _ => vs.root v ≠ cell
  | .copy _ => True
  | .bind _ _ => False
  | .unbind _ => False

theorem apply_of_misses (op : Operation) {cell : VarId} (h : op.Misses vs cell) :
    vs.apply op = vs ∨
      (∃ v a, v < vs.cells.size ∧ vs.root v ≠ cell ∧ vs.apply op = vs.set v a) ∨
      ∃ x : Variable, x.target = none ∧ vs.apply op = (vs.add x).2 := by
  unfold apply
  split
  · rename_i hthere
    cases op with
    | bind v target => exact h.elim
    | unbind v => exact h.elim
    | set v a => exact .inr (.inl ⟨v, a, hthere v (by simp [Operation.operands]), h, rfl⟩)
    | copy v =>
      obtain ⟨x, _, hcopy⟩ := vs.copy_eq (hthere v (by simp [Operation.operands]))
      exact .inr (.inr ⟨{ x with stored := vs.get v, target := none }, rfl,
        congrArg Prod.snd hcopy⟩)
  · exact .inl rfl

/-- Such an operation changes no root, no variable goes, and the cell keeps its value. -/
theorem apply_misses (hvs : vs.WellBound) (op : Operation) {cell : VarId}
    (hcell : cell < vs.cells.size) (h : op.Misses vs cell) :
    (∀ u, (vs.apply op).root u = vs.root u) ∧ vs.cells.size ≤ (vs.apply op).cells.size ∧
      (vs.apply op).own cell = vs.own cell := by
  rcases apply_of_misses op h with heq | ⟨v, a, hv, hne, heq⟩ | ⟨x, hx, heq⟩ <;> rw [heq]
  · exact ⟨fun _ => rfl, le_rfl, rfl⟩
  · refine ⟨fun u => root_set hvs v u a, (vs.rewired_set v a).size, ?_⟩
    rw [own_set _ _ _ _ (root_lt hvs v hv), if_neg hne.symm]
  · refine ⟨root_add hvs x hx, (vs.rewired_add x hx).size, ?_⟩
    rw [own_add, if_neg hcell.ne]

/-- What misses a cell leaves the value of its variables. -/
theorem get_run (hvs : vs.WellBound) (ops : List Operation) {v : VarId} (hv : v < vs.cells.size)
    (hops : ∀ op ∈ ops, op.Misses vs (vs.root v)) : (vs.run ops).get v = vs.get v := by
  induction ops generalizing vs with
  | nil => rfl
  | cons op rest ih =>
    obtain ⟨hroot, hsize, hown⟩ :=
      apply_misses hvs op (root_lt hvs v hv) (hops op List.mem_cons_self)
    show ((vs.apply op).run rest).get v = vs.get v
    rw [ih (hvs.apply op) (hv.trans_le hsize) ?_, get_eq_own, hroot, hown, get_eq_own]
    -- the others miss the cell after this one, too
    intro o ho
    have hmiss := hops o (List.mem_cons_of_mem op ho)
    rw [hroot]
    cases o with
    | set u a => exact (hroot u).trans_ne hmiss
    | copy u => trivial
    | bind u target => exact hmiss.elim
    | unbind u => exact hmiss.elim

end Variables

namespace Globals

variable (globals : Globals)

theorem find?_remove (name other : String) :
    (globals.remove name).2.find? other = if other = name then none else globals.find? other := by
  unfold remove find?
  dsimp only
  rw [List.find?_filter]
  split
  · rename_i heq
    subst heq
    simp
  · rename_i hne
    congr 2
    funext e
    by_cases he : e.1 = other
    · simp [he, hne]
    · simp [he]

theorem find?_insert (vs : Variables) (v : VarId) (name : String) :
    (globals.insert vs v).find? name
      = if name = vs.nameOf v then some v else globals.find? name := by
  have hremoved := globals.find?_remove (vs.nameOf v) name
  unfold remove find? at hremoved
  unfold insert find?
  dsimp only at hremoved ⊢
  rw [List.find?_append, Option.map_or, hremoved]
  split
  · rename_i heq
    simp [heq]
  · rename_i hne
    simp [Ne.symm hne]

end Globals

/-! ## Section 2: Nodes -/

namespace Site

/-- The node runs in a graph, and its variable follows a name. -/
structure Follows (site : Site) (g : Graph) (vs : Variables) (name : String) (v : VarId) : Prop where
  graph : site.frame.graph = g
  variable_eq : site.ownVariable "variable" = some v
  follows : vs.Follows v name

theorem Follows.mem_ownVariables {site : Site} {g : Graph} {vs : Variables} {name : String}
    {v : VarId} (h : site.Follows g vs name v) :
    v ∈ (Graph.ownVariables g.toNetwork).map (·.2.2) := by
  obtain ⟨x, hx, hown⟩ := Option.bind_eq_some_iff.mp h.variable_eq
  obtain ⟨e, he, rfl⟩ := Option.map_eq_some_iff.mp hown
  have hnode : g.node? site.node = some x := by rw [← h.graph]; exact hx
  refine List.mem_map.mpr ⟨(x.guid, e), List.mem_flatMap.mpr
    ⟨(site.node, x), (Arena.mem_toList_iff _ _ _).mpr hnode, ?_⟩, rfl⟩
  exact List.mem_map.mpr ⟨e, List.mem_of_find?_eq_some he, rfl⟩

/-- A node that sets a variable writes its input to the cell, and goes on. -/
theorem execute_setVariable (site : Site) (chain : Chain) (st : DispatchState) {v : VarId}
    (hv : site.ownVariable "variable" = some v) :
    site.execute chain .setVariable st = .done (.ok ())
      { st with
        store := { st.store with vars := st.store.vars.set v (site.input "value" 0 st.store) }
        next := site.successor "next" 0 } := by
  show site.setVariable st = _
  unfold setVariable
  simp only [hv]
  rfl

/-- A node that gets a variable outputs the value of the cell. -/
theorem execute_getVariable (site : Site) (chain : Chain) (st : DispatchState) {v : VarId}
    (hv : site.ownVariable "variable" = some v) :
    site.execute chain .getVariable st = .done (.ok ())
      { st with store := site.output "value" 0 (st.store.vars.get v) st.store } := by
  have hvalue : site.variableValue "variable" st.store = st.store.vars.get v := by
    unfold variableValue
    simp [hv]
  rw [← hvalue]
  rfl

end Site

/-- What a node sets shows at all variables of the cell, and the nodes that follow the name get
    it, until the cell is written again. -/
def Graph.SetsThenGets (g : Graph) (vs : Variables) (name : String) (cell : VarId) : Prop :=
  ∀ (set : Site) (chain : Chain) (st : DispatchState) (v : VarId), set.Follows g vs name v →
    vs.Rewired ∅ st.store.vars → st.store.vars.WellBound →
      let a := set.input "value" 0 st.store
      ∃ st' : DispatchState, set.execute chain .setVariable st = .done (.ok ()) st' ∧
        ∀ later : List Variables.Operation,
          (∀ op ∈ later, op.Misses st'.store.vars (st'.store.vars.root cell)) →
          (∀ u, vs.root u = vs.root cell → (st'.store.vars.run later).get u = a) ∧
          ∀ (get : Site) (chain' : Chain) (now : DispatchState) (u : VarId),
            get.Follows g vs name u → now.store.vars = st'.store.vars.run later →
              get.execute chain' .getVariable now = .done (.ok ())
                { now with store := get.output "value" 0 a now.store }

theorem Graph.setsThenGets {g : Graph} {vs : Variables} {name : String} {cell : VarId}
    (hvs : vs.WellBound) (hcell : cell < vs.cells.size)
    (hshared : ∀ v ∈ (ownVariables g.toNetwork).map (·.2.2), vs.Follows v name →
      vs.root v = vs.root cell) : g.SetsThenGets vs name cell := by
  intro set chain st v hset hrewired hst a
  refine ⟨_, set.execute_setVariable chain st hset.variable_eq, fun later hlater => ?_⟩
  have hv := hshared v hset.mem_ownVariables hset.follows
  have hlt : ∀ u, vs.root u = vs.root cell → u < vs.cells.size := fun u hu =>
    Variables.lt_of_root_eq hvs hcell hu
  have hroot : ∀ u, vs.root u = vs.root cell → st.store.vars.root u = st.store.vars.root v := by
    intro u hu
    rw [Variables.root_of_rewired hrewired hvs hst (hlt u hu),
      Variables.root_of_rewired hrewired hvs hst (hlt v hv), hu, hv]
  have hget : ∀ u, vs.root u = vs.root cell →
      ((st.store.vars.set v a).run later).get u = a := by
    intro u hu
    have hsame : (st.store.vars.set v a).root u = (st.store.vars.set v a).root cell := by
      rw [Variables.root_set hst, Variables.root_set hst, hroot u hu, hroot cell rfl]
    rw [Variables.get_run (hst.set v a) later ?_ (hsame ▸ hlater),
      Variables.get_set hst v u a ((hlt v hv).trans_le hrewired.size), if_pos (hroot u hu)]
    exact ((hlt u hu).trans_le hrewired.size).trans_eq (st.store.vars.size_modify _ _).symm
  refine ⟨hget, fun get chain' now u hfollows hnow => ?_⟩
  rw [get.execute_getVariable chain' now hfollows.variable_eq, hnow,
    hget u (hshared u hfollows.mem_ownVariables hfollows.follows)]

/-! ## Section 3: Hosts -/

namespace Host

/-- A graph was compiled in the host `w`, and spared by what was done `after`. -/
def LastCompiled (s : Store) (ops : List Operation) (i : Nat) (w : Host) (after : List Operation) :
    Prop :=
  ∃ before conversions, ops = before ++ .compile i conversions :: after ∧
    w = run before { store := s } ∧ ∀ op ∈ after, op.Spares i

/-- The variable in the table of globals to which one of a blackboard is bound. -/
def tableEntry (w : Host) (v : VarId) : Option VarId := w.store.vars.boardSource w.store.globals v

/-- Since a graph was compiled in the host `w`, its variables have the cells of their sources. -/
structure Sourced (w : Host) (g : Graph) (vs : Variables) : Prop where
  room : ∀ v ∈ g.toNetwork.owned, v < w.store.vars.cells.size
  later : w.store.vars.Rewired Set.univ vs
  nodes : ∀ v ∈ (Graph.ownVariables g.toNetwork).map (·.2.2), ∀ e ∈ g.blackboard,
    w.store.vars.ownSource w.store.globals g.blackboard v = some e →
    (w.tableEntry e ≠ none → w.Clear g.toNetwork) → vs.root v = vs.root e
  table : w.Clear g.toNetwork → ∀ e ∈ g.blackboard, ∀ t, w.tableEntry e = some t →
    vs.root e = vs.root t

section Sources

variable {s : Store} (hs : s.Bound) {ops : List Operation} (hops : ∀ op ∈ ops, op.Plain)

include hs hops

theorem wired_run : (run ops { store := s }).Wired := (wired_empty s hs).run ops hops

theorem sourced {i : Nat} {g : Graph} (hg : (run ops { store := s }).graphs i = some g) {w : Host}
    {after : List Operation} (hlast : LastCompiled s ops i w after)
    (hsteady : ∀ op ∈ after, op.Steady) : w.Sourced g (run ops { store := s }).store.vars := by
  have hend := (wired_run hs hops).bound.wellBound
  obtain ⟨before, conversions, rfl, rfl, hspares⟩ := hlast
  obtain ⟨hbefore, hrest⟩ := List.forall_mem_append.mp hops
  obtain ⟨hplain, hafter⟩ := List.forall_mem_cons.mp hrest
  have hw := wired_run hs hbefore
  rw [run_append] at hg hend ⊢
  generalize run before { store := s } = w at *
  -- the graph is as it was compiled
  have hcompiled := (graphs_run_spares after _ i fun op hop =>
    ⟨hafter op hop, hspares op hop⟩).symm.trans hg
  obtain ⟨k, hk, rfl, hstore⟩ := graphs_compile hcompiled
  have hsteps := k.compile_steps conversions w.store
  have hroom := hw.network_room hk
  obtain ⟨hshared, hclear⟩ := hw.compile_joined hk conversions _ _ rfl rfl
  -- what the compilation joined is joined now
  obtain ⟨hrewired, hkept⟩ := (hw.apply _ hplain).run_steady hcompiled after fun op hop =>
    ⟨hafter op hop, hsteady op hop, hspares op hop⟩
  have hroots : ∀ v u, (k.compile conversions w.store).2.vars.Joined (w.loose i) v u →
      (run (.compile i conversions :: after) w).store.vars.root v
        = (run (.compile i conversions :: after) w).store.vars.root u := by
    intro v u h
    refine (hkept v u ?_).root_eq hend
    rw [hstore]
    exact h.mono fun a t hat => ⟨fun hin => hat.1 (loose_compile a hin), hat.2⟩
  rw [hstore] at hrewired
  have hsame : w.Clear (k.compile conversions w.store).1.1.toNetwork = w.Clear k.toNetwork := by
    unfold Host.Clear
    rw [hsteps.network_owned]
  refine ⟨?_, ((hw.compile_table hk conversions).1.mono (Set.subset_univ _)).trans hrewired, ?_, ?_⟩
  · rwa [hsteps.network_owned]
  · rw [hsteps.own, hsteps.blackboard]
    intro v hv e he hsource hcl
    by_cases hnone : w.tableEntry e = none
    · exact hroots v e (hshared v hv e he hsource hnone)
    · exact hroots v e ((hclear (hsame ▸ hcl hnone)).2 v hv e hsource)
  · rw [hsteps.blackboard]
    intro hcl e he t ht
    exact hroots e t ((hclear (hsame ▸ hcl)).1 e he t ht)

end Sources

/-- **Main theorem: set then get.**  Whatever graphs a host hydrated, compiled and disposed, and
    whatever it bound elsewhere: a graph that can be run was compiled last in a host `w₀` and
    spared `after`.  If the host itself changed no binding since, then for each name on the
    blackboard the nodes of the graph that follow it use the cell of its first entry, and what
    one of them sets shows at all variables of the cell and is what the others get, until the
    cell is written again.  If the entry was bound to the table of globals, the cell is that of
    the table and of every graph whose entry was bound to the same variable; here no chain of
    bindings from a global variable may have passed a graph on its way to this one. -/
theorem set_then_get (s : Store) (hs : s.Bound) (ops : List Operation)
    (hops : ∀ op ∈ ops, op.Plain) (i : Nat) (g : Graph) :
    let w := run ops { store := s }
    w.graphs i = some g → g.isRunnable w.store = true →
      (∃ w₀ after, LastCompiled s ops i w₀ after) ∧
      ∀ w₀ after, LastCompiled s ops i w₀ after → (∀ op ∈ after, op.Steady) →
        ∀ name e, g.blackboard.find? w.store.vars name = some e →
          (w₀.tableEntry e ≠ none → w₀.Clear g.toNetwork) →
          (∀ v ∈ (Graph.ownVariables g.toNetwork).map (·.2.2), w.store.vars.Follows v name →
            w.store.vars.root v = w.store.vars.root e) ∧
          g.SetsThenGets w.store.vars name e ∧
          ∀ t, w₀.tableEntry e = some t → w.store.vars.root e = w.store.vars.root t ∧
            ∀ j k w₁ after', w.graphs j = some k → LastCompiled s ops j w₁ after' →
              (∀ op ∈ after', op.Steady) → w₁.Clear k.toNetwork →
                ∀ e' ∈ k.blackboard, w₁.tableEntry e' = some t →
                  w.store.vars.root e' = w.store.vars.root e := by
  intro w hg hrun
  refine ⟨?_, fun w₀ after hlast hsteady name e he hclear => ?_⟩
  · obtain ⟨before, conversions, after, hops', hspares⟩ :=
      exists_last_compile s ops hops i g hg hrun
    exact ⟨_, after, before, conversions, hops', rfl, hspares⟩
  have hsourced := sourced hs hops hg hlast hsteady
  have hmem : e ∈ g.blackboard := List.mem_of_find?_eq_some he
  have hboard := Graph.board_lt hsourced.room
  have hnodes : ∀ v ∈ (Graph.ownVariables g.toNetwork).map (·.2.2), w.store.vars.Follows v name →
      w.store.vars.root v = w.store.vars.root e := by
    intro v hv hfollows
    -- the node followed the name as the graph was compiled
    refine hsourced.nodes v hv e hmem ?_ hclear
    rw [Variables.follows_congr hsourced.later (Graph.own_lt hsourced.room v hv)] at hfollows
    rw [Variables.ownSource_of_follows hfollows, ← hsourced.later.board hboard]
    exact he
  refine ⟨hnodes, ?_, fun t ht => ?_⟩
  · exact Graph.setsThenGets (wired_run hs hops).bound.wellBound
      ((hboard e hmem).trans_le hsourced.later.size) hnodes
  · have hroot := hsourced.table (hclear (by rw [ht]; simp)) e hmem t ht
    refine ⟨hroot, fun j k w₁ after' hk hlast' hsteady' hclear' e' he' ht' => ?_⟩
    rw [hroot]
    exact (sourced hs hops hk hlast' hsteady').table hclear' e' he' t ht'

/-! ## Section 4: Hosts with globals -/

/-- Set the global variable of a name. -/
def setGlobal (name : String) (value : Value) : Operation :=
  .elsewhere (fun s =>
    let (_, globals, vars) := s.globals.set s.vars name value
    { s with vars, globals }) fun _ => rfl

/-- Take the global variable of a name out of the table. -/
def removeGlobal (name : String) : Operation :=
  .elsewhere (fun s => { s with globals := (s.globals.remove name).2 }) fun _ => rfl

/-- Bind a variable to another one, unless that is refused. -/
def bindVariable (v t : VarId) : Operation :=
  .elsewhere (fun s => if t < s.vars.cells.size then { s with vars := s.vars.bound v t } else s)
    fun s => by split <;> rfl

/-- Setting a global variable writes it or makes it, and binds nothing. -/
theorem setGlobal_plain (name : String) (value : Value) :
    (setGlobal name value).Plain ∧ (setGlobal name value).Steady := by
  have hset : ∀ s : Store,
      s.globals.set s.vars name value = (s.vars.cells.size,
        s.globals.insert (s.vars.add (.shared name value.portType value)).2 s.vars.cells.size,
        (s.vars.add (.shared name value.portType value)).2) ∨
      ∃ v, s.globals.set s.vars name value = (v, s.globals, s.vars.set v value) := by
    intro s
    unfold Globals.set
    cases s.globals.find? name with
    | none => exact .inl rfl
    | some v => exact .inr ⟨v, rfl⟩
  refine ⟨fun s hs => ?_, fun s => ?_⟩ <;> dsimp only
  · rcases hset s with heq | ⟨v, heq⟩ <;> rw [heq]
    · have hrewired := s.vars.rewired_add (.shared name value.portType value) rfl
      refine ⟨⟨hs.wellBound.add _ rfl, fun other t ht => ?_⟩, hrewired.size⟩
      rw [Globals.find?_insert] at ht
      split at ht
      · cases ht
        exact Nat.lt_of_lt_of_eq (Nat.lt_succ_self _) (Array.size_push _).symm
      · exact (hs.globals other t ht).trans_le hrewired.size
    · have hrewired := s.vars.rewired_set v value
      exact ⟨⟨hs.wellBound.set v value, fun other t ht =>
        (hs.globals other t ht).trans_le hrewired.size⟩, hrewired.size⟩
  · rcases hset s with heq | ⟨v, heq⟩ <;> rw [heq]
    · exact s.vars.rewired_add _ rfl
    · exact s.vars.rewired_set v value

theorem removeGlobal_plain (name : String) : (removeGlobal name).Plain := by
  intro s hs
  refine ⟨⟨hs.wellBound, fun other t ht => ?_⟩, le_rfl⟩
  rw [Globals.find?_remove] at ht
  split at ht
  · cases ht
  · exact hs.globals other t ht

theorem bindVariable_plain (v t : VarId) : (bindVariable v t).Plain := by
  intro s hs
  dsimp only
  split
  · rename_i ht
    have hsize : (s.vars.bound v t).cells.size = s.vars.cells.size := Variables.size_bound v t
    refine ⟨⟨hs.wellBound.bound v ht, fun name u hu => ?_⟩, hsize.ge⟩
    exact (hs.globals name u hu).trans_eq hsize.symm
  · exact ⟨hs, le_rfl⟩

theorem bound_default : (default : Store).Bound :=
  ⟨Variables.wellBound_of_unbound [] (List.forall_mem_nil _), fun _ _ h => by cases h⟩

/-- Global variables that are bound to nothing are in no graph's way. -/
theorem clear_of_unbound {w : Host} (n : Network)
    (h : ∀ name t, w.store.globals.find? name = some t → w.store.vars.targetOf t = none) :
    w.Clear n := by
  intro name t ht u _ htu v _ huv
  obtain ⟨a, ha, _⟩ := TransGen.head'_iff.mp (TransGen.trans_right htu huv)
  have hbound : w.store.vars.targetOf t = some a := ha
  rw [h name t ht] at hbound
  cases hbound

/-- A counter that is global, and two nodes that set it and get it. -/
def counter : GraphData where
  name := "counter"
  nodes := [
    { guid := "set", type := "Ceres.Variables.SetVariable",
      serializedData := "\x7b\"variable\": \"x\"\x7d",
      ports := [{ name := "value", value := some (.int 5) },
        { name := "next", connections := [⟨"get", "input", 0⟩] }] },
    { guid := "get", type := "Ceres.Variables.GetVariable",
      serializedData := "\x7b\"variable\": \"x\"\x7d" }]
  vars := [{ name := "x", valueType := .int, isShared := true, isGlobal := true }]

/-- Two graphs with the counter are compiled, one after the other, and then it is set. -/
def counting : List Operation :=
  [setGlobal "x" (.int 1), .hydrate 0 Registry.builtin counter,
    .hydrate 1 Registry.builtin counter, .compile 0 .standard, .compile 1 .standard,
    setGlobal "x" (.int 2)]

theorem counting_plain : ∀ op ∈ counting, op.Plain := by
  unfold counting
  simp only [List.forall_mem_cons]
  exact ⟨(setGlobal_plain _ _).1, trivial, trivial, trivial, trivial, (setGlobal_plain _ _).1,
    List.forall_mem_nil _⟩

/-- Both graphs were compiled with the global variable, which is bound to nothing. -/
theorem counting_last :
    (∃ w, LastCompiled default counting 0 w [.compile 1 .standard, setGlobal "x" (.int 2)] ∧
      w.tableEntry 3 = some 0 ∧ ∀ n, w.Clear n) ∧
    ∃ w, LastCompiled default counting 1 w [setGlobal "x" (.int 2)] ∧
      w.tableEntry 6 = some 0 ∧ ∀ n, w.Clear n := by
  have hclear : ∀ w : Host, w.store.globals.entries = [("x", 0)] →
      w.store.vars.targetOf 0 = none → ∀ n, w.Clear n := by
    refine fun w hentries hunbound n => clear_of_unbound n fun name t ht => ?_
    obtain ⟨e, he, rfl⟩ := Option.map_eq_some_iff.mp ht
    have hmem := List.mem_of_find?_eq_some he
    rw [hentries, List.mem_singleton] at hmem
    rwa [hmem]
  constructor
  · have hfirst : let w := run (counting.take 3) { store := default }
        w.tableEntry 3 = some 0 ∧ w.store.globals.entries = [("x", 0)] ∧
          w.store.vars.targetOf 0 = none := by decide +kernel
    refine ⟨_, ⟨counting.take 3, .standard, rfl, rfl, ?_⟩, hfirst.1, hclear _ hfirst.2.1 hfirst.2.2⟩
    exact List.forall_mem_cons.mpr ⟨Nat.one_ne_zero, List.forall_mem_singleton.mpr trivial⟩
  · have hsecond : let w := run (counting.take 4) { store := default }
        w.tableEntry 6 = some 0 ∧ w.store.globals.entries = [("x", 0)] ∧
          w.store.vars.targetOf 0 = none := by decide +kernel
    refine ⟨_, ⟨counting.take 4, .standard, rfl, rfl, ?_⟩, hsecond.1,
      hclear _ hsecond.2.1 hsecond.2.2⟩
    exact List.forall_mem_singleton.mpr trivial

/-- The host with the two graphs. -/
def counted : Host := run counting { store := default }

/-- What the first graph sets is what it gets, and what the second one sees. -/
theorem set_then_get_counting :
    ∃ g k e, counted.graphs 0 = some g ∧ counted.graphs 1 = some k ∧
      k.blackboard.find? counted.store.vars "x" = some e ∧
      counted.store.vars.get e = .int 2 ∧
      ∀ chain, ∃ st : DispatchState,
        let frame := Dispatch.frameOf {} g { entry := .event "go" } counted.store
        (Site.mk frame ⟨0, 0⟩).execute chain .setVariable { store := counted.store }
          = .done (.ok ()) st ∧ st.store.vars.get e = .int 5 ∧
        (Site.mk frame ⟨1, 0⟩).execute chain .getVariable st = .done (.ok ())
          { st with store := (Site.mk frame ⟨1, 0⟩).output "value" 0 (.int 5) st.store } := by
  have hset : ∀ op ∈ [setGlobal "x" (.int 2)], op.Steady :=
    List.forall_mem_singleton.mpr (setGlobal_plain _ _).2
  obtain ⟨⟨first, hfirst, hentry, hclear₀⟩, second, hsecond, hentry', hclear₁⟩ := counting_last
  obtain ⟨g, hg, hgraph⟩ := Option.map_eq_some_iff.mp (show (counted.graphs 0).map (fun g =>
      let frame := Dispatch.frameOf {} g { entry := .event "go" } counted.store
      (g.isRunnable counted.store, g.blackboard.find? counted.store.vars "x",
        (Site.mk frame ⟨0, 0⟩).ownVariable "variable", (Site.mk frame ⟨1, 0⟩).ownVariable "variable",
        (Site.mk frame ⟨0, 0⟩).input "value" 0 counted.store))
      = some (true, some 3, some 1, some 2, .int 5) by decide +kernel)
  obtain ⟨k, hk, hother⟩ := Option.map_eq_some_iff.mp (show (counted.graphs 1).map (fun k =>
      (k.blackboard.find? counted.store.vars "x", counted.store.vars.get 6))
      = some (some 6, .int 2) by decide +kernel)
  have hfollows : counted.store.vars.Follows 1 "x" ∧ counted.store.vars.Follows 2 "x" := by
    simp only [Variables.follows_iff]
    decide +kernel
  simp only [Prod.mk.injEq] at hgraph hother
  obtain ⟨hrun, hfind, hown, hown', hinput⟩ := hgraph
  obtain ⟨hfind', hvalue⟩ := hother
  have hmain := set_then_get default bound_default counting counting_plain 0 g
  have hwell := (wired_run bound_default counting_plain).bound.wellBound
  rw [← counted] at hmain hwell
  generalize counted = w at *
  obtain ⟨_, hall⟩ := hmain hg hrun
  obtain ⟨_, hsets, htable⟩ := hall first _ hfirst (List.forall_mem_cons.mpr ⟨trivial, hset⟩) "x" 3
    hfind fun _ => hclear₀ _
  have hcell := (htable 0 hentry).2 1 k second _ hk hsecond hset (hclear₁ _) 6
    (List.mem_of_find?_eq_some hfind') hentry'
  refine ⟨g, k, 6, hg, hk, hfind', hvalue, fun chain => ?_⟩
  obtain ⟨st, hdone, hlater⟩ := hsets ⟨Dispatch.frameOf {} g { entry := .event "go" } w.store, ⟨0, 0⟩⟩
    chain { store := w.store } 1 ⟨rfl, hown, hfollows.1⟩ (.refl _) hwell
  obtain ⟨hshows, hgets⟩ := hlater [] (List.forall_mem_nil _)
  have hread := hgets ⟨Dispatch.frameOf {} g { entry := .event "go" } w.store, ⟨1, 0⟩⟩ chain st 2
    ⟨rfl, hown', hfollows.2⟩ rfl
  have hshown := hshows 6 hcell
  rw [hinput] at hread hshown
  exact ⟨st, hdone, hshown, hread⟩

/-- A graph with two global variables, the first of which it sets. -/
def pair : GraphData where
  name := "g"
  nodes := [
    { guid := "go", type := "Ceres.Flow.ExecutionEvent",
      serializedData := "\x7b\"eventName\": \"go\"\x7d",
      ports := [{ name := "next", connections := [⟨"set", "input", 0⟩] }] },
    { guid := "set", type := "Ceres.Variables.SetVariable",
      serializedData := "\x7b\"variable\": \"x\"\x7d",
      ports := [{ name := "value", value := some (.int 5) }] }]
  vars := [{ name := "x", valueType := .int, value := .int 0, isShared := true, isGlobal := true },
    { name := "y", valueType := .int, value := .int 0, isShared := true, isGlobal := true }]

/-- First only the second variable is in the table of globals, and the host binds its entry there
    to the first variable of the graph.  Then it is the other way round. -/
def crossing : List Operation :=
  [.hydrate 0 Registry.builtin pair, setGlobal "y" (.int 1), bindVariable 3 1,
    .compile 0 .standard, setGlobal "x" (.int 2), bindVariable 4 2, removeGlobal "y",
    .compile 0 .standard]

/-- The host with the graph. -/
def crossed : Host := run crossing { store := default }

/-- The graph can be run, and its first variable is flagged global and in the table of globals; but
    what the graph sets does not show in the table.  The variable could not be bound to the global
    one for the binding of the second variable, which the same compilation drops a little later. -/
theorem crossing_apart :
    (∀ op ∈ crossing, op.Plain) ∧ ∃ g e t, crossed.graphs 0 = some g ∧
      g.isRunnable crossed.store = true ∧
      g.blackboard.find? crossed.store.vars "x" = some e ∧
      (crossed.store.vars.find? e).map (·.isGlobal) = some true ∧
      crossed.store.globals.find? "x" = some t ∧
      ∀ chain, ∃ st : DispatchState,
        (Site.mk (Dispatch.frameOf {} g { entry := .event "go" } crossed.store) ⟨1, 0⟩).execute chain
            .setVariable { store := crossed.store } = .done (.ok ()) st ∧
          st.store.vars.get e = .int 5 ∧ st.store.vars.get t = .int 0 := by
  constructor
  · unfold crossing
    simp only [List.forall_mem_cons]
    exact ⟨trivial, (setGlobal_plain _ _).1, bindVariable_plain _ _, trivial,
      (setGlobal_plain _ _).1, bindVariable_plain _ _, removeGlobal_plain _, trivial,
      List.forall_mem_nil _⟩
  obtain ⟨g, hg, hgraph⟩ := Option.map_eq_some_iff.mp (show (crossed.graphs 0).map (fun g =>
      let site := Site.mk (Dispatch.frameOf {} g { entry := .event "go" } crossed.store) ⟨1, 0⟩
      (g.isRunnable crossed.store, g.blackboard.find? crossed.store.vars "x",
        site.ownVariable "variable", site.input "value" 0 crossed.store))
      = some (true, some 1, some 0, .int 5) by decide +kernel)
  have htable : (crossed.store.vars.find? 1).map (·.isGlobal) = some true ∧
      crossed.store.globals.find? "x" = some 4 ∧
      (crossed.store.vars.set 0 (.int 5)).get 1 = .int 5 ∧
      (crossed.store.vars.set 0 (.int 5)).get 4 = .int 0 := by decide +kernel
  simp only [Prod.mk.injEq] at hgraph
  obtain ⟨hrun, hfind, hown, hinput⟩ := hgraph
  obtain ⟨hglobal, hentry, hset, hapart⟩ := htable
  generalize crossed = w at *
  refine ⟨g, 1, 4, hg, hrun, hfind, hglobal, hentry, fun chain =>
    ⟨_, Site.execute_setVariable _ chain _ hown, ?_, ?_⟩⟩
  · rwa [hinput]
  · rwa [hinput]

end Host
end FlowGraph
