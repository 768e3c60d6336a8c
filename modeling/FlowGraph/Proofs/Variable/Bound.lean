import FlowGraph.Graph.Compile
import FlowGraph.Proofs.Variable.Binding

/-! # Binding the variables of a graph

    Compiling a graph binds its variables, one after the other: first those of the blackboard
    and then those of the nodes.  What that does to the table of variables is a function of
    the table and of the globals (`Graph.bindVariables_eq`). -/

namespace FlowGraph

namespace Variables

variable {vs : Variables}

/-! ## Section 1: What a binding does -/

/-- Bind a variable, unless that is refused. -/
def bound (vs : Variables) (v w : VarId) : Variables :=
  match vs.bind v w with
  | .ok vs => vs
  | .error _ => vs

/-- Bind a variable to the global one of its name, if there is one. -/
def boundGlobal (globals : Globals) (vs : Variables) (v : VarId) : Variables :=
  match globals.find? (vs.nameOf v) with
  | none => vs
  | some w => if w ≠ v then vs.bound v w else vs

/-- Bind a variable of the blackboard anew. -/
def boundBoard (globals : Globals) (vs : Variables) (v : VarId) : Variables :=
  if (((vs.unbind v).find? v).map (·.isGlobal)).getD false then (vs.unbind v).boundGlobal globals v
  else vs.unbind v

/-- Bind a variable of a node anew. -/
def boundOwn (globals : Globals) (board : Blackboard) (vs : Variables) (v : VarId) : Variables :=
  match (vs.unbind v).find? v with
  | none => vs.unbind v
  | some x =>
    if x.isGlobal then (vs.unbind v).boundGlobal globals v
    else if x.isShared then
      match board.find? (vs.unbind v) x.name with
      | none => vs.unbind v
      | some w => (vs.unbind v).bound v w
    else vs.unbind v

theorem size_bound (v w : VarId) : (vs.bound v w).cells.size = vs.cells.size := by
  unfold bound
  cases hbind : vs.bind v w with
  | error e => rfl
  | ok ws =>
    rw [(vs.bind_eq_ok hbind).2]
    exact vs.size_modify _ _

theorem size_boundGlobal (globals : Globals) (v : VarId) :
    (vs.boundGlobal globals v).cells.size = vs.cells.size := by
  unfold boundGlobal
  split
  · rfl
  · split
    · exact size_bound v _
    · rfl

theorem size_unbind (v : VarId) : (vs.unbind v).cells.size = vs.cells.size := vs.size_modify v _

theorem size_boundBoard (globals : Globals) (v : VarId) :
    (vs.boundBoard globals v).cells.size = vs.cells.size := by
  unfold boundBoard
  split
  · rw [size_boundGlobal, size_unbind]
  · exact size_unbind v

theorem size_boundOwn (globals : Globals) (board : Blackboard) (v : VarId) :
    (vs.boundOwn globals board v).cells.size = vs.cells.size := by
  unfold boundOwn
  split
  · exact size_unbind v
  · split
    · rw [size_boundGlobal, size_unbind]
    · split
      · split
        · exact size_unbind v
        · rw [size_bound, size_unbind]
      · exact size_unbind v

end Variables

/-! ## Section 2: All variables of a graph -/

namespace Graph

/-- The table after all variables of a network were bound. -/
def boundVariables (globals : Globals) (n : Network) (vs : Variables) : Variables :=
  ((ownVariables n).map (·.2.2)).foldl (Variables.boundOwn globals n.blackboard)
    (n.blackboard.foldl (Variables.boundBoard globals) vs)

theorem bindGlobal_eq (graph : String) (v : VarId) (s : Store) : ∃ log,
    (bindGlobal graph v s).2 = { s with vars := s.vars.boundGlobal s.globals v, log } := by
  unfold bindGlobal Variables.boundGlobal
  simp only [bind, StateT.bind, get, getThe, MonadStateOf.get, StateT.get, pure]
  cases s.globals.find? (s.vars.nameOf v) with
  | none => exact ⟨_, rfl⟩
  | some w =>
    dsimp only
    split
    · unfold Variables.bound
      cases s.vars.bind v w with
      | ok vars => exact ⟨_, rfl⟩
      | error e => exact ⟨_, rfl⟩
    · exact ⟨_, rfl⟩

theorem bindBoardVariable_eq (graph : String) (v : VarId) (s : Store) : ∃ log,
    (bindBoardVariable graph v s).2 = { s with vars := s.vars.boundBoard s.globals v, log } := by
  unfold bindBoardVariable Variables.boundBoard
  simp only [bind, StateT.bind, modify, modifyGet, MonadStateOf.modifyGet, StateT.modifyGet, get,
    getThe, MonadStateOf.get, StateT.get, pure]
  split
  · exact bindGlobal_eq graph v { s with vars := s.vars.unbind v }
  · exact ⟨_, rfl⟩

theorem bindOwnVariable_eq (n : Network) (guid field : String) (v : VarId) (s : Store) : ∃ log,
    (bindOwnVariable n guid field v s).2
      = { s with vars := s.vars.boundOwn s.globals n.blackboard v, log } := by
  unfold bindOwnVariable Variables.boundOwn
  simp only [bind, StateT.bind, modify, modifyGet, MonadStateOf.modifyGet, StateT.modifyGet, get,
    getThe, MonadStateOf.get, StateT.get, pure]
  cases (s.vars.unbind v).find? v with
  | none => exact ⟨_, rfl⟩
  | some x =>
    dsimp only
    split
    · exact bindGlobal_eq n.name v { s with vars := s.vars.unbind v }
    · split
      · cases n.blackboard.find? (s.vars.unbind v) x.name with
        | none => exact ⟨_, rfl⟩
        | some w =>
          unfold Variables.bound
          dsimp only
          cases (s.vars.unbind v).bind v w with
          | ok vars => exact ⟨_, rfl⟩
          | error e => exact ⟨_, rfl⟩
      · exact ⟨_, rfl⟩

/-- Work on variables, one after the other. -/
theorem forM_vars {ι : Type} (f : ι → Work Unit) (F : Globals → Variables → ι → Variables)
    (hf : ∀ x s, ∃ log, (f x s).2 = { s with vars := F s.globals s.vars x, log }) (xs : List ι)
    (s : Store) : ∃ log, (xs.forM f s).2 = { s with vars := xs.foldl (F s.globals) s.vars, log } := by
  induction xs generalizing s with
  | nil => exact ⟨s.log, rfl⟩
  | cons x rest ih =>
    obtain ⟨log, hlog⟩ := hf x s
    obtain ⟨log', hlog'⟩ := ih (f x s).2
    refine ⟨log', ?_⟩
    have hcons : ((x :: rest).forM f s).2 = (rest.forM f (f x s).2).2 := rfl
    rw [hcons, hlog', hlog]
    rfl

/-- Binding all variables changes the table of variables, and the log. -/
theorem bindVariables_eq (n : Network) (s : Store) : ∃ log,
    (bindVariables n s).2 = { s with vars := boundVariables s.globals n s.vars, log } := by
  obtain ⟨log, hboard⟩ := forM_vars _ _ (bindBoardVariable_eq n.name) n.blackboard s
  obtain ⟨log', hown⟩ := forM_vars (fun e : String × String × VarId =>
      bindOwnVariable n e.1 e.2.1 e.2.2) (fun globals vs e => vs.boundOwn globals n.blackboard e.2.2)
    (fun e u => bindOwnVariable_eq n e.1 e.2.1 e.2.2 u) (ownVariables n)
    (n.blackboard.forM (bindBoardVariable n.name) s).2
  refine ⟨log', ?_⟩
  have hsteps : (bindVariables n s).2 = ((ownVariables n).forM (fun e : String × String × VarId =>
      bindOwnVariable n e.1 e.2.1 e.2.2) (n.blackboard.forM (bindBoardVariable n.name) s).2).2 := rfl
  rw [hsteps, hown, hboard]
  unfold boundVariables
  rw [List.foldl_map]

end Graph
end FlowGraph
