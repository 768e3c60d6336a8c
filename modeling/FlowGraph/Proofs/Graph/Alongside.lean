import FlowGraph.Proofs.Graph.Hosting
import FlowGraph.Proofs.Variable.Bound

/-! # Making a graph in two stores

    A graph is hydrated in one store and, alongside, in another one.  If the stores are related
    in a way that every step keeps up (`Store.Hydrates`), the same graph is made in both
    (`Graph.ofData_agrees`).  In the same way the same comes out of compiling a graph in both
    (`Store.Compiles`, `Graph.compile_agrees`).

    What a graph names in the store are its id and its variables (`Network.Uses`). -/

namespace FlowGraph

variable {α β : Type} {R : Store → Store → Prop} {G : GraphId → Prop} {V : VarId → Prop}
  {P : α → Prop} {Q : β → Prop}

/-! ## Section 1: Work in related stores -/

/-- Work that makes the same in related stores, something with a property, and leaves related
    stores behind. -/
def Work.Agrees (R : Store → Store → Prop) (P : α → Prop) (x : Work α) : Prop :=
  ∀ s t, R s t → (x t).1 = (x s).1 ∧ P (x s).1 ∧ R (x s).2 (x t).2

/-- Lines may be added to the logs of related stores. -/
def Store.Logs (R : Store → Store → Prop) : Prop :=
  ∀ s t log log', R s t → R { s with log } { t with log := log' }

namespace Work.Agrees

theorem pure (a : α) (ha : P a) : Work.Agrees R P (Pure.pure a) := fun _ _ h => ⟨rfl, ha, h⟩

theorem bind {x : Work α} {k : α → Work β} (hx : Work.Agrees R P x)
    (hk : ∀ a, P a → Work.Agrees R Q (k a)) : Work.Agrees R Q (x >>= k) := by
  intro s t h
  obtain ⟨hsame, hp, hleft⟩ := hx s t h
  obtain ⟨hsame', hq, hleft'⟩ := hk _ hp _ _ hleft
  have hbind : ∀ u, (x >>= k) u = k (x u).1 (x u).2 := fun _ => rfl
  rw [hbind, hbind, hsame]
  exact ⟨hsame', hq, hleft'⟩

theorem update (f : Store → Store) (hf : ∀ s t, R s t → R (f s) (f t)) :
    Work.Agrees R (fun _ => True) (modify f : Work Unit) :=
  fun s t h => ⟨rfl, trivial, hf s t h⟩

theorem reportAll (hR : Store.Logs R) (lines : List LogLine) :
    Work.Agrees R (fun _ => True) (modify (·.reportAll lines) : Work Unit) :=
  update _ fun _ _ h => hR _ _ _ _ h

theorem report (hR : Store.Logs R) (level : LogLevel) (text : String) :
    Work.Agrees R (fun _ => True) (modify (·.report level text) : Work Unit) :=
  update _ fun _ _ h => hR _ _ _ _ h

end Work.Agrees

/-! ## Section 2: Networks and relations -/

/-- What a network names in the store has some properties. -/
structure Network.Uses (G : GraphId → Prop) (V : VarId → Prop) (n : Network) : Prop where
  id : G n.id
  vars : ∀ h x, n.node? h = some x → ∀ e ∈ x.vars, V e.2
  board : ∀ v ∈ n.blackboard, V v

/-- The variables that are bound when the graph is compiled are among those. -/
theorem Network.Uses.own {n : Network} (hn : n.Uses G V) (v : VarId)
    (hv : v ∈ (Graph.ownVariables n).map (·.2.2)) : V v := by
  obtain ⟨⟨guid, field, w⟩, he, rfl⟩ := List.mem_map.mp hv
  obtain ⟨⟨h, x⟩, hx, hown⟩ := List.mem_flatMap.mp he
  obtain ⟨e, hmem, hsame⟩ := List.mem_map.mp hown
  cases hsame
  exact hn.vars h x ((Arena.mem_toList_iff n.nodes h x).mp hx) e hmem

/-- Hydrating makes the same graphs, variables and guids in related stores and leaves related
    stores behind; `G` and `V` hold of what it makes. -/
structure Store.Hydrates (R : Store → Store → Prop) (G : GraphId → Prop) (V : VarId → Prop) :
    Prop where
  logs : Store.Logs R
  guid : ∀ s t, R s t → t.freshGuid.1 = s.freshGuid.1 ∧ R s.freshGuid.2 t.freshGuid.2
  graph : ∀ s t, R s t →
    t.addGraph.1 = s.addGraph.1 ∧ G s.addGraph.1 ∧ R s.addGraph.2 t.addGraph.2
  vars : ∀ s t x, R s t → x.target = none → (t.vars.add x).1 = (s.vars.add x).1 ∧
    V (s.vars.add x).1 ∧ R { s with vars := (s.vars.add x).2 } { t with vars := (t.vars.add x).2 }
  cells : ∀ s t g h values, R s t → G g → R (s.fill g h values) (t.fill g h values)

/-- Compiling does the same in related stores, to graphs and variables of which `G` and `V`
    hold. -/
structure Store.Compiles (R : Store → Store → Prop) (G : GraphId → Prop) (V : VarId → Prop) :
    Prop where
  logs : Store.Logs R
  restored : ∀ s t g, R s t → G g → R (s.setDisposed g false) (t.setDisposed g false)
  bound : ∀ s t n, R s t → n.Uses G V →
    R { s with vars := Graph.boundVariables s.globals n s.vars }
      { t with vars := Graph.boundVariables t.globals n t.vars }

/-! ## Section 3: Hydrating -/

/-- A network under construction. -/
structure Network.Grows (G : GraphId → Prop) (V : VarId → Prop) (n : Network) : Prop where
  uses : n.Uses G V
  arena : n.nodes.WellFormed

/-- Changing nodes, but not their variables. -/
theorem Network.Grows.modify {n : Network} (hn : n.Grows G V) (h : NodeHandle)
    (f : GraphNode → GraphNode) (hf : ∀ x, (f x).vars = x.vars) :
    Network.Grows G V { n with nodes := n.nodes.modify h f } := by
  refine ⟨⟨hn.uses.id, fun k y hy => ?_, hn.uses.board⟩,
    Arena.modify_wellFormed n.nodes h f hn.arena⟩
  have hget : (n.nodes.modify h f).get? k = some y := hy
  rw [Arena.get?_modify] at hget
  split at hget
  · obtain ⟨x, hx, rfl⟩ := Option.map_eq_some_iff.mp hget
    rw [hf]
    exact hn.uses.vars h x hx
  · exact hn.uses.vars k y hget

namespace Graph

section Hydrating

variable (hR : Store.Hydrates R G V)

include hR

/-- A new variable gets the same id in both stores. -/
theorem adding_agrees (x : Variable) (hx : x.target = none) (k : VarId → Work β)
    (hk : ∀ v, V v → Work.Agrees R Q (k v)) :
    Work.Agrees R Q (do
      let s ← get
      let (v, vars) := s.vars.add x
      set { s with vars }
      k v) := by
  intro s t h
  obtain ⟨hid, hv, hadded⟩ := hR.vars s t x h hx
  have hrest := hk _ hv _ _ hadded
  have hsteps : ∀ u : Store, (do
      let s ← get
      let (v, vars) := s.vars.add x
      set { s with vars }
      k v : Work β) u = k (u.vars.add x).1 { u with vars := (u.vars.add x).2 } := fun _ => rfl
  rw [hsteps, hsteps, hid]
  exact hrest

theorem makeVariables_agrees (guid : String) (fields : Json) (ds : List VariableDescriptor) :
    Work.Agrees R (fun vars => ∀ e ∈ vars, V e.2) (makeVariables guid fields ds) := by
  induction ds with
  | nil => exact .pure [] fun e he => by cases he
  | cons d rest ih =>
    unfold makeVariables
    refine (Work.Agrees.reportAll hR.logs _).bind fun _ _ => ?_
    refine adding_agrees hR (Variable.ofData (declaredVariable guid fields d).1) rfl
      (fun v => do return (d.field, v) :: (← makeVariables guid fields rest)) fun v hv => ?_
    refine ih.bind fun others hothers => .pure _ fun e he => ?_
    rcases List.mem_cons.mp he with rfl | he
    · exact hv
    · exact hothers e he

theorem makeNode_agrees (data : NodeData) (resolved : ResolvedNode) :
    Work.Agrees R (fun x => ∀ e ∈ x.vars, V e.2) (makeNode data resolved) := by
  unfold makeNode
  refine (Work.Agrees.reportAll hR.logs _).bind fun _ _ => ?_
  exact (makeVariables_agrees hR _ _ _).bind fun vars hvars => .pure _ hvars

/-- A guid is made in both stores or in neither. -/
theorem ensureGuid_agrees (g : Graph) (x : GraphNode) (hx : ∀ e ∈ x.vars, V e.2) :
    Work.Agrees R (fun y => ∀ e ∈ y.vars, V e.2) (g.ensureGuid x) := by
  unfold ensureGuid
  split
  · intro s t h
    obtain ⟨hguid, hfresh⟩ := hR.guid s t h
    exact ⟨congrArg (fun guid => { x with guid }) hguid, hx, hR.logs _ _ _ _ hfresh⟩
  · exact .pure x hx

theorem insert_agrees (g : Graph) (hg : g.toNetwork.Grows G V) (x : GraphNode)
    (hx : ∀ e ∈ x.vars, V e.2) :
    Work.Agrees R (fun r => r.2.toNetwork.Grows G V) (g.insert x) := by
  unfold insert
  refine (ensureGuid_agrees hR g x hx).bind fun y hy => ?_
  have hplaced : Work.Agrees R (fun r : NodeHandle × Graph => r.2.toNetwork.Grows G V) (do
      modify (·.fill g.id (g.nodes.insert y).1 y.initialValues)
      return ((g.nodes.insert y).1, { g with
        nodes := (g.nodes.insert y).2
        order := g.order ++ [(g.nodes.insert y).1] }.invalidate)) := by
    refine (Work.Agrees.update _ fun s t h => hR.cells s t _ _ _ h hg.uses.id).bind fun _ _ => ?_
    refine .pure _ ⟨⟨hg.uses.id, fun h z hz => ?_, hg.uses.board⟩,
      Arena.insert_wellFormed g.nodes y hg.arena⟩
    have hget : (g.nodes.insert y).2.get? h = some z := hz
    rw [Arena.get?_insert _ _ _ hg.arena] at hget
    split at hget
    · cases hget
      exact hy
    · exact hg.uses.vars h z hget
  cases y.invalid with
  | some invalid => exact (Work.Agrees.report hR.logs _ _).bind fun _ _ => hplaced
  | none => exact hplaced

theorem addNodes_agrees (g : Graph) (hg : g.toNetwork.Grows G V) (registry : Registry)
    (data : List NodeData) :
    Work.Agrees R (fun k => k.toNetwork.Grows G V) (g.addNodes registry data) := by
  induction data generalizing g with
  | nil => exact .pure g hg
  | cons d rest ih =>
    have hadd : Work.Agrees R (fun r => r.2.toNetwork.Grows G V) (g.addNode registry d) := by
      unfold addNode
      refine (Work.Agrees.reportAll hR.logs _).bind fun _ _ => ?_
      exact (makeNode_agrees hR _ _).bind fun x hx => insert_agrees hR g hg x hx
    exact hadd.bind fun r hr => ih r.2 hr

theorem addVariables_agrees (g : Graph) (hg : g.toNetwork.Grows G V) (data : List VariableData) :
    Work.Agrees R (fun k => k.toNetwork.Grows G V) (g.addVariables data) := by
  induction data generalizing g with
  | nil => exact .pure g hg
  | cons d rest ih =>
    unfold addVariables
    refine adding_agrees hR (Variable.ofData d) rfl (fun v =>
      ({ g with blackboard := g.blackboard ++ [v] } : Graph).addVariables rest) fun v hv => ?_
    refine ih _ ⟨⟨hg.uses.id, hg.uses.vars, fun w hw => ?_⟩, hg.arena⟩
    rcases List.mem_append.mp hw with hw | hw
    · exact hg.uses.board w hw
    · cases List.mem_singleton.mp hw
      exact hv

theorem layOut_agrees (g : Graph) (hg : g.toNetwork.Grows G V) (h : NodeHandle) :
    Work.Agrees R (fun k => k.toNetwork.Grows G V) (g.layOut h) := by
  unfold layOut
  cases g.node? h with
  | none => exact .pure g hg
  | some x =>
    refine (Work.Agrees.reportAll hR.logs _).bind fun _ _ => ?_
    refine (Work.Agrees.update _ fun s t hst => hR.cells s t _ _ _ hst hg.uses.id).bind
      fun _ _ => .pure _ ?_
    exact hg.modify h GraphNode.laidOut fun _ => rfl

theorem addIncomingSlots_agrees (g : Graph) (hg : g.toNetwork.Grows G V) :
    Work.Agrees R (fun k => k.toNetwork.Grows G V) g.addIncomingSlots := by
  -- records are added without the store, and then the slots are laid out
  have hrecord : ∀ (missing : List MissingSlot) (k : Graph), k.toNetwork.Grows G V →
      (missing.foldl (fun g m => g.modifyRecords m.handle (recordSlot m.port m.index))
        k).toNetwork.Grows G V := by
    intro missing
    induction missing with
    | nil => exact fun k hk => hk
    | cons m rest ih => exact fun k hk => ih _ (hk.modify m.handle _ fun _ => rfl)
  have hlayOut : ∀ (hs : List NodeHandle) (k : Graph), k.toNetwork.Grows G V →
      Work.Agrees R (fun k => k.toNetwork.Grows G V) (k.layOutAll hs) := by
    intro hs
    induction hs with
    | nil => exact fun k hk => .pure k hk
    | cons h rest ih => exact fun k hk => (layOut_agrees hR k hk h).bind fun k' hk' => ih k' hk'
  exact (Work.Agrees.reportAll hR.logs _).bind fun _ _ => hlayOut _ _ (hrecord _ g hg)

theorem create_agrees (name : String) :
    Work.Agrees R (fun g => g.toNetwork.Grows G V) (create name) := by
  intro s t h
  obtain ⟨hid, hmade, hadded⟩ := hR.graph s t h
  refine ⟨congrArg (ofName · name) hid, ⟨⟨hmade, fun h x hx => ?_, fun v hv => ?_⟩, ?_⟩, hadded⟩
  · rw [create_node?] at hx
    cases hx
  · cases hv
  · exact Arena.wellFormed_empty

theorem placeAll_agrees (registry : Registry) (data : GraphData) :
    Work.Agrees R (fun g => g.toNetwork.Grows G V) (placeAll registry data) := by
  unfold placeAll
  refine (create_agrees hR data.name).bind fun g hg => ?_
  refine (addNodes_agrees hR g hg registry data.nodes).bind fun g hg => ?_
  exact (addVariables_agrees hR g hg data.vars).bind fun g hg => addIncomingSlots_agrees hR g hg

end Hydrating

mutual

/-- Hydrating a saved graph makes the same in both stores. -/
theorem ofData_agrees (hR : Store.Hydrates R G V) (registry : Registry) (data : GraphData) :
    Work.Agrees R (fun g => g.All (Network.Uses G V)) (ofData registry data) := by
  obtain ⟨name, nodes, vars, groups, functions⟩ := data
  intro s t h
  obtain ⟨hplaced, hgrows, hleft⟩ :=
    placeAll_agrees hR registry ⟨name, nodes, vars, groups, functions⟩ s t h
  obtain ⟨hmade, huses, hleft'⟩ := functionsOfData_agrees hR registry functions _ _ hleft
  rw [ofData_eq, ofData_eq]
  dsimp only
  rw [hplaced, hmade]
  exact ⟨rfl, .intro _ hgrows.uses huses, hleft'⟩

theorem functionsOfData_agrees (hR : Store.Hydrates R G V) (registry : Registry)
    (functions : List (String × GraphData)) :
    Work.Agrees R (fun fs => ∀ f ∈ fs, f.2.All (Network.Uses G V))
      (functionsOfData registry functions) := by
  match functions with
  | [] => exact .pure [] fun f hf => by cases hf
  | (name, data) :: rest =>
    refine (ofData_agrees hR registry data).bind fun g hg => ?_
    refine (functionsOfData_agrees hR registry rest).bind fun fs hfs => .pure _ fun f hf => ?_
    rcases List.mem_cons.mp hf with rfl | hf
    · exact hg
    · exact hfs f hf

end

/-! ## Section 4: Compiling -/

/-- Links do not matter for what a network names. -/
theorem uses_link {n : Network} (hn : n.Uses G V) (conversions : Conversions) :
    (n.link conversions).1.Uses G V := by
  have hunlinked := n.link_unlinked conversions
  refine ⟨?_, fun h y hy => ?_, ?_⟩
  · have hid := (congrArg Network.id hunlinked :)
    exact hid ▸ hn.id
  · obtain ⟨x, hx, hxy⟩ := Network.node?_of_unlinked_eq hunlinked.symm h y hy
    have hvars : y.vars = x.vars := (congrArg GraphNode.vars hxy).symm
    rw [hvars]
    exact hn.vars h x hx
  · have hboard := (congrArg Network.blackboard hunlinked :)
    exact fun v hv => hn.board v (hboard ▸ hv)

section Compiling

variable (hR : Store.Compiles R G V)

include hR

theorem bindVariables_agrees (n : Network) (hn : n.Uses G V) :
    Work.Agrees R (fun _ => True) (bindVariables n) := by
  intro s t h
  obtain ⟨log, hs⟩ := bindVariables_eq n s
  obtain ⟨log', ht⟩ := bindVariables_eq n t
  refine ⟨rfl, trivial, ?_⟩
  rw [hs, ht]
  exact hR.logs _ _ log log' (hR.bound s t n h hn)

theorem prepare_agrees (conversions : Conversions) (n : Network) (hn : n.Uses G V) :
    Work.Agrees R (fun r => r.1.Uses G V) (prepare conversions n) := by
  unfold prepare
  refine (Work.Agrees.update _ fun s t h => hR.restored s t n.id h hn.id).bind fun _ _ => ?_
  refine (bindVariables_agrees hR n hn).bind fun _ _ => ?_
  exact (Work.Agrees.reportAll hR.logs _).bind fun _ _ => .pure _ (uses_link hn conversions)

theorem compileFunctions_agrees (conversions : Conversions) (graph : String)
    (functions : List (String × Graph))
    (h : ∀ f ∈ functions, f.2.All (Network.Uses G V) ∧
      Work.Agrees R (fun r => r.1.All (Network.Uses G V)) (f.2.compile conversions)) :
    Work.Agrees R (fun r => ∀ f ∈ r.1, f.2.All (Network.Uses G V))
      (compileFunctions conversions graph functions) := by
  induction functions with
  | nil => exact .pure _ fun f hf => by cases hf
  | cons first rest ih =>
    obtain ⟨name, f⟩ := first
    obtain ⟨_, hcompile⟩ := h (name, f) List.mem_cons_self
    unfold compileFunctions
    refine hcompile.bind ?_
    rintro ⟨k, result⟩ hk
    cases result with
    | error e =>
      -- the functions behind this one stay as they were
      refine (Work.Agrees.report hR.logs _ _).bind fun _ _ => .pure _ fun e he => ?_
      rcases List.mem_cons.mp he with rfl | he
      · exact hk
      · exact (h e (List.mem_cons_of_mem _ he)).1
    | ok _ =>
      have hrest := ih fun e he => h e (List.mem_cons_of_mem _ he)
      refine hrest.bind fun r hr => .pure _ fun e he => ?_
      rcases List.mem_cons.mp he with rfl | he
      · exact hk
      · exact hr e he

/-- Compiling a graph has the same result in both stores. -/
theorem compile_agrees (conversions : Conversions) (g : Graph) (hg : g.All (Network.Uses G V)) :
    Work.Agrees R (fun r => r.1.All (Network.Uses G V)) (g.compile conversions) := by
  induction hg with
  | intro g network functions ih =>
    -- one level of functions after the other: those of this graph agree by induction
    obtain ⟨n, groups, locals, compiled⟩ := g
    unfold compile
    refine (prepare_agrees hR conversions n network).bind ?_
    rintro ⟨m, links⟩ hm
    dsimp only
    cases hfind : findPaths m with
    | error e =>
      exact (Work.Agrees.report hR.logs _ _).bind fun _ _ => .pure _ (.intro _ hm functions)
    | ok k =>
      have hk : k.Uses G V := by
        obtain ⟨paths, rfl⟩ : ∃ paths, k = { m with paths } := by
          unfold findPaths at hfind
          split at hfind
          · cases hfind
            exact ⟨m.paths, rfl⟩
          · cases hpaths : m.dependencies.paths with
            | error e =>
              rw [hpaths] at hfind
              cases hfind
            | ok paths =>
              rw [hpaths] at hfind
              cases hfind
              exact ⟨some paths, rfl⟩
        exact ⟨hm.id, hm.vars, hm.board⟩
      refine (compileFunctions_agrees hR conversions k.name locals fun f hf =>
        ⟨functions f hf, ih f hf⟩).bind ?_
      rintro ⟨fs, result⟩ hfs
      cases result with
      | error e => exact .pure _ (.intro _ hk hfs)
      | ok _ => exact (Work.Agrees.report hR.logs _ _).bind fun _ _ => .pure _ (.intro _ hk hfs)

end Compiling
end Graph
end FlowGraph
