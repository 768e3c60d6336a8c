import FlowGraph.Proofs.Dependency.Search
import FlowGraph.Proofs.Graph.Hosting

/-! # Bounds of the search

    The search for a path as a loop over arrays.  An entered node is kept with a cursor, the
    number of its dependencies that were looked at, and a round of the loop gives no result
    if it looks up a node or a mark that is not there (`round`).  So does the loop if it is
    not done after the rounds that it may take (`walkFrom`).

    * **Rounds**: every round is a step of the search (`round_carries`), and a search from a
      node can take as many steps as there are nodes and dependencies.
    * **Paths**: within these bounds the loop finds what `pathFor` finds, if every dependency
      is a node (`walk_eq_pathFor`); and so it is in every graph of a host.

    The main statement is `walk_in_bounds`. -/

namespace FlowGraph

namespace Dependencies

/-! ## Section 1: The loop -/

/-- The number of dependencies. -/
def edgeCount (g : Dependencies) : Nat := (g.edges.toList.map List.length).sum

theorem steps_eq (g : Dependencies) : g.steps = g.size + g.edgeCount + 1 := by
  unfold steps edgeCount
  rw [← Array.foldl_toList, foldl_length]

/-- A search under way, with cursors. -/
structure Walk where
  marks : Array Mark
  /-- The nodes that the search has left, the last one first. -/
  done : List Nat
  /-- The entered nodes, the last one first, each with the number of its dependencies that
      were looked at. -/
  stack : List (Nat × Nat)
  deriving DecidableEq, Repr

/-- Mark a node, if there is a mark for it. -/
def mark? (marks : Array Mark) (v : Nat) (m : Mark) : Option (Array Mark) :=
  if v < marks.size then some (marks.setIfInBounds v m) else none

/-- The dependencies that were not looked at, instead of those that were. -/
def pending (g : Dependencies) (stack : List (Nat × Nat)) : List (Nat × List Nat) :=
  stack.map fun e => (e.1, (g.needs e.1).drop e.2)

/-- Leave a node, which is taken off the stack. -/
def leaveAt (destination v : Nat) (rest : List (Nat × Nat)) (w : Walk) : Option Walk :=
  (mark? w.marks v .left).map fun marks =>
    ⟨marks, if v = destination then w.done else v :: w.done, rest⟩

/-- Look at a dependency, with the stack on which its node's cursor is moved on. -/
def visitAt (g : Dependencies) (d : Nat) (stack : List (Nat × Nat)) (w : Walk) :
    Option (Except (List String) Walk) :=
  if g.isForward d then some (.ok { w with stack })
  else
    w.marks[d]?.bind fun
      | .left => some (.ok { w with stack })
      | .entered => some (.error (g.cycle (g.pending stack) d))
      | .new => (mark? w.marks d .entered).map fun marks => .ok ⟨marks, w.done, (d, 0) :: stack⟩

/-- One round of the loop, for the node on top of the stack and its cursor. -/
def round (g : Dependencies) (destination v i : Nat) (rest : List (Nat × Nat)) (w : Walk) :
    Option (Except (List String) Walk) :=
  g.edges[v]?.bind fun ds =>
    match ds[i]? with
    | none => (leaveAt destination v rest w).map .ok
    | some d => g.visitAt d ((v, i + 1) :: rest) w

/-- Go round until the stack is empty.  There is no result after more than `rounds` rounds. -/
def walkFrom (g : Dependencies) (destination : Nat) : (rounds : Nat) → Walk →
    Option (Except (List String) (List Nat))
  | rounds, w =>
    match w.stack, rounds with
    | [], _ => some (.ok w.done.reverse)
    | _ :: _, 0 => none
    | (v, i) :: rest, rounds + 1 =>
      (g.round destination v i rest w).bind fun
        | .ok w => g.walkFrom destination rounds w
        | .error chain => some (.error chain)

/-- The nodes to run before a node, found by the loop. -/
def walk (g : Dependencies) (rounds destination : Nat) : Option (Except GraphError (List Nat)) :=
  (mark? (Array.replicate g.size .new) destination .entered).bind fun marks =>
    (g.walkFrom destination rounds ⟨marks, [], [(destination, 0)]⟩).map
      (Except.mapError .circularDependency)

/-- The paths of all nodes, or the first cycle found, each found by the loop. -/
def walks (g : Dependencies) (rounds : Nat) : Option (Except GraphError (List (List Nat))) :=
  ((List.range g.size).mapM fun v => ExceptT.mk (g.walk rounds v)).run

/-! ## Section 2: A round is a step of the search -/

/-- The search that a walk carries out. -/
def Walk.search (g : Dependencies) (w : Walk) : Search := ⟨w.marks, w.done, g.pending w.stack⟩

/-- There is a mark for every node, and the entered ones are nodes. -/
structure Walk.InBounds (g : Dependencies) (w : Walk) : Prop where
  marks : w.marks.size = g.size
  stack : ∀ e ∈ w.stack, e.1 < g.size

/-- What a round comes to: it stays within bounds and is the step that the search takes, or
    it finds the cycle that the search finds. -/
inductive Carries (g : Dependencies) (destination : Nat) (w : Walk) :
    Except (List String) Walk → Prop where
  | advance (w' : Walk) (inBounds : w'.InBounds g)
      (step : Step g destination (w.search g) (w'.search g))
      (search_eq : ∀ fuel, g.search destination (fuel + 1) (w.search g)
        = g.search destination fuel (w'.search g)) : Carries g destination w (.ok w')
  | block (chain : List String)
      (search_eq : ∀ fuel, g.search destination (fuel + 1) (w.search g) = .error chain) :
      Carries g destination w (.error chain)

theorem mark?_eq (marks : Array Mark) (v : Nat) (m : Mark) (hv : v < marks.size) :
    mark? marks v m = some (marks.setIfInBounds v m) := if_pos hv

theorem pending_cons (g : Dependencies) (v i : Nat) (rest : List (Nat × Nat)) :
    g.pending ((v, i) :: rest) = (v, (g.needs v).drop i) :: g.pending rest := rfl

section

variable {g : Dependencies} {w : Walk} {v i : Nat} {rest : List (Nat × Nat)}
  (hw : w.InBounds g) (hstack : w.stack = (v, i) :: rest)

include hw hstack

/-- Moving a cursor on keeps within bounds. -/
theorem Walk.InBounds.moved (j : Nat) : ∀ e ∈ (v, j) :: rest, e.1 < g.size := by
  intro e he
  rcases List.mem_cons.mp he with rfl | he
  · exact hw.stack (v, i) (by rw [hstack]; exact List.mem_cons_self)
  · exact hw.stack e (by rw [hstack]; exact List.mem_cons_of_mem _ he)

/-- A node whose dependencies were all looked at is left. -/
theorem leaveAt_carries (destination : Nat) (hdone : (g.needs v).drop i = []) :
    ∃ w', leaveAt destination v rest w = some w' ∧ Carries g destination w (.ok w') := by
  have hmoved := hw.moved hstack i
  have hv : v < w.marks.size := by rw [hw.marks]; exact hmoved _ List.mem_cons_self
  have htop : (w.search g).stack = (v, []) :: g.pending rest := by
    rw [← hdone, ← pending_cons, ← hstack]
    rfl
  have hleave : leaveAt destination v rest w = some ⟨w.marks.setIfInBounds v .left,
      if v = destination then w.done else v :: w.done, rest⟩ := by
    rw [leaveAt, mark?_eq _ _ _ hv]
    rfl
  refine ⟨_, hleave, .advance _ ⟨?_, ?_⟩ (.leave v (g.pending rest) htop) fun fuel => ?_⟩
  · rw [Array.size_setIfInBounds, hw.marks]
  · exact fun e he => hmoved e (List.mem_cons_of_mem _ he)
  · simp only [search, htop]
    rfl

/-- A dependency is passed over or entered, or it is entered already. -/
theorem visitAt_carries (destination d : Nat)
    (hnext : (g.needs v).drop i = d :: (g.needs v).drop (i + 1)) (hd : d < g.size) :
    ∃ r, g.visitAt d ((v, i + 1) :: rest) w = some r ∧ Carries g destination w r := by
  have hmoved := hw.moved hstack (i + 1)
  have htop : (w.search g).stack = (v, d :: (g.needs v).drop (i + 1)) :: g.pending rest := by
    rw [← hnext, ← pending_cons, ← hstack]
    rfl
  unfold visitAt
  by_cases hf : g.isForward d = true
  · refine ⟨_, if_pos hf, .advance _ ⟨hw.marks, hmoved⟩ (.pass v d _ _ htop (.inl hf)) fun fuel => ?_⟩
    simp only [search, htop, visit, if_pos hf]
    rfl
  · have hf' : g.isForward d = false := by simpa using hf
    have hmarked : d < w.marks.size := by rw [hw.marks]; exact hd
    obtain ⟨m, hlook⟩ : ∃ m, w.marks[d]? = some m := ⟨_, Array.getElem?_eq_getElem hmarked⟩
    have hmark : ∀ stack, Search.mark ⟨(w.search g).marks, (w.search g).done, stack⟩ d = m := by
      intro stack
      show (w.marks[d]?).getD .left = m
      rw [hlook, Option.getD_some]
    rw [if_neg hf, hlook, Option.bind_some]
    cases m with
    | left =>
      refine ⟨_, rfl, .advance _ ⟨hw.marks, hmoved⟩ (.pass v d _ _ htop (.inr (hmark _)))
        fun fuel => ?_⟩
      simp only [search, htop, visit, if_neg hf, hmark]
      rfl
    | entered =>
      refine ⟨_, rfl, .block _ fun fuel => ?_⟩
      simp only [search, htop, visit, if_neg hf, hmark]
      rfl
    | new =>
      refine ⟨_, by rw [mark?_eq _ _ _ hmarked]; rfl, .advance _ ⟨?_, ?_⟩
        (.enter v d _ _ htop hf' (hmark _)) fun fuel => ?_⟩
      · rw [Array.size_setIfInBounds, hw.marks]
      · intro e he
        rcases List.mem_cons.mp he with rfl | he
        · exact hd
        · exact hmoved e he
      · simp only [search, htop, visit, if_neg hf, hmark]
        rfl

/-- **Step lemma**: a round within bounds has a result. -/
theorem round_carries (hg : g.InRange) (destination : Nat) :
    ∃ r, g.round destination v i rest w = some r ∧ Carries g destination w r := by
  have hv : v < g.edges.size := hw.moved hstack i _ List.mem_cons_self
  have hedges : g.edges[v]? = some (g.needs v) := by
    unfold needs
    rw [Array.getElem?_eq_getElem hv, Option.getD_some]
  unfold round
  rw [hedges, Option.bind_some]
  cases hi : (g.needs v)[i]? with
  | none =>
    have hdone : (g.needs v).drop i = [] :=
      List.drop_eq_nil_of_le (List.getElem?_eq_none_iff.mp hi)
    obtain ⟨w', hleave, hcarries⟩ := leaveAt_carries hw hstack destination hdone
    exact ⟨.ok w', by rw [hleave]; rfl, hcarries⟩
  | some d =>
    obtain ⟨hlt, hget⟩ := List.getElem?_eq_some_iff.mp hi
    have hnext : (g.needs v).drop i = d :: (g.needs v).drop (i + 1) := by
      rw [List.drop_eq_getElem_cons hlt, hget]
    exact visitAt_carries hw hstack destination d hnext (hg v d (List.mem_of_getElem? hi))

end

/-! ## Section 3: The loop is the search -/

theorem walkFrom_of_stack (g : Dependencies) (destination rounds fuel : Nat) (w : Walk)
    (hnil : w.stack = []) :
    g.walkFrom destination rounds w = some (g.search destination fuel (w.search g)) := by
  have hsearch : (w.search g).stack = [] := by rw [Walk.search, hnil]; rfl
  have hwalk : g.walkFrom destination rounds w = some (.ok w.done.reverse) := by
    unfold walkFrom
    simp only [hnil]
  rw [hwalk]
  cases fuel with
  | zero => rfl
  | succ fuel =>
    unfold search
    simp only [hsearch]
    rfl

theorem cost_pos (g : Dependencies) (w : Walk) (e : Nat × Nat) (rest : List (Nat × Nat))
    (hstack : w.stack = e :: rest) : 0 < g.cost (w.search g) := by
  -- every node on the stack costs at least the step that leaves it
  have htop : (w.search g).stack = (e.1, (g.needs e.1).drop e.2) :: g.pending rest := by
    rw [Walk.search, hstack]
    rfl
  rw [cost, htop, List.map_cons, List.sum_cons]
  omega

/-- **Run lemma**: with as many rounds as the search may still take steps, the loop ends
    within bounds and finds what the search finds. -/
theorem walkFrom_eq_search (g : Dependencies) (hg : g.InRange) (destination rounds fuel : Nat)
    (w : Walk) (hw : w.InBounds g) (hrounds : g.cost (w.search g) ≤ rounds)
    (hfuel : g.cost (w.search g) ≤ fuel) :
    g.walkFrom destination rounds w = some (g.search destination fuel (w.search g)) := by
  induction rounds generalizing fuel w with
  | zero =>
    cases hs : w.stack with
    | nil => exact g.walkFrom_of_stack destination 0 fuel w hs
    | cons e rest =>
      have hpos := g.cost_pos w e rest hs
      omega
  | succ rounds ih =>
    cases hs : w.stack with
    | nil => exact g.walkFrom_of_stack destination (rounds + 1) fuel w hs
    | cons e rest =>
      obtain ⟨v, i⟩ := e
      have hpos := g.cost_pos w (v, i) rest hs
      obtain ⟨fuel, rfl⟩ : ∃ n, fuel = n + 1 := Nat.exists_eq_add_one.mpr (by omega)
      obtain ⟨r, hround, hcarries⟩ := round_carries hw hs hg destination
      unfold walkFrom
      simp only [hs, hround, Option.bind_some]
      cases hcarries with
      | advance w' hin hstep heq =>
        have hlt := g.cost_step destination _ _ hw.marks hstep
        rw [heq fuel]
        exact ih fuel w' hin (by omega) (by omega)
      | block chain heq => rw [heq fuel]

/-- A search that starts at a node needs a round for each node and each dependency. -/
theorem walk_eq_pathFor (g : Dependencies) (hg : g.InRange) (destination : Nat)
    (hd : destination < g.size) (rounds : Nat) (hrounds : g.size + g.edgeCount ≤ rounds) :
    g.walk rounds destination = some (g.pathFor destination) := by
  have hcost := g.cost_start_add_one destination hd
  rw [g.steps_eq] at hcost
  have hmark : mark? (Array.replicate g.size .new) destination .entered
      = some ((Array.replicate g.size .new).setIfInBounds destination .entered) :=
    mark?_eq _ _ _ (by rwa [Array.size_replicate])
  obtain ⟨w, hw⟩ : ∃ w : Walk, w = ⟨(Array.replicate g.size .new).setIfInBounds destination .entered,
    [], [(destination, 0)]⟩ := ⟨_, rfl⟩
  have hsearch : w.search g = g.start destination := by rw [hw]; rfl
  have hin : w.InBounds g := by
    rw [hw]
    refine ⟨by simp, fun e he => ?_⟩
    rw [List.mem_singleton.mp he]
    exact hd
  have hwalk := g.walkFrom_eq_search hg destination rounds g.steps w hin
    (by rw [hsearch]; omega) (by rw [hsearch, g.steps_eq]; omega)
  unfold walk pathFor
  rw [hmark, Option.bind_some, ← hw, hwalk, hsearch, Option.map_some]
  cases g.search destination g.steps (g.start destination) <;> rfl

theorem mapM_mk {ε α β : Type} (f : α → Option (Except ε β)) (h : α → Except ε β) (xs : List α)
    (hf : ∀ x ∈ xs, f x = some (h x)) :
    (xs.mapM fun x => ExceptT.mk (f x)).run = some (xs.mapM h) := by
  induction xs with
  | nil => rfl
  | cons x rest ih =>
    have hrest := ih fun y hy => hf y (List.mem_cons_of_mem x hy)
    have hfirst := hf x List.mem_cons_self
    simp only [List.mapM_cons, ExceptT.run_bind, ExceptT.run_mk, hfirst, hrest]
    cases h x with
    | error e => rfl
    | ok y => cases rest.mapM h <;> rfl

/-- The paths of all nodes are found within bounds. -/
theorem walks_eq_paths (g : Dependencies) (hg : g.InRange) (rounds : Nat)
    (hrounds : g.size + g.edgeCount ≤ rounds) : g.walks rounds = some g.paths := by
  unfold walks paths
  exact mapM_mk _ _ _ fun v hv =>
    g.walk_eq_pathFor hg v (List.mem_range.mp hv) rounds hrounds

/-! ## Section 4: Graphs -/

/-- The dependencies whose paths compiling looks for: those of the network with its links
    made. -/
theorem prepare_dependencies (n : Network) (hn : n.Sound) (conversions : Conversions) (s : Store) :
    let d := (Graph.prepare conversions n s).1.1.dependencies
    d.InRange ∧ d.forward.size = d.size ∧ d.names.size = d.size := by
  refine ⟨Network.dependencies_inRange _ (n.link_sound conversions hn), ?_, ?_⟩
  · simp [Network.dependencies, size]
  · simp [Network.dependencies, size]

/-- **Main theorem: bounds of the search.**  If every dependency is a node then a search from
    any node ends after as many rounds as there are nodes and dependencies, looks up nothing
    that is not there, and finds the path or the cycle that `pathFor` gives; duplicates,
    nodes that need themselves, cycles and a short list of forward nodes make no difference.
    The dependencies whose paths are looked for when a graph of a host, or a function in it,
    is compiled are of this kind, and so all their paths are found within these bounds. -/
theorem walk_in_bounds :
    (∀ g : Dependencies, g.InRange → ∀ destination, destination < g.size →
      ∀ rounds, g.size + g.edgeCount ≤ rounds →
        g.walk rounds destination = some (g.pathFor destination)) ∧
    (∀ g : Graph, g.Hosted → g.All fun n => ∀ conversions s,
      let d := (Graph.prepare conversions n s).1.1.dependencies
      (d.InRange ∧ d.forward.size = d.size ∧ d.names.size = d.size) ∧
        ∀ rounds, d.size + d.edgeCount ≤ rounds → d.walks rounds = some d.paths) := by
  refine ⟨walk_eq_pathFor, fun g hg => ?_⟩
  have hall := hg.all (fun r data s => Graph.ofData_consistent r data s) Graph.apply_consistent
  refine hall.mono fun n hn conversions s => ?_
  have hd := prepare_dependencies n hn.sound conversions s
  exact ⟨hd, fun rounds hrounds => walks_eq_paths _ hd.1 rounds hrounds⟩

/-- Node 0 needs node 1 twice, node 1 leads back to it, and node 2 needs itself.  Only node 0
    is in the list of forward nodes. -/
def tangle : Dependencies where
  edges := #[[1, 1], [0, 3], [2, 3], [4], []]
  forward := #[true]

/-- The bound is 12 in the first graph, and 3 for two nodes that are linked. -/
theorem walk_in_bounds_tangle :
    tangle.InRange ∧ tangle.walk 12 0 = some (.ok [4, 3, 1]) ∧
      tangle.walk 12 2 = some (.error (.circularDependency ["#2", "#2"])) ∧
      let n := (Graph.ofData Registry.builtin Graph.widened default).1.toNetwork
      let d := (Graph.prepare .standard n default).1.1.dependencies
      d.edges = #[[], [0]] ∧ d.walks 3 = some (.ok [[], [0]]) := by
  have hrange : tangle.InRange := tangle.inRange_of_edges (by decide)
  have hpath := walk_in_bounds.1 tangle hrange 0 (by decide) 12 (by decide)
  have hcycle := walk_in_bounds.1 tangle hrange 2 (by decide) 12 (by decide)
  have hwidened := (walk_in_bounds.2 _ (.hydrated Registry.builtin Graph.widened default)).network
    .standard default
  refine ⟨hrange, hpath, hcycle, by decide +kernel, (hwidened.2 3 (by decide +kernel)).trans ?_⟩
  decide +kernel

/-- A bound that is reached, and a dependency that is no node. -/
example : ({ edges := #[[], [0], [0], [1, 2]] } : Dependencies).walk 7 3 = none := by decide +kernel

example : ({ edges := #[[1]] } : Dependencies).walk 2 0 = none := by decide +kernel

end Dependencies
end FlowGraph
