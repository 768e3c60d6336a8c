import FlowGraph.Proofs.Dependency.PostOrder

/-! # Cycles

    There is a path for every node exactly if no loop along dependencies stays clear of
    forward nodes.  Otherwise the error names the nodes of such a loop, in which only the
    first one is repeated, at the end (`paths_error_loop`). -/

namespace FlowGraph

namespace Dependencies

open Relation

/-! ## Section 1: Loops -/

/-- A way along dependencies that ends where it starts. -/
def Loop (g : Dependencies) (nodes : List Nat) : Prop :=
  ∃ v rest, nodes = v :: rest ++ [v] ∧ nodes.IsChain fun v w => w ∈ g.needs v

theorem transGen_of_isChain (g : Dependencies) (v w : Nat) (rest : List Nat)
    (hchain : (v :: rest ++ [w]).IsChain fun v w => w ∈ g.needs v)
    (hf : ∀ x ∈ rest ++ [w], g.isForward x = false) : TransGen g.Needs v w := by
  induction rest generalizing v with
  | nil =>
    have hneed : w ∈ g.needs v := by simpa using hchain
    exact .single ⟨hneed, hf w (by simp)⟩
  | cons x rest ih =>
    rw [List.cons_append, List.cons_append, List.isChain_cons_cons] at hchain
    have htail := ih x hchain.2 fun y hy => hf y (by simp only [List.cons_append, List.mem_cons, hy, or_true])
    exact .head ⟨hchain.1, hf x (by simp)⟩ htail

theorem notForward_of_isChain (g : Dependencies) (v : Nat) (rest : List Nat)
    (hchain : (v :: rest).IsChain g.Needs) : ∀ x ∈ rest, g.isForward x = false := by
  induction rest generalizing v with
  | nil => simp
  | cons w rest ih =>
    rw [List.isChain_cons_cons] at hchain
    intro x hx
    rcases List.mem_cons.mp hx with rfl | hin
    · exact hchain.1.2
    · exact ih w hchain.2 x hin

/-! ## Section 2: The reported cycle -/

/-- The part of the stack that a blocked search reports is a simple loop. -/
theorem blocked_loop (g : Dependencies) (destination : Nat) (s : Search) (v d : Nat)
    (ds : List Nat) (rest : List (Nat × List Nat)) (h : Invariant g destination s)
    (hb : Blocked g s v d ds rest) :
    ∃ nodes, g.Loop nodes ∧ nodes.dropLast.Nodup ∧ (∀ x ∈ nodes, g.isForward x = false) ∧
      g.cycle ((v, ds) :: rest) d = nodes.map g.nameOf := by
  have hent : s.entered = v :: rest.map Prod.fst := by simp [Search.entered, hb.stack_eq]
  -- from the destination up the stack is a chain of dependencies, and `d` is on it
  have hmem : d ∈ s.entered.reverse := by
    rw [List.mem_reverse, ← h.mark_entered]
    exact hb.entered
  have hnodup : s.entered.reverse.Nodup := List.nodup_reverse.mpr h.nodup_entered
  have hchain : s.entered.reverse.IsChain g.Needs := List.isChain_reverse.mpr h.chain
  have hlast : s.entered.reverse.getLast? = some v := by simp [hent]
  have hedge : g.Needs v d := by
    have hlooked := h.looked
    rw [hb.stack_eq] at hlooked
    obtain ⟨⟨looked, hneeds, _⟩, _⟩ := hlooked
    exact ⟨by rw [hneeds]; simp, hb.notForward⟩
  have hcycle : g.cycle ((v, ds) :: rest) d
      = (s.entered.reverse.dropWhile (· ≠ d) ++ [d]).map g.nameOf := by
    simp only [cycle, List.map_cons, hent]
  obtain ⟨below, above, hsplit⟩ := List.append_of_mem hmem
  rw [hsplit] at hnodup hchain hlast hcycle
  -- what is below `d` is not reported
  have hfresh : ∀ x ∈ below, (decide (x ≠ d)) = true := by
    intro x hx
    have hout := List.disjoint_of_nodup_append hnodup hx
    rw [decide_eq_true_eq]
    rintro rfl
    exact hout List.mem_cons_self
  have hdrop : (below ++ d :: above).dropWhile (· ≠ d) = d :: above := by
    rw [List.dropWhile_append_of_pos hfresh]
    simp
  rw [hdrop] at hcycle
  -- the dependency on which the search is blocked closes the loop
  have hclosed : (d :: above ++ [d]).IsChain g.Needs := by
    refine List.IsChain.append hchain.right_of_append (List.isChain_singleton d) ?_
    intro x hx y hy
    rw [List.getLast?_append_of_ne_nil _ (List.cons_ne_nil d above)] at hlast
    rw [hlast, Option.mem_some_iff] at hx
    simp only [List.head?_cons, Option.mem_some_iff] at hy
    rw [← hx, ← hy]
    exact hedge
  refine ⟨d :: above ++ [d], ⟨d, above, rfl, hclosed.imp fun _ _ hneed => hneed.1⟩, ?_, ?_, hcycle⟩
  · rw [List.dropLast_concat]
    exact hnodup.of_append_right
  · intro x hx
    rcases List.mem_cons.mp hx with rfl | hin
    · exact hb.notForward
    · exact notForward_of_isChain g d (above ++ [d]) hclosed x hin

theorem pathFor_error_loop (g : Dependencies) (destination : Nat) (e : GraphError)
    (hg : g.InRange) (hd : destination < g.size) (h : g.pathFor destination = .error e) :
    ∃ nodes, g.Loop nodes ∧ nodes.dropLast.Nodup ∧ (∀ x ∈ nodes, g.isForward x = false) ∧
      e = .circularDependency (nodes.map g.nameOf) := by
  obtain ⟨s, hreach, hend⟩ := g.pathFor_run destination
  rcases hend with ⟨_, heq⟩ | ⟨v, d, ds, rest, hb, heq⟩
  · rw [h] at heq
    cases heq
  · rw [h] at heq
    have hinv := invariant_run g destination s hg hd hreach
    obtain ⟨nodes, hloop, hnodup, hf, hcycle⟩ := blocked_loop g destination s v d ds rest hinv hb
    refine ⟨nodes, hloop, hnodup, hf, ?_⟩
    rw [← hcycle]
    injection heq

/-! ## Section 3: The paths of all nodes -/

theorem mapM_ok {α β ε : Type} (f : α → Except ε β) (xs : List α) (ys : List β)
    (h : xs.mapM f = .ok ys) : List.Forall₂ (fun x y => f x = .ok y) xs ys := by
  induction xs generalizing ys with
  | nil =>
    simp only [List.mapM_nil, pure, Except.pure, Except.ok.injEq] at h
    subst h
    exact .nil
  | cons x xs ih =>
    rw [List.mapM_cons] at h
    cases hx : f x with
    | error e => rw [hx] at h; cases h
    | ok y =>
      rw [hx] at h
      cases hxs : xs.mapM f with
      | error e => rw [hxs] at h; cases h
      | ok rest =>
        rw [hxs] at h
        cases h
        exact .cons hx (ih rest hxs)

theorem mapM_error {α β ε : Type} (f : α → Except ε β) (xs : List α) (e : ε)
    (h : xs.mapM f = .error e) : ∃ x ∈ xs, f x = .error e := by
  induction xs with
  | nil => cases h
  | cons x xs ih =>
    rw [List.mapM_cons] at h
    cases hx : f x with
    | error e' =>
      rw [hx] at h
      cases h
      exact ⟨x, by simp, hx⟩
    | ok y =>
      rw [hx] at h
      cases hxs : xs.mapM f with
      | error e' =>
        rw [hxs] at h
        cases h
        obtain ⟨z, hz, hfz⟩ := ih hxs
        exact ⟨z, List.mem_cons_of_mem x hz, hfz⟩
      | ok rest => rw [hxs] at h; cases h

/-- The paths of all nodes are listed by position. -/
theorem pathFor_of_paths (g : Dependencies) (ps : List (List Nat)) (h : g.paths = .ok ps)
    (v : Nat) (hv : v < g.size) : ∃ path, ps[v]? = some path ∧ g.pathFor v = .ok path := by
  have hall := mapM_ok g.pathFor (List.range g.size) ps h
  have hlen := hall.length_eq
  rw [List.length_range] at hlen
  refine ⟨ps[v], List.getElem?_eq_getElem (by omega), ?_⟩
  have hget := hall.get (by simpa using hv) (by omega)
  simpa using hget

theorem no_loop_of_paths (g : Dependencies) (hg : g.InRange) (ps : List (List Nat))
    (h : g.paths = .ok ps) (v : Nat) : ¬ TransGen g.Needs v v := by
  intro hloop
  have hv : v < g.size := by
    obtain ⟨w, hneed, _⟩ := TransGen.head'_iff.mp hloop
    by_contra hge
    have hnil := g.needs_eq_nil v (by omega)
    simp [Needs, hnil] at hneed
  obtain ⟨path, _, hpath⟩ := pathFor_of_paths g ps h v hv
  -- a node that reaches itself would be on its own path
  exact not_mem_pathFor g v path hg hv hpath ((mem_pathFor_iff g v path hg hv hpath v).mpr hloop)

theorem paths_error_loop (g : Dependencies) (hg : g.InRange) (e : GraphError)
    (h : g.paths = .error e) :
    ∃ nodes, g.Loop nodes ∧ nodes.dropLast.Nodup ∧ (∀ x ∈ nodes, g.isForward x = false) ∧
      e = .circularDependency (nodes.map g.nameOf) := by
  obtain ⟨v, hv, hpath⟩ := mapM_error g.pathFor (List.range g.size) e h
  exact pathFor_error_loop g v e hg (List.mem_range.mp hv) hpath

/-- **Main theorem: when there are paths.**  Finding the paths fails exactly if some loop
    has no forward node on it; so it succeeds if every loop passes through a forward node;
    and the error names a loop without forward nodes, in which only the end is repeated. -/
theorem paths_error_iff_loop (g : Dependencies) (hg : g.InRange) :
    ((∃ e, g.paths = .error e) ↔
      ∃ nodes, g.Loop nodes ∧ ∀ v ∈ nodes, g.isForward v = false) ∧
    ((∀ nodes, g.Loop nodes → ∃ v ∈ nodes, g.isForward v = true) → ∃ ps, g.paths = .ok ps) ∧
    (∀ e, g.paths = .error e →
      ∃ nodes, g.Loop nodes ∧ nodes.dropLast.Nodup ∧ (∀ v ∈ nodes, g.isForward v = false) ∧
        e = .circularDependency (nodes.map g.nameOf)) := by
  have hsound := paths_error_loop g hg
  refine ⟨⟨?_, ?_⟩, ?_, hsound⟩
  · rintro ⟨e, he⟩
    obtain ⟨nodes, hloop, _, hf, _⟩ := hsound e he
    exact ⟨nodes, hloop, hf⟩
  · rintro ⟨_, ⟨v, rest, rfl, hchain⟩, hf⟩
    have hcycle := transGen_of_isChain g v v rest hchain
      fun x hx => hf x (List.mem_cons_of_mem v hx)
    cases hp : g.paths with
    | error e => exact ⟨e, rfl⟩
    | ok ps => exact absurd hcycle (no_loop_of_paths g hg ps hp v)
  · intro hall
    cases hp : g.paths with
    | ok ps => exact ⟨ps, rfl⟩
    | error e =>
      obtain ⟨nodes, hloop, _, hf, _⟩ := hsound e hp
      obtain ⟨v, hv, hfwd⟩ := hall nodes hloop
      rw [hf v hv] at hfwd
      cases hfwd

/-- Node 0 is a forward node on a loop, and it leads to the loop of the last three nodes. -/
def lasso : Dependencies where
  edges := #[[1], [2, 0], [3], [4], [2]]
  forward := #[true]
  names := #["a", "b", "c", "d", "e"]

theorem paths_lasso :
    lasso.InRange ∧ lasso.paths = .error (.circularDependency ["c", "d", "e", "c"]) ∧
      ∃ nodes, lasso.Loop nodes ∧ nodes.dropLast.Nodup ∧
        nodes.map lasso.nameOf = ["c", "d", "e", "c"] := by
  have hrange : lasso.InRange := lasso.inRange_of_edges (by decide)
  have hpaths : lasso.paths = .error (.circularDependency ["c", "d", "e", "c"]) := rfl
  obtain ⟨nodes, hloop, hnodup, _, hnames⟩ := (paths_error_iff_loop lasso hrange).2.2 _ hpaths
  refine ⟨hrange, hpaths, nodes, hloop, hnodup, ?_⟩
  injection hnames with hnames
  exact hnames.symm

end Dependencies
end FlowGraph
