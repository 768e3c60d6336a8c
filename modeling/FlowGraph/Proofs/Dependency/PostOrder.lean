import FlowGraph.Proofs.Dependency.Invariant

/-! # Paths are post-orders

    `postOrder` is the depth-first post-order written as a recursion: it visits the
    dependencies of a node in their order, skips forward nodes and nodes that were seen
    before, and lists a node after everything that it needs.  It does not stop at
    cycles, a node that is under way counts as seen.

    Main statement: a path that the search finds is the post-order of its destination,
    and it lists exactly what the destination needs, every node once and after its own
    dependencies. -/

namespace FlowGraph

namespace Dependencies

open Relation

/-! ## Section 1: The recursion -/

/-- How many nodes are not under way. -/
def unentered (g : Dependencies) (entered : List Nat) : Nat :=
  (List.range g.size).countP (· ∉ entered)

theorem unentered_cons_lt (g : Dependencies) (entered : List Nat) (d : Nat) (hd : d < g.size)
    (hnew : d ∉ entered) : g.unentered (d :: entered) < g.unentered entered := by
  unfold unentered
  -- the two counts differ by the one node
  have hsplit : ∀ l : List Nat, l.countP (· ∉ entered)
      = l.countP (· ∉ d :: entered) + l.countP (fun v => decide (v = d ∧ v ∉ entered)) := by
    intro l
    induction l with
    | nil => rfl
    | cons v rest ih =>
      simp only [List.countP_cons, ih]
      by_cases hv : v = d <;> by_cases hin : v ∈ entered <;> simp [hv, hin] <;> omega
  have hpos : 0 < (List.range g.size).countP (fun v => decide (v = d ∧ v ∉ entered)) :=
    List.countP_pos_iff.mpr ⟨d, List.mem_range.mpr hd, by simp [hnew]⟩
  have hsum := hsplit (List.range g.size)
  omega

/-- The nodes of `ds` and what they need, listed behind `listed`, while the nodes of
    `entered` are under way. -/
def extend (g : Dependencies) (entered : List Nat) : (ds listed : List Nat) → List Nat
  | [], listed => listed
  | d :: ds, listed =>
    -- positions past the last node count as seen, so that the recursion ends
    if _h : g.isForward d = true ∨ d ∈ listed ∨ d ∈ entered ∨ g.size ≤ d then
      g.extend entered ds listed
    else g.extend entered ds (g.extend (d :: entered) (g.needs d) listed ++ [d])
termination_by ds => (g.unentered entered, ds.length)
decreasing_by
  · exact Prod.Lex.right _ (by simp)
  · simp only [not_or, Nat.not_le] at _h
    exact Prod.Lex.left _ _ (g.unentered_cons_lt entered d _h.2.2.2 _h.2.2.1)
  · exact Prod.Lex.right _ (by simp)

/-- Everything that a node needs, by depth first, each node behind what it needs itself. -/
def postOrder (g : Dependencies) (destination : Nat) : List Nat :=
  g.extend [destination] (g.needs destination) []

theorem extend_nil (g : Dependencies) (entered listed : List Nat) :
    g.extend entered [] listed = listed := by
  rw [extend]

theorem extend_skip (g : Dependencies) (entered ds listed : List Nat) (d : Nat)
    (h : g.isForward d = true ∨ d ∈ listed) :
    g.extend entered (d :: ds) listed = g.extend entered ds listed := by
  rw [extend, dif_pos]
  exact h.imp_right .inl

theorem extend_enter (g : Dependencies) (entered ds listed : List Nat) (d : Nat)
    (hf : g.isForward d = false) (hlisted : d ∉ listed) (hentered : d ∉ entered)
    (hd : d < g.size) :
    g.extend entered (d :: ds) listed
      = g.extend entered ds (g.extend (d :: entered) (g.needs d) listed ++ [d]) := by
  rw [extend, dif_neg]
  simp [hf, hlisted, hentered, hd]

/-! ## Section 2: The search computes the recursion -/

/-- What the recursion lists in the end, if the nodes of a stack are under way. -/
def resume (g : Dependencies) (destination : Nat) :
    (stack : List (Nat × List Nat)) → (listed : List Nat) → List Nat
  | [], listed => listed
  | (v, ds) :: rest, listed =>
    let behind := g.extend (v :: rest.map Prod.fst) ds listed
    g.resume destination rest (if v = destination then behind else behind ++ [v])

theorem resume_step (g : Dependencies) (destination : Nat) (s s' : Search) (hg : g.InRange)
    (h : Invariant g destination s) (hstep : Step g destination s s') :
    g.resume destination s'.stack s'.done.reverse = g.resume destination s.stack s.done.reverse := by
  cases hstep with
  | leave v rest hstack =>
    by_cases hv : v = destination <;> simp [leave, hstack, resume, extend_nil, hv]
  | pass v d ds rest hstack hd =>
    -- what is left while the stack is not empty is listed, so the recursion skips it too
    have hskip : g.isForward d = true ∨ d ∈ s.done.reverse := by
      refine hd.imp_right fun hleft => ?_
      have hlooked := h.looked
      rw [hstack] at hlooked
      obtain ⟨⟨looked, hneeds, _⟩, _⟩ := hlooked
      have hlt : d < g.size := hg v d (by rw [hneeds]; simp)
      simpa [h.mark_left d hlt, hstack] using hleft
    simp only [hstack, resume, extend_skip g _ ds _ d hskip]
  | enter v d ds rest hstack hf hnew =>
    have hlt : d < g.size := by
      rw [← h.size_eq]
      exact (Array.getElem?_eq_some_iff.mp ((s.mark_eq_new_iff d).mp hnew)).1
    have hentered : d ∉ s.entered := by
      intro hin
      rw [← h.mark_entered, hnew] at hin
      cases hin
    have hlisted : d ∉ s.done.reverse := by
      intro hin
      have hleft := (h.mark_left d hlt).mpr (.inl (List.mem_reverse.mp hin))
      rw [hnew] at hleft
      cases hleft
    -- the destination is under way from the first step to the last
    have hne : d ≠ destination := by
      intro heq
      have hlast := h.bottom
      rw [hstack] at hlast
      rcases hlast with hnil | hlast
      · cases hnil
      · exact hentered (by rw [heq]; exact List.mem_of_getLast? hlast)
    have hent : s.entered = v :: rest.map Prod.fst := by simp [Search.entered, hstack]
    rw [hent] at hentered
    simp only [hstack, resume, List.map_cons, if_neg hne,
      extend_enter g _ ds _ d hf hlisted hentered hlt]

theorem resume_run (g : Dependencies) (destination : Nat) (s : Search) (hg : g.InRange)
    (hd : destination < g.size) (h : ReflTransGen (Step g destination) (g.start destination) s) :
    g.resume destination s.stack s.done.reverse = g.postOrder destination := by
  induction h with
  | refl => simp [start, resume, postOrder]
  | @tail s s' hreach hstep ih =>
    rw [resume_step g destination s s' hg (invariant_run g destination s hg hd hreach) hstep, ih]

/-! ## Section 3: Paths -/

/-- A path that was found is the list of a state that satisfies the invariant and has
    nothing left to do. -/
theorem pathFor_ok_state (g : Dependencies) (destination : Nat) (path : List Nat)
    (hg : g.InRange) (hd : destination < g.size) (h : g.pathFor destination = .ok path) :
    ∃ s, Invariant g destination s ∧ s.stack = [] ∧ path = s.done.reverse ∧
      s.done.reverse = g.postOrder destination := by
  obtain ⟨s, hreach, hend⟩ := g.pathFor_run destination
  rcases hend with ⟨hnil, heq⟩ | ⟨v, d, ds, rest, _, heq⟩
  · rw [h] at heq
    refine ⟨s, invariant_run g destination s hg hd hreach, hnil, by injection heq, ?_⟩
    have hrun := resume_run g destination s hg hd hreach
    rwa [hnil] at hrun
  · rw [h] at heq
    cases heq

theorem ordered_split (g : Dependencies) (front back : List Nat) (v : Nat)
    (h : Ordered g (front ++ v :: back)) (d : Nat) (hd : g.Needs v d) : d ∈ back := by
  induction front with
  | nil => exact h.1 d hd
  | cons x rest ih => exact ih h.2

/-- What a path contains is closed under what its nodes need. -/
theorem ordered_closed (g : Dependencies) (listed : List Nat) (h : Ordered g listed) (v d : Nat)
    (hv : v ∈ listed) (hd : g.Needs v d) : d ∈ listed := by
  obtain ⟨front, back, heq⟩ := List.append_of_mem hv
  rw [heq] at h ⊢
  have hback := ordered_split g front back v h d hd
  simp [hback]

theorem mem_pathFor_iff (g : Dependencies) (destination : Nat) (path : List Nat)
    (hg : g.InRange) (hd : destination < g.size) (h : g.pathFor destination = .ok path) (v : Nat) :
    v ∈ path ↔ TransGen g.Needs destination v := by
  obtain ⟨s, hinv, hnil, rfl, _⟩ := pathFor_ok_state g destination path hg hd h
  rw [List.mem_reverse]
  constructor
  · exact hinv.reach_done v
  · intro hreach
    induction hreach with
    | single hneed => exact hinv.complete hnil _ hneed
    | tail _ hneed ih => exact ordered_closed g s.done hinv.ordered _ _ ih hneed

theorem not_mem_pathFor (g : Dependencies) (destination : Nat) (path : List Nat)
    (hg : g.InRange) (hd : destination < g.size) (h : g.pathFor destination = .ok path) :
    destination ∉ path := by
  obtain ⟨s, hinv, _, rfl, _⟩ := pathFor_ok_state g destination path hg hd h
  rw [List.mem_reverse]
  exact hinv.not_listed

theorem nodup_pathFor (g : Dependencies) (destination : Nat) (path : List Nat)
    (hg : g.InRange) (hd : destination < g.size) (h : g.pathFor destination = .ok path) :
    path.Nodup := by
  obtain ⟨s, hinv, _, rfl, _⟩ := pathFor_ok_state g destination path hg hd h
  exact List.nodup_reverse.mpr hinv.nodup_done

/-- A path lists every node behind what it needs. -/
theorem pathFor_ordered (g : Dependencies) (destination : Nat) (path : List Nat)
    (hg : g.InRange) (hd : destination < g.size) (h : g.pathFor destination = .ok path)
    (before after : List Nat) (v d : Nat) (hsplit : path = before ++ v :: after)
    (hneed : g.Needs v d) : d ∈ before := by
  obtain ⟨s, hinv, _, hpath, _⟩ := pathFor_ok_state g destination path hg hd h
  have hdone : s.done = after.reverse ++ v :: before.reverse := by
    rw [← List.reverse_reverse s.done, ← hpath, hsplit]
    simp
  have hordered := hinv.ordered
  rw [hdone] at hordered
  exact List.mem_reverse.mp (ordered_split g after.reverse before.reverse v hordered d hneed)

/-- **Main theorem: the order of a path.**  A path has no repetition and does not contain
    its destination; it contains the nodes, other than forward nodes, that the destination
    reaches through nodes that are no forward nodes; every node stands behind what it needs;
    and the path is the depth-first post-order. -/
theorem pathFor_eq_postOrder (g : Dependencies) (hg : g.InRange) (destination : Nat)
    (hd : destination < g.size) (path : List Nat) (h : g.pathFor destination = .ok path) :
    path.Nodup ∧ destination ∉ path ∧
      (∀ v, v ∈ path ↔ v ≠ destination ∧ TransGen g.Needs destination v) ∧
      (∀ before v after, path = before ++ v :: after → ∀ d, g.Needs v d → d ∈ before) ∧
      path = g.postOrder destination := by
  have hnot := not_mem_pathFor g destination path hg hd h
  refine ⟨nodup_pathFor g destination path hg hd h, hnot, ?_, ?_, ?_⟩
  · intro v
    rw [mem_pathFor_iff g destination path hg hd h v]
    constructor
    · intro hreach
      refine ⟨fun heq => hnot ?_, hreach⟩
      rw [mem_pathFor_iff g destination path hg hd h destination, ← heq]
      exact heq ▸ hreach
    · exact fun hv => hv.2
  · intro before v after hsplit d hneed
    exact pathFor_ordered g destination path hg hd h before after v d hsplit hneed
  · obtain ⟨s, _, _, hpath, horder⟩ := pathFor_ok_state g destination path hg hd h
    rw [hpath, horder]

/-- Node 3 needs node 0 in three ways, node 4 is a forward node, and node 5 needs itself. -/
def diamond : Dependencies where
  edges := #[[], [0], [0, 4, 0], [1, 2], [3], [5]]
  forward := #[false, false, false, false, true]

theorem pathFor_diamond :
    diamond.InRange ∧ 3 < diamond.size ∧ diamond.pathFor 3 = .ok [0, 1, 2] ∧
      (∀ v, v ∈ [0, 1, 2] ↔ v ≠ 3 ∧ TransGen diamond.Needs 3 v) ∧
      [0, 1, 2] = diamond.postOrder 3 := by
  have hrange : diamond.InRange := diamond.inRange_of_edges (by decide)
  have hmain := pathFor_eq_postOrder diamond hrange 3 (by decide) [0, 1, 2] rfl
  exact ⟨hrange, by decide, rfl, hmain.2.2.1, hmain.2.2.2.2⟩

end Dependencies
end FlowGraph
