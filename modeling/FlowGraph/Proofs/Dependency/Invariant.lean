import FlowGraph.Proofs.Dependency.Search

/-! # What every search keeps

    The marks are those of the stack and of the list, the stack is a chain of
    dependencies that starts at the destination, and every node was listed after the
    nodes it needs.  `Invariant` says this of one state, `invariant_step` that a step
    keeps it, and so it holds of every state that a search reaches (`invariant_run`). -/

namespace FlowGraph

namespace Dependencies

open Relation

/-! ## Section 1: The invariant -/

/-- The entered nodes, the last one first. -/
def Search.entered (s : Search) : List Nat := s.stack.map Prod.fst

/-- Each entered node has looked at a part of its dependencies.  Of these, the ones that
    are no forward nodes are listed, but for the node above it on the stack. -/
def Looked (g : Dependencies) (listed : List Nat) : Option Nat → List (Nat × List Nat) → Prop
  | _, [] => True
  | above, (v, ds) :: rest =>
    (∃ looked, g.needs v = looked ++ ds ∧
      ∀ d ∈ looked, g.isForward d = false → d ∈ listed ∨ above = some d) ∧
    Looked g listed (some v) rest

/-- In a list with the last node first, every node stands before what it needs. -/
def Ordered (g : Dependencies) : List Nat → Prop
  | [] => True
  | x :: rest => (∀ d, g.Needs x d → d ∈ rest) ∧ Ordered g rest

/-- What holds of every state of a search. -/
structure Invariant (g : Dependencies) (destination : Nat) (s : Search) : Prop where
  size_eq : s.marks.size = g.size
  mark_entered : ∀ v, s.mark v = .entered ↔ v ∈ s.entered
  mark_left : ∀ v, v < g.size →
    (s.mark v = .left ↔ v ∈ s.done ∨ (v = destination ∧ s.stack = []))
  nodup_entered : s.entered.Nodup
  nodup_done : s.done.Nodup
  bottom : s.stack = [] ∨ s.entered.getLast? = some destination
  chain : s.entered.IsChain (fun w v => g.Needs v w)
  reach_entered : ∀ v ∈ s.entered, ReflTransGen g.Needs destination v
  reach_done : ∀ v ∈ s.done, TransGen g.Needs destination v
  not_listed : destination ∉ s.done
  looked : Looked g s.done none s.stack
  ordered : Ordered g s.done
  complete : s.stack = [] → ∀ d, g.Needs destination d → d ∈ s.done

theorem invariant_start (g : Dependencies) (destination : Nat) (hd : destination < g.size) :
    Invariant g destination (g.start destination) := by
  -- positions past the last node count as left
  have hmark : ∀ v, (g.start destination).mark v
      = if v = destination then .entered else if v < g.size then .new else .left := by
    intro v
    have hset := Search.mark_set ⟨Array.replicate g.size .new, [], []⟩ destination v .entered []
      [(destination, g.needs destination)] (by simpa using hd)
    rw [start, hset]
    unfold Search.mark
    by_cases hv : v = destination
    · simp [hv]
    · by_cases hlt : v < g.size <;> simp [hv, hlt]
  refine ⟨by simp [start], ?_, ?_, by simp [start, Search.entered], by simp [start], .inr rfl,
    by simp [start, Search.entered], ?_, by simp [start], by simp [start], ?_, trivial, ?_⟩
  · intro v
    rw [hmark]
    by_cases hv : v = destination
    · subst hv; simp [start, Search.entered]
    · by_cases hlt : v < g.size <;> simp [hv, hlt, start, Search.entered]
  · intro v hlt
    rw [hmark]
    by_cases hv : v = destination <;> simp [hv, hlt, start]
  · intro v hv
    have hv' : v = destination := by simpa [start, Search.entered] using hv
    subst hv'
    exact .refl
  · exact ⟨⟨[], rfl, by simp⟩, trivial⟩
  · intro h; cases h

/-! ## Section 2: One step keeps it -/

theorem looked_mono (g : Dependencies) (listed listed' : List Nat) (h : ∀ d ∈ listed, d ∈ listed') :
    ∀ (stack : List (Nat × List Nat)) (above : Option Nat),
      Looked g listed above stack → Looked g listed' above stack
  | [], _, _ => trivial
  | (_, _) :: rest, _, ⟨⟨looked, heq, hl⟩, hrest⟩ =>
    ⟨⟨looked, heq, fun d hd hf => (hl d hd hf).imp_left (h d)⟩,
      looked_mono g listed listed' h rest _ hrest⟩

/-- Once the node above is listed too, nothing is left out. -/
theorem looked_pop (g : Dependencies) (listed : List Nat) (v : Nat)
    (stack : List (Nat × List Nat)) (h : Looked g listed (some v) stack) :
    Looked g (v :: listed) none stack := by
  cases stack with
  | nil => trivial
  | cons e rest =>
    obtain ⟨⟨looked, heq, hl⟩, hrest⟩ := h
    refine ⟨⟨looked, heq, fun d hd hf => ?_⟩,
      looked_mono g listed _ (fun _ => List.mem_cons_of_mem v) rest _ hrest⟩
    rcases hl d hd hf with hin | habove
    · exact .inl (List.mem_cons_of_mem v hin)
    · cases habove
      exact .inl List.mem_cons_self

/-- The destination is at the bottom of the stack and nowhere else. -/
theorem Invariant.rest_eq_nil_iff {g : Dependencies} {destination : Nat} {s : Search}
    (h : Invariant g destination s) (v : Nat) (ds : List Nat) (rest : List (Nat × List Nat))
    (hstack : s.stack = (v, ds) :: rest) : rest = [] ↔ v = destination := by
  have hlast : (v :: rest.map Prod.fst).getLast? = some destination := by
    have := h.bottom
    simpa [Search.entered, hstack] using this
  have hnodup : v ∉ rest.map Prod.fst := by
    have := h.nodup_entered
    simp only [Search.entered, hstack, List.map_cons, List.nodup_cons] at this
    exact this.1
  constructor
  · intro hnil
    subst hnil
    simpa using hlast
  · intro hv
    cases rest with
    | nil => rfl
    | cons e rest =>
      -- then the destination would be on the stack twice
      rw [List.map_cons, List.getLast?_cons_cons] at hlast
      have hmem := List.mem_of_getLast? hlast
      rw [← hv] at hmem
      exact absurd hmem hnodup

/-- The node on top of the stack is entered, and so it is a node and not listed. -/
theorem Invariant.top {g : Dependencies} {destination : Nat} {s : Search}
    (h : Invariant g destination s) (v : Nat) (ds : List Nat) (rest : List (Nat × List Nat))
    (hstack : s.stack = (v, ds) :: rest) : v < s.marks.size ∧ v ∉ s.done := by
  have hm : s.mark v = .entered := by simp [h.mark_entered, Search.entered, hstack]
  have hlt : v < s.marks.size := by
    by_contra hge
    simp [Search.mark, Array.getElem?_eq_none (Nat.le_of_not_lt hge)] at hm
  refine ⟨hlt, fun hin => ?_⟩
  -- what is listed is marked as left
  have hl := (h.mark_left v (by rw [← h.size_eq]; exact hlt)).mpr (.inl hin)
  rw [hm] at hl
  cases hl

/-- A node that has looked at all its dependencies has them listed. -/
theorem Invariant.listed {g : Dependencies} {destination : Nat} {s : Search}
    (h : Invariant g destination s) (v : Nat) (rest : List (Nat × List Nat))
    (hstack : s.stack = (v, []) :: rest) (d : Nat) (hd : g.Needs v d) : d ∈ s.done := by
  have hlooked := h.looked
  rw [hstack] at hlooked
  obtain ⟨⟨looked, hneeds, hl⟩, _⟩ := hlooked
  have hmem : d ∈ looked := by
    have := hd.1
    rwa [hneeds, List.append_nil] at this
  rcases hl d hmem hd.2 with hin | habove
  · exact hin
  · cases habove

/-- The destination is left last, and is not listed. -/
theorem invariant_leave_destination (g : Dependencies) (destination : Nat) (s : Search)
    (h : Invariant g destination s) (hstack : s.stack = [(destination, [])]) :
    Invariant g destination (leave destination destination { s with stack := [] }) := by
  have hmark : ∀ u, Search.mark ⟨s.marks.setIfInBounds destination .left, s.done, []⟩ u
      = if u = destination then .left else s.mark u := fun u =>
    Search.mark_set s destination u .left _ [] (h.top destination [] [] hstack).1
  have hleave : leave destination destination { s with stack := [] }
      = ⟨s.marks.setIfInBounds destination .left, s.done, []⟩ := by simp [leave]
  rw [hleave]
  refine ⟨by simpa using h.size_eq, ?_, ?_, by simp [Search.entered], h.nodup_done, .inl rfl,
    by simp [Search.entered], by simp [Search.entered], h.reach_done, h.not_listed, trivial,
    h.ordered, fun _ => h.listed destination [] hstack⟩
  · -- the marks of entered nodes: none is left on the stack
    intro u
    rw [hmark]
    by_cases hu : u = destination
    · simp [hu, Search.entered]
    · simp [hu, h.mark_entered, hstack, Search.entered]
  · -- the marks of left nodes: the destination is left, but not listed
    intro u hu
    rw [hmark]
    by_cases hud : u = destination
    · simp [hud]
    · simp [hud, h.mark_left u hu]

/-- Any other node is listed when it is left. -/
theorem invariant_leave_other (g : Dependencies) (destination : Nat) (s : Search) (v : Nat)
    (rest : List (Nat × List Nat)) (h : Invariant g destination s)
    (hstack : s.stack = (v, []) :: rest) (hv : v ≠ destination) :
    Invariant g destination (leave destination v { s with stack := rest }) := by
  have hent : s.entered = v :: rest.map Prod.fst := by simp [Search.entered, hstack]
  have hnodup := h.nodup_entered
  rw [hent, List.nodup_cons] at hnodup
  have hne : rest ≠ [] := fun hnil => hv ((h.rest_eq_nil_iff v [] rest hstack).mp hnil)
  obtain ⟨hlt, hunlisted⟩ := h.top v [] rest hstack
  have hmark : ∀ u, Search.mark ⟨s.marks.setIfInBounds v .left, v :: s.done, rest⟩ u
      = if u = v then .left else s.mark u := fun u => Search.mark_set s v u .left _ rest hlt
  have hleave : leave destination v { s with stack := rest }
      = ⟨s.marks.setIfInBounds v .left, v :: s.done, rest⟩ := by simp [leave, hv]
  have hreach : TransGen g.Needs destination v := by
    rcases (reflTransGen_iff_eq_or_transGen).mp (h.reach_entered v (by rw [hent]; simp))
      with heq | htrans
    · exact absurd heq hv
    · exact htrans
  have hchain := h.chain
  rw [hent] at hchain
  have hlooked := h.looked
  rw [hstack] at hlooked
  rw [hleave]
  refine ⟨by simpa using h.size_eq, ?_, ?_, hnodup.2,
    List.nodup_cons.mpr ⟨hunlisted, h.nodup_done⟩, .inr ?_, hchain.tail, ?_, ?_, ?_,
    looked_pop g s.done v rest hlooked.2, ⟨h.listed v rest hstack, h.ordered⟩,
    fun hnil => absurd hnil hne⟩
  · -- the marks of entered nodes
    intro u
    rw [hmark]
    by_cases hu : u = v
    · subst hu; simpa [Search.entered] using hnodup.1
    · simp [hu, h.mark_entered, hstack, Search.entered]
  · -- the marks of left nodes: the stack was not empty, so these were the listed ones
    intro u hu
    rw [hmark]
    by_cases huv : u = v
    · simp [huv]
    · simp [huv, h.mark_left u hu, hstack, hne]
  · -- the destination stays at the bottom
    have hlast := h.bottom
    simp only [hstack, hent, reduceCtorEq, false_or] at hlast
    cases rest with
    | nil => exact absurd rfl hne
    | cons e rest => rwa [List.map_cons, List.getLast?_cons_cons] at hlast
  · intro u hu
    exact h.reach_entered u (by rw [hent]; exact List.mem_cons_of_mem v hu)
  · intro u hu
    rcases List.mem_cons.mp hu with rfl | hin
    · exact hreach
    · exact h.reach_done u hin
  · intro hin
    rcases List.mem_cons.mp hin with heq | hin
    · exact hv heq.symm
    · exact h.not_listed hin

theorem invariant_pass (g : Dependencies) (destination : Nat) (s : Search) (v d : Nat)
    (ds : List Nat) (rest : List (Nat × List Nat)) (hg : g.InRange)
    (h : Invariant g destination s) (hstack : s.stack = (v, d :: ds) :: rest)
    (hd : g.isForward d = true ∨ s.mark d = .left) :
    Invariant g destination { s with stack := (v, ds) :: rest } := by
  have hent : Search.entered { s with stack := (v, ds) :: rest } = s.entered := by
    simp [Search.entered, hstack]
  have hlooked := h.looked
  rw [hstack] at hlooked
  obtain ⟨⟨looked, hneeds, hl⟩, hrest⟩ := hlooked
  -- only the destination is left without being listed, and it is left last
  have hd_listed : g.isForward d = false → d ∈ s.done := by
    intro hf
    have hlt : d < g.size := hg v d (by rw [hneeds]; simp)
    rcases hd with hfwd | hleft
    · rw [hf] at hfwd; cases hfwd
    · simpa [h.mark_left d hlt, hstack] using hleft
  refine ⟨h.size_eq, ?_, ?_, by rw [hent]; exact h.nodup_entered, h.nodup_done, .inr ?_,
    by rw [hent]; exact h.chain, by rw [hent]; exact h.reach_entered, h.reach_done,
    h.not_listed, ⟨⟨looked ++ [d], by simpa using hneeds, ?_⟩, hrest⟩, h.ordered,
    fun hnil => by cases hnil⟩
  · intro u
    rw [hent]
    exact h.mark_entered u
  · intro u hu
    have hl := h.mark_left u hu
    rw [hstack] at hl
    simpa [Search.mark] using hl
  · have hlast := h.bottom
    rw [hent]
    simpa [hstack] using hlast
  · -- `d` is looked at now
    intro u hu hf
    rcases List.mem_append.mp hu with hin | hin
    · exact hl u hin hf
    · rw [List.mem_singleton] at hin
      subst hin
      exact .inl (hd_listed hf)

theorem invariant_enter (g : Dependencies) (destination : Nat) (s : Search) (v d : Nat)
    (ds : List Nat) (rest : List (Nat × List Nat)) (h : Invariant g destination s)
    (hstack : s.stack = (v, d :: ds) :: rest) (hf : g.isForward d = false)
    (hnew : s.mark d = .new) :
    Invariant g destination
      ⟨s.marks.setIfInBounds d .entered, s.done, (d, g.needs d) :: (v, ds) :: rest⟩ := by
  have hlt : d < s.marks.size :=
    (Array.getElem?_eq_some_iff.mp ((s.mark_eq_new_iff d).mp hnew)).1
  have hmark := fun u =>
    Search.mark_set s d u .entered s.done ((d, g.needs d) :: (v, ds) :: rest) hlt
  have hent : s.entered = v :: rest.map Prod.fst := by simp [Search.entered, hstack]
  have hlooked := h.looked
  rw [hstack] at hlooked
  obtain ⟨⟨looked, hneeds, hl⟩, hrest⟩ := hlooked
  have hedge : g.Needs v d := ⟨by rw [hneeds]; simp, hf⟩
  have hfresh : d ∉ s.entered := by
    intro hin
    rw [← h.mark_entered, hnew] at hin
    cases hin
  refine ⟨by simpa using h.size_eq, ?_, ?_, ?_, h.nodup_done, .inr ?_, ?_, ?_, h.reach_done,
    h.not_listed, ⟨⟨[], rfl, by simp⟩, ⟨looked ++ [d], by simpa using hneeds, ?_⟩, hrest⟩,
    h.ordered, fun hnil => by cases hnil⟩
  · intro u
    rw [hmark]
    by_cases hu : u = d
    · simp [hu, Search.entered]
    · simp [hu, h.mark_entered, hstack, Search.entered]
  · -- the marks of left nodes: a new node is not one of them
    intro u hu
    have hl := h.mark_left u hu
    rw [hmark]
    by_cases hud : u = d
    · subst hud
      rw [hnew] at hl
      simpa [hstack] using hl
    · simpa [hud, hstack] using hl
  · have hnodup := h.nodup_entered
    rw [hent] at hnodup hfresh
    exact List.nodup_cons.mpr ⟨hfresh, hnodup⟩
  · have hlast := h.bottom
    simp only [hstack, hent, reduceCtorEq, false_or] at hlast
    simpa [Search.entered, List.getLast?_cons_cons] using hlast
  · -- the chain grows by the edge to `d`
    have hchain := h.chain
    rw [hent] at hchain
    exact List.isChain_cons_cons.mpr ⟨hedge, hchain⟩
  · intro u hu
    have hv := h.reach_entered v (by rw [hent]; simp)
    rcases List.mem_cons.mp hu with rfl | hin
    · exact hv.tail hedge
    · exact h.reach_entered u (by rw [hent]; exact hin)
  · -- `v` was on top, so it has looked at listed nodes only, and now at the one above it
    intro u hu hf
    rcases List.mem_append.mp hu with hin | hin
    · rcases hl u hin hf with hdone | habove
      · exact .inl hdone
      · cases habove
    · rw [List.mem_singleton] at hin
      exact .inr (by rw [hin])

theorem invariant_step (g : Dependencies) (destination : Nat) (s s' : Search) (hg : g.InRange)
    (h : Invariant g destination s) (hstep : Step g destination s s') :
    Invariant g destination s' := by
  cases hstep with
  | leave v rest hstack =>
    by_cases hv : v = destination
    · have hnil := (h.rest_eq_nil_iff v [] rest hstack).mpr hv
      subst hv hnil
      exact invariant_leave_destination g v s h hstack
    · exact invariant_leave_other g destination s v rest h hstack hv
  | pass v d ds rest hstack hd => exact invariant_pass g destination s v d ds rest hg h hstack hd
  | enter v d ds rest hstack hd hnew =>
    exact invariant_enter g destination s v d ds rest h hstack hd hnew

theorem invariant_run (g : Dependencies) (destination : Nat) (s : Search) (hg : g.InRange)
    (hd : destination < g.size) (h : ReflTransGen (Step g destination) (g.start destination) s) :
    Invariant g destination s := by
  induction h with
  | refl => exact invariant_start g destination hd
  | tail _ hstep ih => exact invariant_step g destination _ _ hg ih hstep

end Dependencies
end FlowGraph
