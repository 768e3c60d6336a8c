import FlowGraph.Proofs.Variable.Bound
import FlowGraph.Proofs.Reordering.Stores

/-! # Binding the variables of a graph in any order

    The variables of the nodes are bound to globals and to variables of the blackboard, never
    to one another.  So each is bound in the same way whichever were bound before it
    (`find?_foldl_boundOwn`), and binding them in another order leads to a table that is alike
    (`Alike.foldl_boundOwn`). -/

namespace FlowGraph

namespace Variables

variable {V : VarId → VarId → Prop} {vs ws : Variables}

/-! ## Section 1: Alike tables -/

section Alike

variable (hV : Relator.BiUnique V) (h : vs.Alike V ws)

include hV h

theorem Alike.bound {v w t u : VarId} (hvw : V v w) (htu : V t u) :
    (vs.bound v t).Alike V (ws.bound w u) := by
  unfold Variables.bound
  rcases h.bind hV hvw htu with ⟨_, _, hs, ht⟩ | ⟨_, _, hs, ht, hvars⟩
  · rw [hs, ht]
    exact h
  · rw [hs, ht]
    exact hvars

variable {globals : Globals} (hglobals : ∀ e ∈ globals.entries, V e.2 e.2)

include hglobals

omit hV h in
theorem globals_related (name : String) (t : VarId) (ht : globals.find? name = some t) : V t t := by
  obtain ⟨e, he, rfl⟩ := Option.map_eq_some_iff.mp ht
  exact hglobals e (List.mem_of_find?_eq_some he)

theorem Alike.boundGlobal {v : VarId} (hv : V v v) :
    (vs.boundGlobal globals v).Alike V (ws.boundGlobal globals v) := by
  unfold Variables.boundGlobal
  rw [h.nameOf hv]
  cases hfound : globals.find? (vs.nameOf v) with
  | none => exact h
  | some t =>
    dsimp only
    split
    · exact h.bound hV hv (globals_related hglobals _ t hfound)
    · exact h

theorem Alike.boundBoard {v : VarId} (hv : V v v) :
    (vs.boundBoard globals v).Alike V (ws.boundBoard globals v) := by
  have hunbound := h.unbind hV hv
  have hcell := hunbound.cell v v hv
  have hglobal : ((ws.unbind v).find? v).map (·.isGlobal)
      = ((vs.unbind v).find? v).map (·.isGlobal) := by
    generalize (vs.unbind v).find? v = x, (ws.unbind v).find? v = y at hcell
    cases hcell with
    | none => rfl
    | some hxy => rw [Option.map_some, Option.map_some, hxy.isGlobal]
  unfold Variables.boundBoard
  rw [hglobal]
  split
  · exact hunbound.boundGlobal hV hglobals hv
  · exact hunbound

theorem Alike.boundOwn {board : Blackboard} (hboard : ∀ v ∈ board, V v v) {v : VarId}
    (hv : V v v) : (vs.boundOwn globals board v).Alike V (ws.boundOwn globals board v) := by
  have hunbound := h.unbind hV hv
  have hcell := hunbound.cell v v hv
  unfold Variables.boundOwn
  generalize (vs.unbind v).find? v = x, (ws.unbind v).find? v = y at hcell
  cases hcell with
  | none => exact hunbound
  | some hxy =>
    dsimp only
    rw [hxy.isGlobal, hxy.isShared, hxy.name, hunbound.board board hboard]
    split
    · exact hunbound.boundGlobal hV hglobals hv
    · split
      · split
        · exact hunbound
        · rename_i hfound
          exact hunbound.bound hV hv (hboard _ (List.mem_of_find?_eq_some hfound))
      · exact hunbound

end Alike

/-! ## Section 2: Variables that nothing is bound to -/

/-- What a variable of a node is bound to. -/
def ownTarget (globals : Globals) (board : Blackboard) (vs : Variables) (x : Variable) :
    Option VarId :=
  if x.isGlobal then globals.find? x.name
  else if x.isShared then board.find? vs x.name
  else none

/-- Nothing is bound to one of the variables, and nothing will be. -/
structure Loose (globals : Globals) (board : Blackboard) (own : List VarId) (vs : Variables) :
    Prop where
  globals : ∀ e ∈ globals.entries, e.2 ∉ own
  board : ∀ v ∈ board, v ∉ own
  target : ∀ v t, v ∉ own → vs.targetOf v = some t → t ∉ own

section Loose

variable {globals : Globals} {board : Blackboard} {own : List VarId}

/-- Names do not depend on bindings. -/
theorem nameOf_modify_target (v u : VarId) (f : Variable → Option VarId) :
    (vs.modify v fun x => { x with target := f x }).nameOf u = vs.nameOf u := by
  unfold nameOf
  rw [find?_modify]
  split
  · cases vs.find? u with
    | none => rfl
    | some x => rfl
  · rfl

theorem board_congr (hnames : ∀ u, ws.nameOf u = vs.nameOf u) (name : String) :
    board.find? ws name = board.find? vs name := by
  unfold Blackboard.find?
  exact List.find?_congr fun v _ => by rw [hnames]

/-- Chains that start elsewhere stay there. -/
theorem Loose.chase (h : vs.Loose globals board own) (n : Nat) (u : VarId) (hu : u ∉ own) :
    vs.chase n u ∉ own := by
  induction n generalizing u with
  | zero => exact hu
  | succ n ih =>
    unfold Variables.chase
    cases ht : vs.targetOf u with
    | none => exact hu
    | some t => exact ih t (h.target u t hu ht)

/-- So a binding to a variable elsewhere is not refused. -/
theorem Loose.bound (h : vs.Loose globals board own) (v w : VarId) (hv : v ∈ own) (hw : w ∉ own) :
    vs.bound v w = vs.modify v fun x => { x with target := some w } := by
  have hreaches : ¬ vs.reaches v vs.cells.size w = true := by
    rw [reaches_iff_chase]
    rintro ⟨n, _, hn⟩
    exact h.chase n w hw (hn ▸ hv)
  unfold Variables.bound Variables.bind
  rw [if_neg hreaches]

/-- Bindings of these variables change none of the others. -/
theorem Loose.modify (h : vs.Loose globals board own) (v : VarId) (hv : v ∈ own)
    (f : Variable → Option VarId) :
    (vs.modify v fun x => { x with target := f x }).Loose globals board own := by
  refine ⟨h.globals, h.board, fun u t hu ht => h.target u t hu ?_⟩
  have hne : v ≠ u := fun heq => hu (heq ▸ hv)
  unfold targetOf at ht ⊢
  rw [find?_modify, if_neg hne] at ht
  exact ht

theorem modify_congr (v : VarId) (f g : Variable → Variable)
    (hfg : ∀ x, vs.find? v = some x → f x = g x) : vs.modify v f = vs.modify v g := by
  unfold Variables.modify
  congr 1
  apply Array.ext_getElem?
  intro u
  rw [Array.getElem?_modify, Array.getElem?_modify]
  split
  · rename_i huv
    subst huv
    unfold find? at hfg
    cases hx : vs.cells[v]? with
    | none => rfl
    | some x => rw [Option.map_some, Option.map_some, hfg x hx]
  · rfl

theorem modify_modify (v : VarId) (f g : Variable → Variable) :
    (vs.modify v f).modify v g = vs.modify v (g ∘ f) := by
  unfold Variables.modify
  congr 1
  apply Array.ext_getElem?
  intro u
  simp only [Array.getElem?_modify]
  split
  · rw [Option.map_map]
  · rfl

/-- Binding one of them anew depends on none of them. -/
theorem Loose.boundOwn (h : vs.Loose globals board own) (v : VarId) (hv : v ∈ own) :
    vs.boundOwn globals board v
      = vs.modify v fun x => { x with target := ownTarget globals board vs x } := by
  have hunbound : (vs.unbind v).Loose globals board own := h.modify v hv fun _ => none
  -- a binding to a variable elsewhere, made after the old one was undone
  have hrebound : ∀ w, w ∉ own →
      (vs.unbind v).bound v w = vs.modify v fun x => { x with target := some w } := by
    intro w hw
    rw [hunbound.bound v w hv hw]
    unfold unbind
    rw [modify_modify]
    rfl
  have hkept : ∀ t, (∀ x, vs.find? v = some x → t = ownTarget globals board vs x) →
      (vs.modify v fun x => { x with target := t })
        = vs.modify v fun x => { x with target := ownTarget globals board vs x } := by
    intro t ht
    refine modify_congr v _ _ fun x hx => ?_
    rw [ht x hx]
  have hnames : ∀ u, (vs.unbind v).nameOf u = vs.nameOf u :=
    fun u => nameOf_modify_target v u fun _ => none
  have hfound : (vs.unbind v).find? v = (vs.find? v).map fun x => { x with target := none } := by
    unfold unbind
    rw [find?_modify, if_pos rfl]
  unfold Variables.boundOwn
  rw [hfound]
  cases hx : vs.find? v with
  | none =>
    refine hkept none fun x hx' => ?_
    rw [hx] at hx'
    cases hx'
  | some x =>
    have hnameOf : vs.nameOf v = x.name := by
      unfold nameOf
      rw [hx]
      rfl
    have hdone : ∀ t, t = ownTarget globals board vs x →
        (vs.modify v fun x => { x with target := t })
          = vs.modify v fun x => { x with target := ownTarget globals board vs x } := by
      intro t ht
      refine hkept t fun y hy => ?_
      rw [hx] at hy
      cases hy
      exact ht
    unfold ownTarget at hdone
    rw [Option.map_some]
    dsimp only
    by_cases hglobal : x.isGlobal = true
    · rw [if_pos hglobal] at hdone ⊢
      unfold Variables.boundGlobal
      rw [hnames, hnameOf]
      cases hw : globals.find? x.name with
      | none => exact hdone none hw.symm
      | some w =>
        obtain ⟨e, he, rfl⟩ := Option.map_eq_some_iff.mp hw
        have hwo := h.globals e (List.mem_of_find?_eq_some he)
        have hne : e.2 ≠ v := fun heq => hwo (heq ▸ hv)
        dsimp only
        rw [if_pos hne, hrebound e.2 hwo]
        exact hdone _ hw.symm
    · rw [if_neg hglobal] at hdone ⊢
      by_cases hshared : x.isShared = true
      · rw [if_pos hshared] at hdone ⊢
        rw [board_congr hnames]
        cases hw : board.find? vs x.name with
        | none => exact hdone none hw.symm
        | some w =>
          have hwo := h.board w (List.mem_of_find?_eq_some hw)
          dsimp only
          rw [hrebound w hwo]
          exact hdone _ hw.symm
      · rw [if_neg hshared] at hdone ⊢
        exact hdone none rfl

/-- After some of them were bound, each of these is bound by its own name, and nothing else has
    changed. -/
theorem Loose.find?_foldl (h : vs.Loose globals board own) (ids : List VarId)
    (hids : ∀ v ∈ ids, v ∈ own) (u : VarId) :
    (ids.foldl (Variables.boundOwn globals board) vs).find? u = if u ∈ ids then
      (vs.find? u).map fun x => { x with target := ownTarget globals board vs x }
    else vs.find? u := by
  induction ids generalizing vs with
  | nil => rw [List.foldl_nil, if_neg List.not_mem_nil]
  | cons v rest ih =>
    have hv := hids v List.mem_cons_self
    have hloose := h.modify v hv (ownTarget globals board vs)
    have htarget : ∀ x, ownTarget globals board
        (vs.modify v fun x => { x with target := ownTarget globals board vs x }) x
          = ownTarget globals board vs x := by
      intro x
      unfold ownTarget
      rw [board_congr fun u => nameOf_modify_target v u _]
    rw [List.foldl_cons, h.boundOwn v hv, ih hloose fun w hw => hids w (List.mem_cons_of_mem v hw),
      find?_modify]
    simp only [htarget, List.mem_cons]
    by_cases huv : v = u
    · -- a variable that comes twice is bound to the same one again
      subst huv
      by_cases hrest : v ∈ rest
      · simp only [hrest, or_true, if_true, Option.map_map]
        rfl
      · simp only [hrest, or_false, if_true, if_false]
    · simp only [huv, Ne.symm huv, if_false, false_or]

/-- Bound in any order, the tables are alike. -/
theorem Alike.foldl_boundOwn (h : vs.Alike V ws) (hs : vs.Loose globals board own)
    {own' : List VarId} (ht : ws.Loose globals board own')
    (hglobals : ∀ e ∈ globals.entries, V e.2 e.2) (hboard : ∀ v ∈ board, V v v)
    (hown : ∀ v w, V v w → (v ∈ own ↔ w ∈ own')) :
    (own.foldl (Variables.boundOwn globals board) vs).Alike V
      (own'.foldl (Variables.boundOwn globals board) ws) := by
  have hsize : ∀ (ids : List VarId) (us : Variables),
      (ids.foldl (Variables.boundOwn globals board) us).cells.size = us.cells.size := by
    intro ids
    induction ids with
    | nil => exact fun _ => rfl
    | cons v rest ih =>
      intro us
      rw [List.foldl_cons, ih, size_boundOwn]
  have htarget : ∀ x y : Variable, x.Alike V y →
      Option.Rel V (ownTarget globals board vs x) (ownTarget globals board ws y) := by
    intro x y hxy
    have hrefl : ∀ o : Option VarId, (∀ v, o = some v → V v v) → Option.Rel V o o := by
      intro o ho
      cases o with
      | none => exact .none
      | some v => exact .some (ho v rfl)
    unfold ownTarget
    rw [hxy.isGlobal, hxy.isShared, hxy.name, h.board board hboard]
    split
    · exact hrefl _ (globals_related hglobals x.name)
    · split
      · exact hrefl _ fun v hv => hboard v (List.mem_of_find?_eq_some hv)
      · exact .none
  refine ⟨by rw [hsize, hsize, h.size], fun v w hvw => ?_⟩
  have hcell := h.cell v w hvw
  rw [hs.find?_foldl own (fun _ hv => hv), ht.find?_foldl own' (fun _ hv => hv)]
  by_cases hv : v ∈ own
  · rw [if_pos hv, if_pos ((hown v w hvw).mp hv)]
    generalize vs.find? v = x, ws.find? w = y at hcell
    cases hcell with
    | none => exact .none
    | some hxy => exact .some (hxy.rebound (htarget _ _ hxy))
  · rw [if_neg hv, if_neg (mt (hown v w hvw).mpr hv)]
    exact hcell

end Loose
end Variables

end FlowGraph
